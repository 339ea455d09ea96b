import YeccDefr.Proofs.Grammar.Sequence
import YeccDefr.Proofs.Lexing.Printing

/-!
# Reading without places

What tokens are read as depends on their classes and texts alone, up to the places that the tree notes. Lists
of tokens with the same lexemes are read as the same tree without places
(`Grammar.unplaced_eq_of_lexemes`), or fail at the same rank and expect the same
(`Grammar.ofTokens_error_of_lexemes`).
-/

namespace YeccDefr

/-- A symbol without its place: neither its region nor the gap in front of it. -/
def Symbol.unplaced (s : Symbol) : Symbol := { s with region := default, spaced := false }

/-- A grammar without places. -/
def Grammar.unplaced (g : Grammar) : Grammar := g.map Symbol.unplaced

namespace SpacedToken

/-- A lexeme as a token without a place. -/
def ofLexeme (l : Lexeme) : SpacedToken := ⟨⟨l.kind, l.text, default⟩, false⟩

/-- Tokens with gaps are the same without their places as those without. -/
lemma map_ofLexeme (before? : Option Token) (tokens : List Token) :
    (ofTokens before? tokens).map (fun t => ofLexeme t.token.lexeme) =
      (tokens.map Token.lexeme).map ofLexeme := by
  conv_rhs => rw [← ofTokens_token before? tokens]
  simp

end SpacedToken

/-- What notes a token notes it without its place. -/
lemma Piece.Notes.unplaced {p t} (h : Notes p t) :
    Notes (p.map Symbol.unplaced) (.ofLexeme t.token.lexeme) := by
  cases h with
  | symbol classified =>
    obtain ⟨kind, text, _⟩ := Symbol.classify_eq_ok.1 classified
    refine .symbol (Symbol.classify_eq_ok.2 ⟨kind, ?_, rfl, rfl⟩)
    exact text.trans String.ofList_toList.symm
  | @mark t => exact .mark (t := .ofLexeme t.token.lexeme)

namespace Grammar

/-- The pieces of a tree without places are its pieces without places. -/
lemma unplaced_pieces (g : Grammar) : g.unplaced.pieces = g.pieces.map (Piece.map Symbol.unplaced) :=
  g.pieces_map

/-- Lexemes are read as the tree of any tokens that are these lexemes, without its places. -/
lemma items_ofLexeme {tokens : List Token} {g : Grammar} (h : ofTokens tokens = .ok g) :
    Reader.items ((tokens.map Token.lexeme).map SpacedToken.ofLexeme) = .ok g.unplaced.items [] := by
  obtain ⟨wf, noted⟩ := ofTokens_eq_ok_iff.1 h
  refine Reader.items_eq_ok.2 ⟨rfl, wf.map fun _ => rfl, ?_⟩
  rw [← pieces, unplaced_pieces, ← SpacedToken.map_ofLexeme none, Noted, List.forall₂_map_left_iff,
    List.forall₂_map_right_iff]
  exact noted.imp fun _ _ => Piece.Notes.unplaced

section
variable {tokens tokens' : List Token} (same : tokens.map Token.lexeme = tokens'.map Token.lexeme)
include same

/-- Tokens with the same lexemes are read as the same tree, up to places. -/
theorem unplaced_eq_of_lexemes {g g'} (h : ofTokens tokens = .ok g) (h' : ofTokens tokens' = .ok g') :
    g.unplaced = g'.unplaced := by
  have read := items_ofLexeme h
  rw [same, items_ofLexeme h'] at read
  injection read with items
  exact congrArg Grammar.mk items.symm

/-- Tokens with the same lexemes have the same classes. -/
lemma map_kind_eq : tokens.map (·.kind) = tokens'.map (·.kind) := by
  have kinds := congrArg (List.map Lexeme.kind) same
  rwa [List.map_map, List.map_map] at kinds

/-- Of tokens with the same lexemes either both are read or neither. -/
lemma ofTokens_ok_of_lexemes :
    (∃ g, ofTokens tokens = .ok g) ↔ ∃ g, ofTokens tokens' = .ok g := by
  rw [ofTokens_ok_iff, ofTokens_ok_iff, map_kind_eq same]

/-- Tokens with the same lexemes have the same texts, one by one. -/
lemma getElem?_text_eq (k : Nat) : tokens[k]?.map (·.text) = tokens'[k]?.map (·.text) := by
  have texts := congrArg (fun ls => ls[k]?.map Lexeme.text) same
  simp only [List.getElem?_map, Option.map_map] at texts
  have back : Lexeme.text ∘ Token.lexeme = fun t => t.text := funext fun _ => String.ofList_toList
  rwa [back] at texts

end

/-- Whether a stage is stuck depends on the classes of tokens alone. -/
lemma stuck_of_kinds {q : Stage} {rest rest' : List SpacedToken}
    (same : SpacedToken.kinds rest = SpacedToken.kinds rest') (h : q.Stuck rest) : q.Stuck rest' := by
  cases rest with
  | nil =>
    cases List.map_eq_nil_iff.1 same.symm
    exact h
  | cons t ts =>
    obtain ⟨t', ts', rfl, kind, _⟩ := List.map_eq_cons_iff.1 same.symm
    rw [Stage.Stuck] at h ⊢
    rwa [kind]

/-- The first of the tokens that are left has the rank of as many tokens as were taken. -/
lemma head?_of_split {tokens : List Token} {taken rest : List SpacedToken}
    (split : SpacedToken.ofTokens none tokens = taken ++ rest) :
    rest.head?.map (·.token) = tokens[taken.length]? := by
  rw [← SpacedToken.ofTokens_token none tokens, split, List.getElem?_map,
    List.getElem?_append_right (Nat.le_refl _), Nat.sub_self, List.head?_eq_getElem?]

/-- Tokens with the same lexemes fail at the token of the same rank, and expect the same there. -/
theorem ofTokens_error_of_lexemes {tokens tokens' : List Token} {e}
    (same : tokens.map Token.lexeme = tokens'.map Token.lexeme) (h : ofTokens tokens = .error e) :
    ∃ (k : Nat) (expected : Expected), e = .unexpected ⟨tokens[k]?, expected⟩
      ∧ ofTokens tokens' = .error (.unexpected ⟨tokens'[k]?, expected⟩) := by
  obtain ⟨q, taken, rest, split, after, stuck, rfl⟩ := ofTokens_eq_error h
  have kinds : SpacedToken.kinds (SpacedToken.ofTokens none tokens') =
      SpacedToken.kinds taken ++ SpacedToken.kinds rest := by
    rw [SpacedToken.ofTokens_kinds, ← map_kind_eq same, ← SpacedToken.ofTokens_kinds none, split]
    exact List.map_append
  -- the other list splits where this one does, and is stuck there
  obtain ⟨taken', rest', split', front, back⟩ := List.map_eq_append_iff.1 kinds
  change SpacedToken.kinds taken' = _ at front
  rw [← front] at after
  have length : taken'.length = taken.length := by
    have := congrArg List.length front
    simpa [SpacedToken.kinds] using this
  refine ⟨taken.length, q.expected, by rw [head?_of_split split], ?_⟩
  rw [ofTokens, split',
    Reader.grammar_of_error (Reader.items_of_stuck after (stuck_of_kinds back.symm stuck)),
    head?_of_split split', length]

end Grammar

/-- Errors at tokens of the same text, or at the end of both lists, show the same. -/
lemma Unexpected.found_eq {e e' : Unexpected} (h : e.found?.map (·.text) = e'.found?.map (·.text)) :
    e.found = e'.found := by
  rw [found, found]
  cases found : e.found? with
  | none =>
    rw [found, Option.map_none] at h
    rw [Option.map_eq_none_iff.1 h.symm]
  | some t =>
    rw [found, Option.map_some] at h
    obtain ⟨t', found', text⟩ := Option.map_eq_some_iff.1 h.symm
    rw [found']
    exact congrArg Text.quoted text.symm

end YeccDefr
