import YeccDefr.Proofs.Grammar.Flattening
import YeccDefr.Proofs.Lexing.Placement
import YeccDefr.Translation

/-!
# Gaps in front of symbols

A reading compares offsets to tell whether a symbol is separated from the token before it. Since a scan
accounts for the whole text, the offsets differ exactly where white space or a comment stands in between
(`Scan.lt_iff_separated`), so the gaps that a tree notes are those of its text. `Scan.ofText_lossless`
sums up what is known of the places of tokens.
-/

namespace YeccDefr

namespace Scan

/-- White space or a comment stands between two offsets of a text. -/
def Separated (text : String) (start stop : Nat) : Prop :=
  ∃ t ∈ everyToken text, t.kind ∈ [.comment, .whiteSpace] ∧ t.text ≠ ""
    ∧ start ≤ t.region.start.index ∧ t.region.stop.index ≤ stop

/-- The gap between two tokens that stand side by side is among the gaps. -/
lemma mem_gapEnds {ts : List Token} {k : Nat} {t t' : Token} (h : ts[k]? = some t)
    (h' : ts[k + 1]? = some t') (start stop : Nat) :
    (t.region.stop.index, t'.region.start.index) ∈ gapEnds start ts stop := by
  induction ts generalizing k start with
  | nil => cases h
  | cons u ts ih =>
    refine List.mem_cons_of_mem _ ?_
    cases k with
    | zero =>
      cases h
      cases ts with
      | nil => cases h'
      | cons u' ts =>
        cases h'
        exact List.mem_cons_self
    | succ k => exact ih h h' _

/-- A token starts behind the end of the one before it exactly where something ignored is in between. -/
lemma lt_iff_separated {text : String} {k : Nat} {t t' : Token}
    (h : (ofText text).tokens[k]? = some t) (h' : (ofText text).tokens[k + 1]? = some t') :
    t.region.stop.index < t'.region.start.index ↔
      Separated text t.region.stop.index t'.region.start.index := by
  constructor
  · intro lt
    obtain ⟨u, v, w, split, ignored, ends⟩ := split_of_gap (mem_gapEnds h h' 0 _)
    obtain ⟨start, stop⟩ := Prod.mk.inj ends
    rw [start, stop] at lt ⊢
    cases v with
    | nil => simp at lt
    | cons l v =>
      -- the first lexeme of the gap
      have mem := mem_everyToken (split.trans (List.append_assoc u (l :: v) w))
      have apart := Token.Kind.isIgnored_iff.1 (ignored l List.mem_cons_self)
      refine ⟨_, mem, apart, text_ne_empty mem, Nat.le_refl _, ?_⟩
      simp only [Point.behind, Lexeme.joined_append, Lexeme.joined_cons, String.utf8ByteSize_append]
      omega
  · rintro ⟨u, mem, _, _, start, stop⟩
    have bytes := start_lt_stop mem
    omega

end Scan

namespace SpacedToken
variable {ts : List Token} {k : Nat} {t t' : Token}

/-- The first token has a gap in front if it starts behind the end of the token before. -/
lemma ofTokens_getElem?_zero (before? : Option Token) (h : ts[0]? = some t) :
    (ofTokens before? ts)[0]? =
      some ⟨t, before?.any fun before => before.region.stop.index < t.region.start.index⟩ := by
  cases ts with
  | nil => cases h
  | cons u ts =>
    cases h
    rfl

/-- A later token has a gap in front if it starts behind the end of the one before it. -/
lemma ofTokens_getElem?_succ (before? : Option Token) (h : ts[k]? = some t)
    (h' : ts[k + 1]? = some t') :
    (ofTokens before? ts)[k + 1]? =
      some ⟨t', decide (t.region.stop.index < t'.region.start.index)⟩ := by
  induction ts generalizing k before? with
  | nil => cases h
  | cons u ts ih =>
    cases k with
    | zero =>
      cases h
      exact ofTokens_getElem?_zero (some t) h'
    | succ k => exact ih (some u) h h'

end SpacedToken

/-- The gaps in front of the symbols of a tree are those of the text. -/
def Grammar.NotesGaps (text : String) (g : Grammar) : Prop :=
  ∀ k s, g.pieces[k]? = some (.symbol s) →
    ∃ t, (Scan.ofText text).tokens[k]? = some t ∧ s.text = t.text ∧ s.region = t.region
      ∧ (s.spaced ↔ ∃ j t', k = j + 1 ∧ (Scan.ofText text).tokens[j]? = some t'
        ∧ Scan.Separated text t'.region.stop.index t.region.start.index)

/-- A piece of a list notes the token at its place. -/
lemma noted_getElem? {ps : List Piece} {tokens : List SpacedToken} (h : Noted ps tokens) {k : Nat}
    {p : Piece} (piece : ps[k]? = some p) : ∃ t, tokens[k]? = some t ∧ p.Notes t := by
  induction h generalizing k with
  | nil => cases piece
  | cons first _ ih =>
    cases k with
    | zero =>
      cases piece
      exact ⟨_, rfl, first⟩
    | succ k => exact ih piece

/-- The tree of a text notes the gaps of the text. -/
theorem Grammar.notesGaps_of_read {text : String} {g : Grammar}
    (h : (readGrammar text).value = .ok g) : g.NotesGaps text := by
  intro k s piece
  obtain ⟨_, read⟩ := readGrammar_eq_ok.1 h
  obtain ⟨_, noted⟩ := ofTokens_eq_ok_iff.1 read
  obtain ⟨⟨t, gap⟩, found, note⟩ := noted_getElem? noted piece
  cases note with
  | symbol classified =>
    obtain ⟨_, text_eq, region_eq, spaced_eq⟩ := Symbol.classify_eq_ok.1 classified
    have token : (Scan.ofText text).tokens[k]? = some t := by
      rw [← SpacedToken.ofTokens_token none (Scan.ofText text).tokens, List.getElem?_map, found]
      rfl
    refine ⟨t, token, text_eq, region_eq, ?_⟩
    rw [spaced_eq]
    cases k with
    | zero =>
      rw [SpacedToken.ofTokens_getElem?_zero none token] at found
      cases found
      simp
    | succ j =>
      have before := List.getElem?_eq_getElem
        (Nat.lt_of_succ_lt (List.getElem?_eq_some_iff.1 token).1)
      rw [SpacedToken.ofTokens_getElem?_succ none before token] at found
      cases found
      rw [decide_eq_true_iff, Scan.lt_iff_separated before token]
      constructor
      · exact fun separated => ⟨j, _, rfl, before, separated⟩
      · rintro ⟨_, t', e, before', separated⟩
        cases e
        rw [before] at before'
        cases before'
        exact separated

/-- A symbol of a tree is a word of the class of the token that it is made of. -/
lemma Grammar.word_of_read {text : String} {g : Grammar} (read : ofTokens (Scan.ofText text).tokens = .ok g)
    {s : Symbol} (mem : .symbol s ∈ g.pieces) : ∃ k, s.kind.token? = some k ∧ s.text.toList ∈ k.words := by
  obtain ⟨k, piece⟩ := List.mem_iff_getElem?.1 mem
  obtain ⟨_, noted⟩ := ofTokens_eq_ok_iff.1 read
  obtain ⟨⟨t, gap⟩, found, note⟩ := noted_getElem? noted piece
  cases note with
  | symbol classified =>
    obtain ⟨kind, same, _⟩ := Symbol.classify_eq_ok.1 classified
    have inTokens : t ∈ (Scan.ofText text).tokens := by
      rw [← SpacedToken.ofTokens_token none (Scan.ofText text).tokens]
      exact List.mem_map_of_mem (f := SpacedToken.token) (List.mem_of_getElem? found)
    obtain ⟨l, cut, kind', text'⟩ := Scan.mem_placed (List.mem_of_mem_filter inTokens)
    refine ⟨t.kind, kind, ?_⟩
    rw [same, text', Lexeme.text, String.toList_ofList, kind']
    exact (Lexeme.cut_munches text.toList).word l cut

/-- A scan loses nothing of its text, and its tokens have exact places. Every token is the part of the text
between its offsets, on one line, and what lies between the tokens is no token by itself. If the text is
a grammar, its tree notes a gap in front of a symbol exactly where white space or a comment stands
between the token of the symbol and the token before it. -/
theorem Scan.ofText_lossless (text : String) : (ofText text).Exact text
    ∧ ∀ g, (readGrammar text).value = .ok g → g.NotesGaps text :=
  ⟨exact_ofText text, fun _ => Grammar.notesGaps_of_read⟩

/-- A comment separates the second symbol behind the arrow from the first one. -/
theorem Scan.ofText_lossless_comment :
    let text := "a ->'c'% b\nd'e'."
    let g : Grammar := ⟨[.rule ⟨⟨.atom, "a", ⟨⟨1, 1, 0⟩, ⟨1, 2, 1⟩⟩, false⟩,
      [⟨.atom, "'c'", ⟨⟨1, 5, 4⟩, ⟨1, 8, 7⟩⟩, false⟩,
        ⟨.atom, "d", ⟨⟨2, 1, 11⟩, ⟨2, 2, 12⟩⟩, true⟩,
        ⟨.atom, "'e'", ⟨⟨2, 2, 12⟩, ⟨2, 5, 15⟩⟩, false⟩], none⟩]⟩
    (readGrammar text).value = .ok g ∧ (ofText text).Exact text ∧ g.NotesGaps text := by
  intro text g
  have read : (readGrammar text).value = .ok g := by decide +kernel
  exact ⟨read, (ofText_lossless text).1, (ofText_lossless text).2 g read⟩

end YeccDefr
