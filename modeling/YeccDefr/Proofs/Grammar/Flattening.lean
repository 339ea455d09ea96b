import YeccDefr.Proofs.Grammar.EarliestError

/-!
# Flat grammars

A tree is flattened to the pieces that its text consists of (`Grammar.pieces`): its symbols, and the
marks that the tree does not keep. The readers are characterized by the trees they return. Each has a
lemma `*_eq_ok` that says which tokens it takes for which tree, and `Reader.items_eq_ok` sums them up:
a list of tokens is read as exactly the well-formed trees whose pieces it shows.

With the stages of `YeccDefr.Proofs.Grammar.Stage` this makes reading faithful
(`Grammar.ofTokens_faithful`): the accepted lists of tokens are the words of the grammar, an accepted
list is the flat tree, and a flat well-formed tree is read back.
-/

namespace YeccDefr
open Token.Kind

/-- The class of the tokens that symbols of the given class are made of, if there is one. -/
def Symbol.Kind.token? : Symbol.Kind → Option Token.Kind
  | var => some .var
  | integer => some .integer
  | atom => some .atom
  | float => some .float
  | string => some .stringLiteral
  | reservedSymbol => some .reservedSymbol
  | arrow => some .arrow
  | colon => some .colon
  | reservedWord | char => none

/-- A token is classified as the symbols that are made of its class. -/
lemma Symbol.Kind.ofToken?_eq_some {k : Token.Kind} {kind : Symbol.Kind} :
    ofToken? k = some kind ↔ kind.token? = some k := by
  cases k <;> cases kind <;> simp [ofToken?, token?]

/-- A symbol is made of a token whose class is accepted. -/
def Symbol.Fits (s : Symbol) (accepts : Token.Kind → Bool) : Prop :=
  ∃ k, s.kind.token? = some k ∧ accepts k

/-- A symbol with no gap in front of it. -/
def Symbol.unspaced (s : Symbol) : Symbol := { s with spaced := false }

/-! ## Well-formed trees -/

/-- A declaration is one the productions allow. -/
structure Declaration.WellFormed (d : Declaration) : Prop where
  head : d.head.Fits (· ∈ [var, atom, integer])
  nonempty : d.body ≠ []
  body : (∀ s ∈ d.body, s.Fits (· ∈ [var, atom, integer]))
    ∨ (∀ s ∈ d.body, s.Fits (· == .stringLiteral))

/-- A rule is one the productions allow. -/
structure Rule.WellFormed (r : Rule) : Prop where
  head : r.head.Fits (· ∈ [var, atom, integer])
  nonempty : r.symbols ≠ []
  symbols : ∀ s ∈ r.symbols, s.Fits (· ∈ [var, atom, integer])
  code : ∀ code ∈ r.code?, code ≠ [] ∧ ∀ s ∈ code, s.Fits (· ∉ [dot, comment, whiteSpace])

/-- An item is one the productions allow. -/
def Item.WellFormed : Item → Prop
  | .declaration d => d.WellFormed
  | .rule r => r.WellFormed

/-- All items of a tree are allowed. -/
def Grammar.WellFormed (g : Grammar) : Prop := ∀ i ∈ g.items, i.WellFormed

/-- The readers accept the classes of grammar symbols. -/
lemma Symbol.fits_isGrammarSymbol {s : Symbol} :
    s.Fits isGrammarSymbol ↔ s.Fits (· ∈ [var, atom, integer]) := by
  simp only [Fits, isGrammarSymbol_iff, decide_eq_true_iff]

/-- The readers accept the classes of code. -/
lemma Symbol.fits_isCode {s : Symbol} :
    s.Fits isCode ↔ s.Fits (· ∉ [dot, comment, whiteSpace]) := by
  simp only [Fits, isCode_iff, decide_eq_true_iff]

/-- A declaration is well-formed when the readers accept its symbols. -/
lemma Declaration.wellFormed_iff {d : Declaration} :
    d.WellFormed ↔ d.head.Fits isGrammarSymbol ∧ d.body ≠ []
      ∧ ((∀ s ∈ d.body, s.Fits isGrammarSymbol) ∨ (∀ s ∈ d.body, s.Fits (· == .stringLiteral))) := by
  simp only [Symbol.fits_isGrammarSymbol]
  exact ⟨fun ⟨head, nonempty, body⟩ => ⟨head, nonempty, body⟩,
    fun ⟨head, nonempty, body⟩ => ⟨head, nonempty, body⟩⟩

/-- A rule is well-formed when the readers accept its symbols. -/
lemma Rule.wellFormed_iff {r : Rule} :
    r.WellFormed ↔ r.head.Fits isGrammarSymbol ∧ r.symbols ≠ []
      ∧ (∀ s ∈ r.symbols, s.Fits isGrammarSymbol)
      ∧ ∀ code ∈ r.code?, code ≠ [] ∧ ∀ s ∈ code, s.Fits isCode := by
  simp only [Symbol.fits_isGrammarSymbol, Symbol.fits_isCode]
  exact ⟨fun ⟨head, nonempty, symbols, code⟩ => ⟨head, nonempty, symbols, code⟩,
    fun ⟨head, nonempty, symbols, code⟩ => ⟨head, nonempty, symbols, code⟩⟩

/-! ## Flattening -/

/-- A piece of a flat grammar: a symbol of the tree, or a mark that the tree does not keep. -/
inductive Piece where
  | symbol (s : Symbol)
  | mark (k : Token.Kind)

namespace Piece

/-- A token of a list is what a piece stands for. A mark leaves the text and the region open. -/
inductive Shows : Piece → Token → Prop where
  | symbol {s : Symbol} {t} :
    s.kind.token? = some t.kind →
    s.text = t.text →
    s.region = t.region →
    Shows (.symbol s) t
  | mark {t} : Shows (.mark t.kind) t

/-- A piece is what a token is read as, with the gap in front of the token noted. -/
inductive Notes : Piece → SpacedToken → Prop where
  | symbol {s t} :
    Symbol.classify t.token t.spaced = .ok s →
    Notes (.symbol s) t
  | mark {t} : Notes (.mark t.token.kind) t

/-- A piece with its symbol changed. -/
def map (f : Symbol → Symbol) : Piece → Piece
  | symbol s => symbol (f s)
  | mark k => mark k

end Piece

/-- The head, the body and the dot. -/
def Declaration.pieces (d : Declaration) : List Piece :=
  .symbol d.head :: d.body.map .symbol ++ [.mark .dot]

/-- The pieces of attached code, the colon in front. -/
def codePieces : Option (List Symbol) → List Piece
  | none => []
  | some code => .mark .colon :: code.map .symbol

/-- The head, the arrow, the symbols, the code and the dot. -/
def Rule.pieces (r : Rule) : List Piece :=
  .symbol r.head :: .mark .arrow :: r.symbols.map .symbol ++ codePieces r.code? ++ [.mark .dot]

/-- The pieces of an item. -/
def Item.pieces : Item → List Piece
  | .declaration d => d.pieces
  | .rule r => r.pieces

/-- The pieces of a tree, item by item. -/
def Grammar.pieces (g : Grammar) : List Piece := g.items.flatMap Item.pieces

/-- The symbols in the code of a rule are pieces of the rule, one after the other. -/
lemma Rule.code_infix_pieces (r : Rule) : r.code.map .symbol <:+: r.pieces := by
  have inside : r.code.map .symbol <:+: codePieces r.code? := by
    rw [code]
    cases r.code? with
    | none => exact List.infix_rfl
    | some code => exact (List.suffix_cons _ _).isInfix
  exact (inside.trans (List.suffix_append _ _).isInfix).trans (List.prefix_append _ _).isInfix

/-- The code of a rule stands in one piece in the tree. -/
lemma Grammar.code_infix_pieces {g : Grammar} {r : Rule} (mem : .rule r ∈ g.items) :
    r.code.map .symbol <:+: g.pieces := by
  refine r.code_infix_pieces.trans ?_
  rw [pieces, List.flatMap_def]
  exact List.infix_of_mem_flatten (List.mem_map_of_mem (f := Item.pieces) mem)

/-- A declaration with its symbols changed. -/
def Declaration.map (f : Symbol → Symbol) (d : Declaration) : Declaration := ⟨f d.head, d.body.map f⟩

/-- A rule with its symbols changed. -/
def Rule.map (f : Symbol → Symbol) (r : Rule) : Rule :=
  ⟨f r.head, r.symbols.map f, r.code?.map (·.map f)⟩

/-- An item with its symbols changed. -/
def Item.map (f : Symbol → Symbol) : Item → Item
  | .declaration d => .declaration (d.map f)
  | .rule r => .rule (r.map f)

/-- A tree with its symbols changed. -/
def Grammar.map (f : Symbol → Symbol) (g : Grammar) : Grammar := ⟨g.items.map (Item.map f)⟩

/-- A grammar without its gaps. -/
def Grammar.unspaced (g : Grammar) : Grammar := g.map Symbol.unspaced

/-! ## What the readers take for a tree -/

/-- Pieces are what tokens are read as, one for one. -/
abbrev Noted : List Piece → List SpacedToken → Prop := List.Forall₂ Piece.Notes

/-- Pieces one after the other note tokens one after the other. -/
lemma noted_append {ps qs tokens} : Noted (ps ++ qs) tokens ↔
    ∃ front back, tokens = front ++ back ∧ Noted ps front ∧ Noted qs back := by
  constructor
  · intro h
    induction ps generalizing tokens with
    | nil => exact ⟨[], tokens, rfl, .nil, h⟩
    | cons p ps ih =>
      cases h with
      | cons first later =>
        obtain ⟨front, back, rfl, hp, hq⟩ := ih later
        exact ⟨_ :: front, back, rfl, .cons first hp, hq⟩
  · rintro ⟨front, back, rfl, hp, hq⟩
    exact List.rel_append hp hq

/-- A mark notes one token of its class. -/
lemma noted_mark {k ps tokens} : Noted (.mark k :: ps) tokens ↔
    ∃ t ts, tokens = t :: ts ∧ t.token.kind = k ∧ Noted ps ts := by
  constructor
  · intro h
    cases h with
    | cons first later =>
      cases first
      exact ⟨_, _, rfl, rfl, later⟩
  · rintro ⟨t, ts, rfl, rfl, later⟩
    exact .cons .mark later

/-- A symbol notes one token, which is classified as it. -/
lemma noted_symbol {s ps tokens} : Noted (.symbol s :: ps) tokens ↔
    ∃ t ts, tokens = t :: ts ∧ Symbol.classify t.token t.spaced = .ok s ∧ Noted ps ts := by
  constructor
  · intro h
    cases h with
    | cons first later =>
      cases first with
      | symbol c => exact ⟨_, _, rfl, c, later⟩
  · rintro ⟨t, ts, rfl, c, later⟩
    exact .cons (.symbol c) later

/-- No pieces note no tokens. -/
lemma noted_nil {tokens} : Noted [] tokens ↔ tokens = [] := List.forall₂_nil_left_iff

namespace Reader

section
variable {α β : Type} {tokens rest : List SpacedToken}

/-- Two readers succeed if the second one does where the first one has stopped. -/
lemma bind_eq_ok {r : Reader α} {f : α → Reader β} {b : β} :
    (r >>= f) tokens = .ok b rest ↔ ∃ a mid, r tokens = .ok a mid ∧ f a mid = .ok b rest := by
  simp only [Bind.bind, EStateM.bind]
  cases r tokens <;> simp

/-- A reader that takes nothing leaves all tokens. -/
lemma pure_eq_ok {a b : α} :
    (Pure.pure a : Reader α) tokens = .ok b rest ↔ a = b ∧ tokens = rest := by
  simp [Pure.pure, EStateM.pure]

end

/-- Tokens are read as symbols, one for one. -/
def Shown : List Symbol → List SpacedToken → Prop :=
  List.Forall₂ fun s t => Symbol.classify t.token t.spaced = .ok s

/-- A symbol is accepted exactly if the token it is made of is. -/
lemma fits_iff {accepts s t spaced} (h : Symbol.classify t spaced = .ok s) :
    s.Fits accepts ↔ accepts t.kind := by
  unfold Symbol.classify at h
  split at h
  · rename_i kind e
    cases h
    rw [Symbol.Kind.ofToken?_eq_some] at e
    simp [Symbol.Fits, e]
  · cases h

/-- One symbol is read from one token that is accepted. -/
lemma one_eq_ok {accepts expected tokens s rest} :
    one accepts expected tokens = .ok s rest ↔
      ∃ t, tokens = t :: rest ∧ s.Fits accepts ∧ Symbol.classify t.token t.spaced = .ok s := by
  cases tokens with
  | nil => simp [one, fail]
  | cons t ts =>
    cases h : accepts t.token.kind with
    | false =>
      simp only [one, h]
      constructor
      · intro e
        cases e
      · rintro ⟨_, e, fits, c⟩
        cases e
        rw [fits_iff c, h] at fits
        cases fits
    | true =>
      cases c : Symbol.classify t.token t.spaced with
      | ok a =>
        simp only [one, h, c]
        constructor
        · intro e
          cases e
          exact ⟨t, rfl, (fits_iff c).2 h, c⟩
        · rintro ⟨_, e, _, c'⟩
          cases e
          rw [c] at c'
          cases c'
          rfl
      | error e =>
        simp only [one, h, c]
        constructor
        · intro e'
          cases e'
        · rintro ⟨_, e', _, c'⟩
          cases e'
          rw [c] at c'
          cases c'

/-- Nothing is read in front of a token that is refused. -/
lemma many_of_refused {accepts rest} (h : Refused accepts rest) :
    many accepts rest = .ok [] rest := by
  cases rest with
  | nil => rfl
  | cons t ts =>
    rw [Refused] at h
    simp [many, h]

/-- A symbol that is accepted is read in front of others. -/
lemma many_of_ok {accepts t ts s ss rest} (fits : s.Fits accepts)
    (c : Symbol.classify t.token t.spaced = .ok s) (h : many accepts ts = .ok ss rest) :
    many accepts (t :: ts) = .ok (s :: ss) rest := by
  rw [fits_iff c] at fits
  simp [many, fits, c, h]

/-- Symbols are read from the first token on, or not at all. -/
lemma many_cons_ok {accepts t ts ss rest} (h : many accepts (t :: ts) = .ok ss rest) :
    (∃ s others, ss = s :: others ∧ s.Fits accepts ∧ Symbol.classify t.token t.spaced = .ok s
      ∧ many accepts ts = .ok others rest)
    ∨ (ss = [] ∧ rest = t :: ts ∧ accepts t.token.kind = false) := by
  simp only [many] at h
  split at h
  · rename_i accepted
    split at h
    · rename_i s c
      split at h
      · rename_i others left later
        cases h
        exact .inl ⟨s, others, rfl, (fits_iff c).2 accepted, c, later⟩
      · cases h
    · cases h
  · rename_i refused
    cases h
    exact .inr ⟨rfl, rfl, by simpa using refused⟩

/-- Symbols are read from the tokens they show, as long as these are accepted and no further. -/
lemma many_eq_ok {accepts tokens ss rest} :
    many accepts tokens = .ok ss rest ↔ ∃ taken, tokens = taken ++ rest
      ∧ (∀ s ∈ ss, s.Fits accepts) ∧ Shown ss taken ∧ Refused accepts rest := by
  constructor
  · intro h
    induction tokens generalizing ss with
    | nil =>
      cases h
      exact ⟨[], rfl, nofun, .nil, trivial⟩
    | cons t ts ih =>
      rcases many_cons_ok h with ⟨s, others, rfl, fits, c, later⟩ | ⟨rfl, rfl, refused⟩
      · obtain ⟨taken, rfl, all, shown, refused⟩ := ih later
        refine ⟨t :: taken, rfl, ?_, .cons c shown, refused⟩
        rintro a (_ | ⟨_, mem⟩)
        · exact fits
        · exact all a mem
      · exact ⟨[], rfl, nofun, .nil, refused⟩
  · rintro ⟨taken, rfl, all, shown, refused⟩
    induction shown with
    | nil => exact many_of_refused refused
    | cons c _ ih =>
      rw [List.forall_mem_cons] at all
      exact many_of_ok all.1 c (ih all.2)

/-- The same, but not from none. -/
lemma oneOrMore_eq_ok {accepts expected tokens ss rest} :
    oneOrMore accepts expected tokens = .ok ss rest ↔ ss ≠ [] ∧ ∃ taken, tokens = taken ++ rest
      ∧ (∀ s ∈ ss, s.Fits accepts) ∧ Shown ss taken ∧ Refused accepts rest := by
  simp only [oneOrMore_eq, bind_eq_ok, one_eq_ok, many_eq_ok, pure_eq_ok]
  constructor
  · rintro ⟨s, mid, ⟨t, rfl, fits, c⟩, others, _, ⟨taken, rfl, all, shown, refused⟩, rfl, rfl⟩
    exact ⟨nofun, t :: taken, rfl, List.forall_mem_cons.2 ⟨fits, all⟩, .cons c shown, refused⟩
  · rintro ⟨nonempty, taken, rfl, all, shown, refused⟩
    cases shown with
    | nil => exact absurd rfl nonempty
    | @cons s t others taken c shown =>
      rw [List.forall_mem_cons] at all
      exact ⟨s, taken ++ rest, ⟨t, rfl, all.1, c⟩, others, rest,
        ⟨taken, rfl, all.2, shown, refused⟩, rfl, rfl⟩

/-- A dot is read from a dot. -/
lemma dot_eq_ok {tokens u rest} :
    dot tokens = .ok u rest ↔ ∃ t, tokens = t :: rest ∧ t.token.kind = .dot := by
  rcases refused_or .dot tokens with missing | ⟨t, ts, rfl, e⟩
  · rw [dot_eq, branch_of_refused missing]
    constructor
    · intro h
      cases h
    · rintro ⟨t, rfl, e⟩
      simp [Refused, e] at missing
  · rw [dot_eq, branch_of_mark e]
    constructor
    · intro h
      cases h
      exact ⟨t, rfl, e⟩
    · rintro ⟨_, e, _⟩
      cases e
      rfl

/-- Code is read behind a colon, and none where there is no colon. -/
lemma attachedCode?_eq_ok {tokens code? rest} :
    attachedCode? tokens = .ok code? rest ↔
      (code? = none ∧ tokens = rest ∧ Refused (· == .colon) rest)
      ∨ ∃ code t taken, code? = some code ∧ tokens = t :: taken ++ rest ∧ t.token.kind = .colon
        ∧ code ≠ [] ∧ (∀ s ∈ code, s.Fits isCode) ∧ Shown code taken ∧ Refused isCode rest := by
  rcases refused_or .colon tokens with missing | ⟨t, ts, rfl, e⟩
  · rw [attachedCode?_eq, branch_of_refused missing, pure_eq_ok]
    constructor
    · rintro ⟨rfl, rfl⟩
      exact .inl ⟨rfl, rfl, missing⟩
    · rintro (⟨rfl, rfl, _⟩ | ⟨code, t, taken, rfl, rfl, e, _⟩)
      · exact ⟨rfl, rfl⟩
      · simp [Refused, e] at missing
  · rw [attachedCode?_eq, branch_of_mark e]
    simp only [bind_eq_ok, oneOrMore_eq_ok, pure_eq_ok]
    constructor
    · rintro ⟨_, _, skipped, code, _, ⟨nonempty, taken, rfl, all, shown, refused⟩, rfl, rfl⟩
      cases skipped
      exact .inr ⟨code, t, taken, rfl, rfl, e, nonempty, all, shown, refused⟩
    · rintro (⟨rfl, rfl, refused⟩ | ⟨code, _, taken, rfl, e', _, nonempty, all, shown, refused⟩)
      · simp [Refused, e] at refused
      · cases e'
        exact ⟨(), _, rfl, code, rest, ⟨nonempty, taken, rfl, all, shown, refused⟩, rfl, rfl⟩

/-- Symbols note the tokens that show them. -/
lemma noted_symbols {ss tokens} : Noted (ss.map .symbol) tokens ↔ Shown ss tokens := by
  rw [Noted, List.forall₂_map_left_iff]
  constructor
  · intro h
    refine h.imp ?_
    rintro s t ⟨c⟩
    exact c
  · exact List.Forall₂.imp fun s t c => .symbol c

/-- A dot at the end notes the last token. -/
lemma noted_dot {ps tokens} : Noted (ps ++ [.mark .dot]) tokens ↔
    ∃ front t, tokens = front ++ [t] ∧ Noted ps front ∧ t.token.kind = .dot := by
  simp only [noted_append, noted_mark, noted_nil]
  constructor
  · rintro ⟨front, _, rfl, shown, t, _, rfl, e, rfl⟩
    exact ⟨front, t, rfl, shown, e⟩
  · rintro ⟨front, t, rfl, shown, e⟩
    exact ⟨front, [t], rfl, shown, t, [], rfl, e, rfl⟩

/-- Symbols that fit a test are read from a token of an accepted class on. -/
lemma noted_first {accepts ss qs tokens} (nonempty : ss ≠ []) (all : ∀ s ∈ ss, s.Fits accepts)
    (noted : Noted (ss.map .symbol ++ qs) tokens) :
    ∃ t ts, tokens = t :: ts ∧ accepts t.token.kind := by
  cases ss with
  | nil => exact absurd rfl nonempty
  | cons s ss =>
    obtain ⟨t, ts, rfl, c, _⟩ := noted_symbol.1 noted
    exact ⟨t, ts, rfl, (fits_iff c).1 (all s List.mem_cons_self)⟩

/-- The body of a declaration is read from its symbols and a dot. -/
lemma body_eq_ok {accepts head tokens d rest} (ends : accepts .dot = false) :
    ((do
        let body ← oneOrMore accepts .body
        dot
        return (⟨head, body⟩ : Declaration)) : Reader Declaration) tokens = .ok d rest ↔
      d.head = head ∧ d.body ≠ [] ∧ (∀ s ∈ d.body, s.Fits accepts)
        ∧ ∃ taken, tokens = taken ++ rest ∧ Noted (d.body.map .symbol ++ [.mark .dot]) taken := by
  simp only [bind_eq_ok, oneOrMore_eq_ok, dot_eq_ok, pure_eq_ok, noted_dot, noted_symbols]
  constructor
  · rintro ⟨body, _, ⟨nonempty, taken, rfl, all, shown, _⟩, _, _, ⟨t, rfl, e⟩, rfl, rfl⟩
    exact ⟨rfl, nonempty, all, taken ++ [t], by simp, taken, t, rfl, shown, e⟩
  · rintro ⟨rfl, nonempty, all, _, rfl, taken, t, rfl, shown, e⟩
    have refused : Refused accepts (t :: rest) := by rw [Refused, e, ends]
    exact ⟨d.body, t :: rest, ⟨nonempty, taken, by simp, all, shown, refused⟩, (), rest,
      ⟨t, rfl, e⟩, rfl, rfl⟩

/-- A declaration is read from the tokens that its body and its dot note. -/
lemma declaration_eq_ok {head tokens d rest} :
    declaration head tokens = .ok d rest ↔ d.head = head ∧ d.body ≠ []
      ∧ ((∀ s ∈ d.body, s.Fits isGrammarSymbol) ∨ (∀ s ∈ d.body, s.Fits (· == .stringLiteral)))
      ∧ ∃ taken, tokens = taken ++ rest ∧ Noted (d.body.map .symbol ++ [.mark .dot]) taken := by
  rcases refused_or .stringLiteral tokens with missing | ⟨t, ts, rfl, e⟩
  · rw [declaration_eq, branch_of_refused missing, body_eq_ok rfl]
    constructor
    · rintro ⟨same, nonempty, all, noted⟩
      exact ⟨same, nonempty, .inl all, noted⟩
    · rintro ⟨same, nonempty, all | all, taken, rfl, noted⟩
      · exact ⟨same, nonempty, all, taken, rfl, noted⟩
      · obtain ⟨t, ts, rfl, accepted⟩ := noted_first nonempty all noted
        rw [List.cons_append, Refused, accepted] at missing
        cases missing
  · rw [declaration_eq, branch_of_mark e, body_eq_ok rfl]
    constructor
    · rintro ⟨same, nonempty, all, noted⟩
      exact ⟨same, nonempty, .inr all, noted⟩
    · rintro ⟨same, nonempty, all | all, taken, split, noted⟩
      · obtain ⟨t, ts, rfl, accepted⟩ := noted_first nonempty all noted
        cases split
        rw [e] at accepted
        cases accepted
      · exact ⟨same, nonempty, all, taken, split, noted⟩

/-- A rule is read from the tokens that its symbols, its code and its dot note. -/
lemma rule_eq_ok {head tokens r rest} :
    rule head tokens = .ok r rest ↔ r.head = head ∧ r.symbols ≠ []
      ∧ (∀ s ∈ r.symbols, s.Fits isGrammarSymbol)
      ∧ (∀ code ∈ r.code?, code ≠ [] ∧ ∀ s ∈ code, s.Fits isCode)
      ∧ ∃ taken, tokens = taken ++ rest
        ∧ Noted (r.symbols.map .symbol ++ codePieces r.code? ++ [.mark .dot]) taken := by
  simp only [rule_eq, bind_eq_ok, oneOrMore_eq_ok, attachedCode?_eq_ok, dot_eq_ok, pure_eq_ok,
    noted_dot]
  constructor
  · rintro ⟨symbols, _, ⟨nonempty, taken, rfl, all, shown, _⟩, code?, _, code, _, _,
      ⟨t, rfl, e⟩, rfl, rfl⟩
    refine ⟨rfl, nonempty, all, ?_⟩
    rcases code with ⟨rfl, rfl, _⟩ | ⟨code, t', taken', rfl, rfl, e', nonempty', all', shown', _⟩
    · refine ⟨?_, taken ++ [t], by simp, taken, t, rfl, ?_, e⟩
      · intro _ mem
        cases mem
      · rw [codePieces, List.append_nil, noted_symbols]
        exact shown
    · refine ⟨?_, taken ++ t' :: taken' ++ [t], by simp, taken ++ t' :: taken', t, rfl, ?_, e⟩
      · rintro _ ⟨⟩
        exact ⟨nonempty', all'⟩
      · exact List.rel_append (noted_symbols.2 shown)
          (noted_mark.2 ⟨t', taken', rfl, e', noted_symbols.2 shown'⟩)
  · rintro ⟨rfl, nonempty, all, codes, _, rfl, _, t, rfl, noted, e⟩
    obtain ⟨front, back, rfl, shown, code⟩ := noted_append.1 noted
    rw [noted_symbols] at shown
    cases h : r.code? with
    | none =>
      rw [h, codePieces, noted_nil] at code
      subst code
      refine ⟨r.symbols, t :: rest, ⟨nonempty, front, by simp, all, shown, ?_⟩, none, t :: rest,
        .inl ⟨rfl, rfl, ?_⟩, (), rest, ⟨t, rfl, e⟩, by rw [← h], rfl⟩
      · rw [Refused, e]; rfl
      · rw [Refused, e]; rfl
    | some code' =>
      rw [h, codePieces, noted_mark] at code
      obtain ⟨t', taken', rfl, e', code⟩ := code
      rw [noted_symbols] at code
      obtain ⟨nonempty', all'⟩ := codes code' h
      refine ⟨r.symbols, t' :: taken' ++ t :: rest, ⟨nonempty, front, by simp, all, shown, ?_⟩,
        some code', t :: rest, .inr ⟨code', t', taken', rfl, rfl, e', nonempty', all', code, ?_⟩,
        (), rest, ⟨t, rfl, e⟩, by rw [← h], rfl⟩
      · rw [List.cons_append, Refused, e']; rfl
      · rw [Refused, e]; rfl

/-- What follows the head of a declaration is no arrow. -/
lemma refused_arrow {d : Declaration} {tokens} (nonempty : d.body ≠ [])
    (all : (∀ s ∈ d.body, s.Fits isGrammarSymbol) ∨ (∀ s ∈ d.body, s.Fits (· == .stringLiteral)))
    (noted : Noted (d.body.map .symbol ++ [.mark .dot]) tokens) (rest : List SpacedToken) :
    Refused (· == .arrow) (tokens ++ rest) := by
  rcases all with all | all
  · obtain ⟨t, ts, rfl, accepted⟩ := noted_first nonempty all noted
    rw [List.cons_append, Refused, beq_eq_false_iff_ne]
    intro e
    rw [e] at accepted
    cases accepted
  · obtain ⟨t, ts, rfl, accepted⟩ := noted_first nonempty all noted
    rw [List.cons_append, Refused, eq_of_beq accepted]
    rfl

/-- An item is read exactly from the tokens that its pieces note, whatever comes after them. -/
theorem item_eq_ok {tokens i rest} :
    item tokens = .ok i rest ↔ i.WellFormed ∧ ∃ taken, tokens = taken ++ rest
      ∧ Noted i.pieces taken := by
  rw [item_eq]
  constructor
  · intro h
    obtain ⟨head, mid, first, later⟩ := bind_eq_ok.1 h
    obtain ⟨t, rfl, fits, c⟩ := one_eq_ok.1 first
    rcases refused_or .arrow mid with missing | ⟨a, mid, rfl, e⟩
    · rw [branch_of_refused missing] at later
      obtain ⟨d, _, read, done⟩ := bind_eq_ok.1 later
      obtain ⟨rfl, rfl⟩ := pure_eq_ok.1 done
      obtain ⟨rfl, nonempty, all, taken, rfl, noted⟩ := declaration_eq_ok.1 read
      refine ⟨Declaration.wellFormed_iff.2 ⟨fits, nonempty, all⟩, t :: taken, rfl, ?_⟩
      exact noted_symbol.2 ⟨t, taken, rfl, c, noted⟩
    · rw [branch_of_mark e] at later
      obtain ⟨_, _, skipped, later⟩ := bind_eq_ok.1 later
      cases skipped
      obtain ⟨r, _, read, done⟩ := bind_eq_ok.1 later
      obtain ⟨rfl, rfl⟩ := pure_eq_ok.1 done
      obtain ⟨rfl, nonempty, all, codes, taken, split, noted⟩ := rule_eq_ok.1 read
      refine ⟨Rule.wellFormed_iff.2 ⟨fits, nonempty, all, codes⟩, t :: a :: taken, ?_, ?_⟩
      · rw [List.cons_append, List.cons_append, ← split]
        rfl
      · exact noted_symbol.2 ⟨t, a :: taken, rfl, c, noted_mark.2 ⟨a, taken, rfl, e, noted⟩⟩
  · rintro ⟨wf, _, rfl, noted⟩
    cases i with
    | declaration d =>
      obtain ⟨fits, nonempty, all⟩ := Declaration.wellFormed_iff.1 wf
      obtain ⟨t, taken, rfl, c, noted⟩ := noted_symbol.1 noted
      refine bind_eq_ok.2 ⟨d.head, taken ++ rest, one_eq_ok.2 ⟨t, rfl, fits, c⟩, ?_⟩
      rw [branch_of_refused (refused_arrow nonempty all noted rest)]
      refine bind_eq_ok.2 ⟨d, rest, ?_, rfl⟩
      exact declaration_eq_ok.2 ⟨rfl, nonempty, all, taken, rfl, noted⟩
    | rule r =>
      obtain ⟨fits, nonempty, all, codes⟩ := Rule.wellFormed_iff.1 wf
      obtain ⟨t, _, rfl, c, noted⟩ := noted_symbol.1 noted
      obtain ⟨a, taken, rfl, e, noted⟩ := noted_mark.1 noted
      refine bind_eq_ok.2 ⟨r.head, a :: taken ++ rest, one_eq_ok.2 ⟨t, rfl, fits, c⟩, ?_⟩
      rw [List.cons_append, branch_of_mark e]
      refine bind_eq_ok.2 ⟨(), taken ++ rest, rfl, bind_eq_ok.2 ⟨r, rest, ?_, rfl⟩⟩
      exact rule_eq_ok.2 ⟨rfl, nonempty, all, codes, taken, rfl, noted⟩

/-- An item is not empty. -/
lemma pieces_ne_nil (i : Item) : i.pieces ≠ [] := by
  cases i <;> nofun

/-- All items are read exactly from the tokens that their pieces note. -/
theorem items_eq_ok {tokens is rest} :
    items tokens = .ok is rest ↔ rest = [] ∧ (∀ i ∈ is, i.WellFormed)
      ∧ Noted (is.flatMap Item.pieces) tokens := by
  constructor
  · -- forth by induction on the tokens left, back by induction on the items
    intro h
    induction n : tokens.length using Nat.strong_induction_on generalizing tokens is with
    | _ n ih =>
      cases tokens with
      | nil =>
        rw [items_nil] at h
        cases h
        exact ⟨rfl, nofun, .nil⟩
      | cons t ts =>
        cases e : item (t :: ts) with
        | error e' left =>
          rw [items_of_error e] at h
          cases h
        | ok i mid =>
          rw [items_of_ok e] at h
          cases e' : items mid with
          | error e'' left =>
            rw [e'] at h
            cases h
          | ok js left =>
            rw [e'] at h
            cases h
            obtain ⟨rfl, wf', later⟩ := ih mid.length (n ▸ item_length_lt e) e' rfl
            obtain ⟨wf, taken, split, first⟩ := item_eq_ok.1 e
            refine ⟨rfl, List.forall_mem_cons.2 ⟨wf, wf'⟩, ?_⟩
            rw [split, List.flatMap_cons]
            exact List.rel_append first later
  · rintro ⟨rfl, wf, noted⟩
    induction is generalizing tokens with
    | nil =>
      cases noted
      exact items_nil
    | cons i is ih =>
      rw [List.forall_mem_cons] at wf
      obtain ⟨taken, mid, rfl, first, later⟩ := noted_append.1 noted
      have read : item (taken ++ mid) = .ok i mid := item_eq_ok.2 ⟨wf.1, taken, rfl, first⟩
      cases taken with
      | nil => exact absurd (List.forall₂_nil_right_iff.1 first) (pieces_ne_nil i)
      | cons t ts =>
        rw [List.cons_append] at read ⊢
        rw [items_of_ok read, ih wf.2 later]

end Reader

/-! ## Gaps -/

/-- A token with no gap in front of it. -/
def SpacedToken.unspaced (t : SpacedToken) : SpacedToken := { t with spaced := false }

/-- Gaps do not matter to the classes. -/
lemma SpacedToken.kinds_unspaced {tokens} :
    kinds (tokens.map SpacedToken.unspaced) = kinds tokens := by
  rw [kinds, List.map_map]
  rfl

/-- A token is classified as the symbol with its text, its region and its gap, of the class made of it. -/
lemma Symbol.classify_eq_ok {t : Token} {spaced s} : Symbol.classify t spaced = .ok s ↔
    s.kind.token? = some t.kind ∧ s.text = t.text ∧ s.region = t.region ∧ s.spaced = spaced := by
  unfold Symbol.classify
  split
  · rename_i kind e
    constructor
    · intro h
      cases h
      exact ⟨Kind.ofToken?_eq_some.1 e, rfl, rfl, rfl⟩
    · rintro ⟨fits, text, region, gap⟩
      rw [← Kind.ofToken?_eq_some, e] at fits
      cases s
      cases fits
      simp_all
  · rename_i e
    constructor
    · nofun
    · rintro ⟨fits, _⟩
      rw [← Kind.ofToken?_eq_some, e] at fits
      cases fits

namespace Piece

/-- What notes a token shows it. -/
lemma Notes.shows {p t} (h : Notes p t) : Shows p t.token := by
  cases h with
  | symbol c =>
    obtain ⟨kind, text, region, _⟩ := Symbol.classify_eq_ok.1 c
    exact .symbol kind text region
  | mark => exact .mark

/-- What shows a token notes it, but for the gap. -/
lemma Shows.notes {p} {t : SpacedToken} (h : Shows p t.token) :
    Notes (p.map Symbol.unspaced) t.unspaced := by
  generalize e : t.token = token at h
  cases h with
  | symbol kind text region =>
    subst e
    exact .symbol (Symbol.classify_eq_ok.2 ⟨kind, text, region, rfl⟩)
  | mark =>
    subst e
    exact .mark (t := t.unspaced)

end Piece

section
variable {f : Symbol → Symbol}

/-- A symbol that is changed is one piece still. -/
lemma Piece.map_comp_symbol : Piece.map f ∘ Piece.symbol = Piece.symbol ∘ f := rfl

/-- A change of symbols changes the pieces of an item one by one. -/
lemma Item.pieces_map (i : Item) : (i.map f).pieces = i.pieces.map (Piece.map f) := by
  cases i with
  | declaration d =>
    simp [map, pieces, Declaration.map, Declaration.pieces, Piece.map, Piece.map_comp_symbol]
  | rule r =>
    cases h : r.code? <;>
      simp [map, pieces, Rule.map, Rule.pieces, codePieces, Piece.map, h, Piece.map_comp_symbol]

/-- A change of symbols changes the pieces of a tree one by one. -/
lemma Grammar.pieces_map (g : Grammar) : (g.map f).pieces = g.pieces.map (Piece.map f) := by
  rw [pieces, pieces, map, List.map_flatMap, List.flatMap_map]
  congr 1
  funext i
  exact i.pieces_map

/-- A change that keeps the classes keeps what accepts the symbols. -/
lemma forall_fits_map {accepts} {ss : List Symbol} (same : ∀ s, (f s).kind = s.kind)
    (h : ∀ s ∈ ss, s.Fits accepts) : ∀ s ∈ ss.map f, s.Fits accepts := by
  intro _ mem
  obtain ⟨s, mem', rfl⟩ := List.mem_map.1 mem
  rw [Symbol.Fits, same]
  exact h s mem'

/-- A change that keeps the classes keeps an item well-formed. -/
lemma Item.WellFormed.map {i : Item} (same : ∀ s, (f s).kind = s.kind) (h : i.WellFormed) :
    (i.map f).WellFormed := by
  cases i with
  | declaration d =>
    obtain ⟨head, nonempty, body⟩ := h
    refine ⟨?_, by simpa [Declaration.map] using nonempty, ?_⟩
    · rwa [Declaration.map, Symbol.Fits, same]
    · exact body.imp (forall_fits_map same) (forall_fits_map same)
  | rule r =>
    obtain ⟨head, nonempty, symbols, codes⟩ := h
    refine ⟨?_, by simpa [Rule.map] using nonempty, forall_fits_map same symbols, ?_⟩
    · rwa [Rule.map, Symbol.Fits, same]
    intro _ mem
    obtain ⟨code, mem', rfl⟩ := Option.map_eq_some_iff.1 mem
    obtain ⟨nonempty, all⟩ := codes code mem'
    exact ⟨by simpa using nonempty, forall_fits_map same all⟩

/-- A change that keeps the classes keeps a tree well-formed. -/
lemma Grammar.WellFormed.map {g : Grammar} (same : ∀ s, (f s).kind = s.kind) (h : g.WellFormed) :
    (g.map f).WellFormed := by
  intro _ mem
  obtain ⟨i, mem', rfl⟩ := List.mem_map.1 mem
  exact (h i mem').map same

end

namespace Grammar

/-- A tree is read from tokens as its items are. -/
lemma ofTokens_eq_ok {tokens g} : ofTokens tokens = .ok g ↔
    Reader.items (SpacedToken.ofTokens none tokens) = .ok g.items [] := by
  rw [ofTokens]
  cases e : Reader.items (SpacedToken.ofTokens none tokens) with
  | ok is rest =>
    obtain ⟨rfl, _⟩ := Reader.items_eq_ok.1 e
    rw [Reader.grammar_of_ok e]
    cases g
    simp
  | error e' rest =>
    rw [Reader.grammar_of_error e]
    simp

/-- Reading is the inverse of flattening. -/
theorem ofTokens_eq_ok_iff {tokens g} : ofTokens tokens = .ok g ↔
    g.WellFormed ∧ Noted g.pieces (SpacedToken.ofTokens none tokens) := by
  rw [ofTokens_eq_ok, Reader.items_eq_ok]
  exact ⟨fun h => h.2, fun h => ⟨rfl, h⟩⟩

/-- Accepted tokens are the words of the grammar. -/
lemma ofTokens_ok_iff {tokens} :
    (∃ g, ofTokens tokens = .ok g) ↔ tokens.map (·.kind) ∈ grammarWords := by
  rw [← SpacedToken.ofTokens_kinds none, ← Reader.items_ok_iff]
  constructor
  · rintro ⟨g, h⟩
    exact ⟨g.items, ofTokens_eq_ok.1 h⟩
  · rintro ⟨is, h⟩
    exact ⟨⟨is⟩, ofTokens_eq_ok.2 h⟩

/-- A tree that is read shows the tokens. -/
lemma shows_of_ofTokens {tokens g} (h : ofTokens tokens = .ok g) :
    List.Forall₂ Piece.Shows g.pieces tokens := by
  obtain ⟨_, noted⟩ := ofTokens_eq_ok_iff.1 h
  rw [← SpacedToken.ofTokens_token none tokens,
    List.forall₂_map_right_iff]
  exact noted.imp fun _ _ => Piece.Notes.shows

/-- A well-formed tree is read from the tokens it shows, gaps apart. -/
lemma items_of_shows {tokens : List SpacedToken} {g : Grammar} (wf : g.WellFormed)
    (h : List.Forall₂ Piece.Shows g.pieces (tokens.map (·.token))) :
    Reader.items (tokens.map SpacedToken.unspaced) = .ok g.unspaced.items [] := by
  refine Reader.items_eq_ok.2 ⟨rfl, wf.map fun _ => rfl, ?_⟩
  rw [← pieces, unspaced, pieces_map, Noted, List.forall₂_map_left_iff, List.forall₂_map_right_iff]
  rw [List.forall₂_map_right_iff] at h
  exact h.imp fun _ _ => Piece.Shows.notes

/-- The tokens of a well-formed tree are read as that tree, up to the gaps. -/
lemma ofTokens_of_shows {tokens : List Token} {g : Grammar} (wf : g.WellFormed)
    (h : List.Forall₂ Piece.Shows g.pieces tokens) :
    ∃ g', ofTokens tokens = .ok g' ∧ g'.unspaced = g.unspaced := by
  rw [← SpacedToken.ofTokens_token none tokens] at h
  -- the gaps are not those of `g`, so both trees are compared without gaps
  have flat := items_of_shows wf h
  have word : SpacedToken.kinds (SpacedToken.ofTokens none tokens) ∈ grammarWords := by
    rw [← SpacedToken.kinds_unspaced]
    exact Reader.items_ok_iff.1 ⟨_, flat⟩
  obtain ⟨is, read⟩ := Reader.items_ok_iff.2 word
  have read' : ofTokens tokens = .ok ⟨is⟩ := ofTokens_eq_ok.2 read
  obtain ⟨wf', _⟩ := ofTokens_eq_ok_iff.1 read'
  have shows' := shows_of_ofTokens read'
  rw [← SpacedToken.ofTokens_token none tokens] at shows'
  have flat' := items_of_shows wf' shows'
  rw [flat] at flat'
  refine ⟨⟨is⟩, read', ?_⟩
  injection flat' with same
  exact congrArg Grammar.mk same.symm

/-- Reading accepts exactly the words of the grammar. What it returns is the one well-formed tree whose
pieces the tokens are, with the gaps in front of its symbols noted; and the flat text of a well-formed
tree is read as that tree, whatever the marks look like and wherever they stand. -/
theorem ofTokens_faithful :
    (∀ tokens : List Token,
      (∃ g, ofTokens tokens = .ok g) ↔ tokens.map (·.kind) ∈ grammarWords)
    ∧ (∀ tokens g, ofTokens tokens = .ok g → List.Forall₂ Piece.Shows g.pieces tokens)
    ∧ (∀ tokens g, ofTokens tokens = .ok g ↔
        g.WellFormed ∧ List.Forall₂ Piece.Notes g.pieces (SpacedToken.ofTokens none tokens))
    ∧ ∀ (g : Grammar) tokens, g.WellFormed → List.Forall₂ Piece.Shows g.pieces tokens →
        ∃ g', ofTokens tokens = .ok g' ∧ g'.unspaced = g.unspaced :=
  ⟨fun _ => ofTokens_ok_iff, fun _ _ => shows_of_ofTokens, fun _ _ => ofTokens_eq_ok_iff,
    fun _ _ => ofTokens_of_shows⟩

/-- The rule `a -> b : c.` is read back from its tokens, wherever they stand. -/
theorem ofTokens_faithful_rule :
    let g : Grammar := ⟨[.rule ⟨⟨.atom, "a", default, false⟩, [⟨.atom, "b", default, true⟩],
      some [⟨.atom, "c", default, true⟩]⟩]⟩
    let tokens : List Token := [⟨.atom, "a", default⟩, ⟨.arrow, "->", default⟩,
      ⟨.atom, "b", default⟩, ⟨.colon, ":", default⟩, ⟨.atom, "c", default⟩, ⟨.dot, ".", default⟩]
    g.WellFormed ∧ List.Forall₂ Piece.Shows g.pieces tokens
      ∧ ∃ g', ofTokens tokens = .ok g' ∧ g'.unspaced = g.unspaced := by
  intro g tokens
  have atom {text spaced} : Symbol.Fits ⟨.atom, text, default, spaced⟩ (· ∈ [var, .atom, integer]) :=
    ⟨.atom, rfl, rfl⟩
  have wf : g.WellFormed := by
    refine List.forall_mem_singleton.2 ⟨atom, nofun, List.forall_mem_singleton.2 atom, ?_⟩
    rintro _ ⟨⟩
    exact ⟨nofun, List.forall_mem_singleton.2 ⟨.atom, rfl, rfl⟩⟩
  have shows : List.Forall₂ Piece.Shows g.pieces tokens :=
    .cons (.symbol rfl rfl rfl) <| .cons (.mark (t := ⟨.arrow, "->", default⟩)) <|
      .cons (.symbol rfl rfl rfl) <| .cons (.mark (t := ⟨.colon, ":", default⟩)) <|
      .cons (.symbol rfl rfl rfl) <| .cons (.mark (t := ⟨.dot, ".", default⟩)) .nil
  exact ⟨wf, shows, ofTokens_faithful.2.2.2 g tokens wf shows⟩

end Grammar

end YeccDefr
