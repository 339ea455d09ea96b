import YeccDefr.Proofs.Grammar.Flattening
import YeccDefr.Proofs.Lexing.Lines

/-!
# Grammars below each other

Nothing is carried from one item to the next but the gap in front of its head. The tokens of a grammar
can therefore be put in front of those of another text: what follows is read as by itself, only further
down. `Grammar.ofTokens_append_ok` says so where the lower text is a grammar, and
`Grammar.ofTokens_append_error` where it is none.
-/

namespace YeccDefr

/-! ## What moves down -/

/-- A symbol of a text after the text is put below another one. -/
def Symbol.below (upper : String) (s : Symbol) : Symbol := { s with region := s.region.below upper }

/-- A token with its gap, below a text. -/
def SpacedToken.below (upper : String) (t : SpacedToken) : SpacedToken :=
  { t with token := t.token.below upper }

/-- An unexpected token below a text. -/
def Unexpected.below (upper : String) (e : Unexpected) : Unexpected :=
  { e with found? := e.found?.map (·.below upper) }

/-- A token that cannot be classified, below a text. -/
def Unclassified.below (upper : String) (e : Unclassified) : Unclassified :=
  { e with region := e.region.below upper }

/-- The error of a text after the text is put below another one. -/
def Error.below (upper : String) : Error → Error
  | scan e => scan (e.below upper)
  | unexpected e => unexpected (e.below upper)
  | unclassified e => unclassified (e.below upper)

/-! ## The gap in front of an item -/

/-- An item with the gap in front of its head replaced. -/
def Item.withGap (spaced : Bool) : Item → Item
  | .declaration d => .declaration { d with head := { d.head with spaced := spaced } }
  | .rule r => .rule { r with head := { r.head with spaced := spaced } }

/-- Items with the gap in front of the first one replaced. -/
def withGap (spaced : Bool) : List Item → List Item
  | [] => []
  | i :: is => i.withGap spaced :: is

/-- The gap of an item is that of its head. -/
lemma Item.pieces_withGap (spaced : Bool) (i : Item) :
    ∃ head more, i.pieces = .symbol head :: more ∧
      (i.withGap spaced).pieces = .symbol { head with spaced := spaced } :: more := by
  cases i with
  | declaration d => exact ⟨_, _, rfl, rfl⟩
  | rule r => exact ⟨_, _, rfl, rfl⟩

/-- The gap of an item does not matter to its form. -/
lemma Item.WellFormed.withGap {i : Item} (spaced : Bool) (h : i.WellFormed) :
    (i.withGap spaced).WellFormed := by
  cases i with
  | declaration d => exact ⟨h.head, h.nonempty, h.body⟩
  | rule r => exact ⟨h.head, h.nonempty, h.symbols, h.code⟩

/-- Items with another gap in front are noted where the first token has that gap. -/
lemma noted_withGap {is : List Item} {t ts spaced spaced'}
    (h : Noted (is.flatMap Item.pieces) (⟨t, spaced⟩ :: ts)) :
    Noted ((withGap spaced' is).flatMap Item.pieces) (⟨t, spaced'⟩ :: ts) := by
  cases is with
  | nil => cases h
  | cons i is =>
    obtain ⟨head, more, e, e'⟩ := i.pieces_withGap spaced'
    rw [List.flatMap_cons, e, List.cons_append, noted_symbol] at h
    obtain ⟨_, _, split, classified, later⟩ := h
    cases split
    rw [withGap, List.flatMap_cons, e', List.cons_append, noted_symbol]
    obtain ⟨kind, text, region, _⟩ := Symbol.classify_eq_ok.1 classified
    exact ⟨_, _, rfl, Symbol.classify_eq_ok.2 ⟨kind, text, region, rfl⟩, later⟩

namespace SpacedToken

/-- The gaps of a second list are noted behind the last token of the first one. -/
lemma ofTokens_append (before? : Option Token) (a b : List Token) :
    ofTokens before? (a ++ b) = ofTokens before? a ++ ofTokens (a.getLast?.or before?) b := by
  induction a generalizing before? with
  | nil => rfl
  | cons t ts ih =>
    rw [List.cons_append, ofTokens, ih, ofTokens, List.cons_append, List.getLast?_cons]
    cases ts.getLast? <;> rfl

/-- Gaps are the same below a text. -/
lemma ofTokens_below (upper : String) (before? : Option Token) (tokens : List Token) :
    ofTokens (before?.map (·.below upper)) (tokens.map (·.below upper)) =
      (ofTokens before? tokens).map (·.below upper) := by
  induction tokens generalizing before? with
  | nil => rfl
  | cons t ts ih =>
    have later := ih (some t)
    rw [Option.map_some] at later
    rw [List.map_cons, ofTokens, later, ofTokens, List.map_cons]
    cases before? with
    | none => rfl
    | some before =>
      -- both ends move by the same number of bytes
      have same : (before.below upper).region.stop.index < (t.below upper).region.start.index ↔
          before.region.stop.index < t.region.start.index := by
        simp only [Token.below, Region.below, Point.below]
        omega
      simp only [Option.map_some, Option.any_some, same]
      rfl

end SpacedToken

/-- What notes a token does so below a text. -/
lemma Piece.Notes.below {p t} (upper : String) (h : Notes p t) :
    Notes (p.map (Symbol.below upper)) (t.below upper) := by
  cases h with
  | symbol classified =>
    obtain ⟨kind, text, region, gap⟩ := Symbol.classify_eq_ok.1 classified
    exact .symbol (Symbol.classify_eq_ok.2 ⟨kind, text, congrArg (Region.below upper) region, gap⟩)
  | mark => exact .mark (t := t.below upper)

namespace Grammar

/-- A tree notes its tokens below a text, but for the gap in front of them. -/
lemma noted_below {g : Grammar} {tokens} (upper : String) (before? : Option Token)
    (h : Noted g.pieces (SpacedToken.ofTokens none tokens)) :
    ∃ spaced, Noted ((withGap spaced (g.map (Symbol.below upper)).items).flatMap Item.pieces)
      (SpacedToken.ofTokens before? (tokens.map (·.below upper))) := by
  have moved : Noted (g.map (Symbol.below upper)).pieces
      (SpacedToken.ofTokens none (tokens.map (·.below upper))) := by
    have same := SpacedToken.ofTokens_below upper none tokens
    rw [Option.map_none] at same
    rw [same, pieces_map, Noted, List.forall₂_map_left_iff, List.forall₂_map_right_iff]
    exact h.imp fun _ _ => Piece.Notes.below upper
  rw [pieces] at moved
  -- without tokens there is no first item, and no gap to replace
  cases tokens with
  | nil =>
    refine ⟨false, ?_⟩
    cases e : (g.map (Symbol.below upper)).items with
    | nil => exact .nil
    | cons i is =>
      rw [e] at moved
      have nothing := (List.append_eq_nil_iff.1 (List.forall₂_nil_right_iff.1 moved)).1
      exact absurd nothing (Reader.pieces_ne_nil i)
  | cons t ts =>
    rw [List.map_cons, SpacedToken.ofTokens] at moved ⊢
    exact ⟨_, noted_withGap moved⟩

/-- The gap of the first item does not matter to the form of all. -/
lemma wellFormed_withGap {is : List Item} (spaced : Bool) (h : ∀ i ∈ is, i.WellFormed) :
    ∀ i ∈ withGap spaced is, i.WellFormed := by
  cases is with
  | nil => exact h
  | cons i is =>
    rw [List.forall_mem_cons] at h
    exact List.forall_mem_cons.2 ⟨h.1.withGap spaced, h.2⟩

/-- Below a grammar another one is read as by itself, further down and up to the gap in front of it. -/
theorem ofTokens_append_ok {a b : List Token} {g h : Grammar} (upper : String)
    (ha : ofTokens a = .ok g) (hb : ofTokens b = .ok h) :
    ∃ spaced, ofTokens (a ++ b.map (·.below upper)) =
      .ok ⟨g.items ++ withGap spaced (h.map (Symbol.below upper)).items⟩ := by
  obtain ⟨wf, noted⟩ := ofTokens_eq_ok_iff.1 ha
  obtain ⟨wf', noted'⟩ := ofTokens_eq_ok_iff.1 hb
  obtain ⟨spaced, below⟩ := noted_below upper (a.getLast?.or none) noted'
  refine ⟨spaced, ofTokens_eq_ok_iff.2 ⟨?_, ?_⟩⟩
  · rw [WellFormed, List.forall_mem_append]
    exact ⟨wf, wellFormed_withGap spaced (wf'.map fun _ => rfl)⟩
  · rw [pieces, List.flatMap_append, SpacedToken.ofTokens_append]
    exact List.rel_append noted below

/-- A list of tokens that is no grammar is stuck somewhere. -/
lemma ofTokens_eq_error {tokens e} (h : ofTokens tokens = .error e) :
    ∃ q taken rest, SpacedToken.ofTokens none tokens = taken ++ rest
      ∧ Stage.start.after? (SpacedToken.kinds taken) = some q ∧ q.Stuck rest
      ∧ e = .unexpected ⟨rest.head?.map (·.token), q.expected⟩ := by
  have bad : SpacedToken.kinds (SpacedToken.ofTokens none tokens) ∉ Token.Kind.grammarWords := by
    rw [SpacedToken.ofTokens_kinds, ← ofTokens_ok_iff, h]
    nofun
  obtain ⟨q, taken, rest, split, after, stuck, failed⟩ := Reader.items_error bad
  rw [ofTokens, Reader.grammar_of_error failed] at h
  cases h
  exact ⟨q, taken, rest, split, after, stuck, rfl⟩

/-- A stage that is stuck is so below a text. -/
lemma stuck_below {q : Stage} {rest : List SpacedToken} (upper : String) (before? : Option Token)
    (h : q.Stuck rest) :
    q.Stuck (SpacedToken.ofTokens before? ((rest.map (·.token)).map (·.below upper))) := by
  cases rest with
  | nil => exact h
  | cons t ts => exact h

/-- Below a grammar a text that is no grammar fails as by itself, further down. -/
theorem ofTokens_append_error {a b : List Token} {g : Grammar} {e} (upper : String)
    (ha : ofTokens a = .ok g) (hb : ofTokens b = .error e) :
    ofTokens (a ++ b.map (·.below upper)) = .error (e.below upper) := by
  obtain ⟨q, taken, rest, split, after, stuck, rfl⟩ := ofTokens_eq_error hb
  have tokens : a ++ b.map (·.below upper) =
      (a ++ (taken.map (·.token)).map (·.below upper)) ++
        (rest.map (·.token)).map (·.below upper) := by
    rw [← SpacedToken.ofTokens_token none b, split]
    simp
  -- the upper tokens lead back to the start of an item
  have complete : Stage.start.after? (a.map (·.kind)) = some .start :=
    Stage.after?_eq_start_iff.2 (ofTokens_ok_iff.1 ⟨g, ha⟩)
  have after' : Stage.start.after? (SpacedToken.kinds
      (SpacedToken.ofTokens none (a ++ (taken.map (·.token)).map (·.below upper)))) = some q := by
    rw [SpacedToken.ofTokens_kinds, List.map_append, Stage.after?_append, complete,
      Option.bind_some, List.map_map, List.map_map]
    exact after
  rw [ofTokens, tokens, SpacedToken.ofTokens_append,
    Reader.grammar_of_error (Reader.items_of_stuck after' (stuck_below upper _ stuck))]
  cases rest with
  | nil => rfl
  | cons t ts => rfl

end Grammar

end YeccDefr
