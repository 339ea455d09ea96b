import YeccDefr.Proofs.Grammar.Gaps
import YeccDefr.Proofs.Safety.Reading
import YeccDefr.Proofs.Safety.Writing
import YeccDefr.Proofs.Translation.Separate

/-!
# Translating within bounds

The guarded translation scans, reads and writes with every check. What it writes comes from a text, and that
gives the shapes that the writers need: an atom that starts with a quote was cut as a word between quotes
(`Grammar.closed_of_read`), and the code of a rule has at most one symbol for each token
(`Grammar.writable_of_read`). So no check fails on any text (`translate_within_bounds`).
-/

namespace YeccDefr

open Naming Guarded

/-- The grammar that a text forms, with every step of scanning and reading checked. -/
def readGrammar? (text : String) : Guarded (Except Error Grammar) := do
  let scan ← check (Scan.guarded? text)
  match scan.error? with
  | some e => return .error (.scan e)
  | none =>
    report (.scanned scan.tokens.length)
    match ← check (Grammar.ofTokens? scan.tokens) with
    | .error e => return .error e
    | .ok g =>
      report (.parsed g.items.length)
      return .ok g

/-- The document that a grammar file becomes, given the names in use, with every step checked. -/
def translate? (layout : Layout) (text : String) : Guarded (Except Error String) := do
  match ← readGrammar? text with
  | .error e => return .error e
  | .ok g => return .ok (← g.document? layout)

/-- A guarded reading does what the reading does. -/
lemma readGrammar?_does (text : String) :
    Does (readGrammar? text) (readGrammar text : Naming (Except Error Grammar)) := by
  refine Does.checked (Scan.guarded?_eq text) ?_
  rw [readGrammar]
  cases (Scan.ofText text).error? with
  | some e => rfl
  | none =>
    rw [Grammar.ofTokens?_eq]
    cases Grammar.ofTokens (Scan.ofText text).tokens <;> rfl

namespace Grammar

/-- A quoted atom of a text is a word between quotes. -/
lemma closed_of_read {text : String} {g : Grammar} (read : ofTokens (Scan.ofText text).tokens = .ok g)
    {s : Symbol} (mem : .symbol s ∈ g.pieces) : s.Closed := by
  intro quoted
  rw [Symbol.isQuotedAtom_iff] at quoted
  obtain ⟨k, kind, word⟩ := word_of_read read mem
  rw [quoted.1] at kind
  cases kind
  rcases word with ⟨c, u, chars, lower, _⟩ | ⟨u, chars, _⟩
  · rw [chars] at quoted
    cases quoted.2
    cases lower
  · exact ⟨u, chars⟩

/-- The quoted atoms in the code of a text are closed. -/
lemma closed_of_mem_code {text : String} {g : Grammar} (read : ofTokens (Scan.ofText text).tokens = .ok g)
    {r : Rule} (mem : r ∈ g.rules) : ∀ s ∈ r.code, s.Closed := fun _ inCode =>
  closed_of_read read ((code_infix_pieces (mem_rules.1 mem)).subset (List.mem_map_of_mem inCode))

/-- A rule that is read from a text can be written. -/
lemma writable_of_read {text : String} {g : Grammar}
    (read : ofTokens (Scan.ofText text).tokens = .ok g)
    (bound : (Scan.ofText text).tokens.length < 2 ^ 31) : ∀ r ∈ g.rules, r.Writable := by
  intro r mem
  have shows := shows_of_ofTokens read
  refine ⟨closed_of_mem_code read mem, ?_⟩
  have length := (code_infix_pieces (mem_rules.1 mem)).length_le
  rw [List.length_map, shows.length_eq] at length
  omega

end Grammar

/-- No check fails on a text of fewer than 2 ^ 31 tokens: the guarded translation always has a value, and does
what the translation does. A text that is no grammar fails with the error of its scan or with a token that
does not fit, never with a token that has no class. -/
theorem translate_within_bounds (layout : Layout) {text : String}
    (bound : (Scan.ofText text).tokens.length < 2 ^ 31) :
    (translate? layout text).run = some <$> translate layout text
      ∧ ∀ names e, ((translate layout text).run names).value.1 ≠ .error (.unclassified e) := by
  refine ⟨?_, fun names e => ?_⟩
  · change Does (translate? layout text) (translate layout text)
    refine (readGrammar?_does text).bind_lift ?_
    rw [readGrammar_value]
    cases (Scan.ofText text).error? with
    | some e => exact .pure _
    | none =>
      dsimp only
      cases read : Grammar.ofTokens (Scan.ofText text).tokens with
      | error e => exact .pure _
      | ok g =>
        exact (Grammar.document?_does layout (Grammar.writable_of_read read bound)).bind fun _ => .pure _
  · intro failed
    have same : ((translate layout text).run names).value =
        (.error (.unclassified e), ((translate layout text).run names).value.2) := Prod.ext failed rfl
    obtain ⟨read, _⟩ := translate_eq_error.1 same
    rw [readGrammar_value] at read
    cases scanned : (Scan.ofText text).error? with
    | some e =>
      rw [scanned] at read
      cases read
    | none =>
      rw [scanned] at read
      obtain ⟨_, _, _, _, _, _, unexpected⟩ := Grammar.ofTokens_eq_error read
      cases unexpected

/-- Characters of two bytes, brackets, a placeholder and an atom that keeps its quotes. -/
theorem translate_within_bounds_quoted :
    let text := "a -> 'é' : \x7b'$1', 'b c'\x7d, d."
    (Scan.ofText text).tokens.length < 2 ^ 31
      ∧ ((translate? {} text).run.run .empty).value =
          (some (.ok "defr a(\x7b:\"é\", variable_1\x7d) do\n\x7bvariable_1, :\"b c\"\x7d\nd\nend"),
            ⟨["\"é\""]⟩) := by
  intro text
  have bound : (Scan.ofText text).tokens.length < 2 ^ 31 := by decide +kernel
  refine ⟨bound, ?_⟩
  rw [(translate_within_bounds {} bound).1]
  decide +kernel

end YeccDefr
