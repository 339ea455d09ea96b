import YeccDefr.Proofs.Output.Parameters
import YeccDefr.Proofs.Translation.Session

/-!
# Bindings in sessions

A rule whose code uses a symbol binds it, to the name that the symbol has at the end of the session and at
all times before. Two symbols of different literals are bound to different names, unless one of them is
bare and spelled like the name of the other: the name that a quoted symbol gets is chosen without regard
to bare symbols (`bindings_of_session`).
-/

namespace YeccDefr

open Naming

/-! ## Rules that are written -/

/-- The rules that a step writes. -/
def Step.rules : Step → List Rule
  | name _ | declaration _ => []
  | definition _ r => [r]
  | document _ g => g.rules
  | translation _ text =>
    match (readGrammar text).value with
    | .ok g => g.rules
    | .error _ => []

/-- The symbols that the rules of steps bind. -/
def boundSymbols (steps : List Step) : List Symbol :=
  steps.flatMap fun s => s.rules.flatMap (·.boundSymbols)

/-- A translation that succeeds holds every rule as it is under all later names. -/
lemma translate_ensures (layout : Layout) (text : String) :
    Ensures (translate layout text) fun result later =>
      ∀ r ∈ (Step.translation layout text).rules, ∃ out, result = .ok out ∧ r.WrittenIn later out := by
  rw [translate]
  refine (Ensures.lift _).bind fun result => ?_
  cases result with
  | error e =>
    refine .pure fun later read r mem => ?_
    rw [Step.rules, ← read] at mem
    exact absurd mem List.not_mem_nil
  | ok g =>
    refine (g.document_ensures layout).bind fun out => .pure fun later written read r mem => ?_
    rw [Step.rules, ← read] at mem
    exact ⟨out, rfl, written r mem⟩

/-- A step that has rules has an output, in which they are written. -/
lemma Step.answer_ensures (s : Step) : Ensures s.answer fun answer later =>
    ∀ r ∈ s.rules, ∃ out, answer = .ok out ∧ r.WrittenIn later out := by
  cases s with
  | name text =>
    exact (bindingName_settles text).ensures.bind fun _ => .pure fun _ _ r mem =>
      absurd mem List.not_mem_nil
  | declaration d =>
    exact d.line_settles.ensures.bind fun _ => .pure fun _ _ r mem => absurd mem List.not_mem_nil
  | definition layout r =>
    refine (r.definition_ensures layout).bind fun out => .pure fun later written r' mem => ?_
    cases List.mem_singleton.1 mem
    exact ⟨out, rfl, written⟩
  | document layout g =>
    exact (g.document_ensures layout).bind fun out => .pure fun later written r mem =>
      ⟨out, rfl, written r mem⟩
  | translation layout text => exact translate_ensures layout text

/-- The names after a step only grow in the rest of the session. -/
lemma grows_of_mem_session {names : Names} {steps : List Step} :
    ∀ e ∈ session names steps, e.after.Grows (names.after steps) := by
  induction steps generalizing names with
  | nil => exact fun e mem => absurd mem List.not_mem_nil
  | cons s steps ih =>
    rw [session_cons, List.forall_mem_cons]
    exact ⟨Names.grows_after _ steps, ih⟩

/-- A session answers its steps in order. -/
lemma map_step_session (names : Names) (steps : List Step) :
    (session names steps).map (·.step) = steps := by
  induction steps generalizing names with
  | nil => rfl
  | cons s steps ih => rw [session_cons, List.map_cons, ih]

/-- The rules of a step that succeeds are written as they are under the last names of the session. -/
lemma session_written {names : Names} {steps : List Step} {e : Answered}
    (mem : e ∈ session names steps) {r : Rule} (inStep : r ∈ e.step.rules) :
    ∃ out, e.answer = .ok out ∧ r.WrittenIn (names.after steps) out := by
  have answered := (mem_session e mem).2
  have grown := grows_of_mem_session e mem
  have written := e.step.answer_ensures.holds e.before (names.after steps)
  rw [answered] at written
  exact written grown r inStep

/-- A symbol that is bound in a session has its name at the end of it. -/
lemma nameOf?_boundSymbols {names : Names} {steps : List Step} {s : Symbol}
    (bound : s ∈ boundSymbols steps) :
    (names.after steps).nameOf? s.text = some ((names.after steps).nameFor s.text) := by
  obtain ⟨step, inSteps, inStep⟩ := List.mem_flatMap.1 bound
  obtain ⟨r, isRule, inRule⟩ := List.mem_flatMap.1 inStep
  -- the step was answered, and so its rule was written
  rw [← map_step_session names steps] at inSteps
  obtain ⟨e, mem, rfl⟩ := List.mem_map.1 inSteps
  obtain ⟨out, _, written⟩ := session_written mem isRule
  exact written.named s inRule

/-! ## Names of bound symbols -/

/-- A bare symbol is spelled like the name of a quoted one. -/
structure Names.Captures (names : Names) (bare quoted : String) : Prop where
  isBare : ¬ Quoted (requoted bare)
  isQuoted : Quoted (requoted quoted)
  spelled : (requoted quoted, requoted bare) ∈ wellKnownNames
    ∨ ∃ k, names.named[k]? = some (requoted quoted) ∧ requoted bare = Names.numbered (k + 1)

namespace Names

section
variable {names : Names} {text text' name name' : String}

/-- A bare symbol is its own name. -/
lemma nameOf?_of_bare (bare : ¬ Quoted (requoted text)) : names.nameOf? text = some (requoted text) := by
  rw [Names.nameOf?, if_neg bare]

/-- A bare symbol has the name of a quoted one exactly if it captures it. -/
lemma WellFormed.captures_iff (wf : names.WellFormed) (bare : ¬ Quoted (requoted text))
    (quoted : Quoted (requoted text')) (h : names.nameOf? text' = some name') :
    requoted text = name' ↔ names.Captures text text' := by
  rw [Names.nameOf?_of_quoted quoted] at h
  constructor
  · rintro rfl
    exact ⟨bare, quoted, wf.find?_eq_some.1 h⟩
  · intro captures
    have same := wf.find?_eq_some.2 captures.spelled
    rw [h] at same
    exact (Option.some.inj same).symm

/-- Symbols of different literals share a name where one is bare and spelled like the name of the other. -/
theorem WellFormed.same_name_iff (wf : names.WellFormed) (h : names.nameOf? text = some name)
    (h' : names.nameOf? text' = some name') (differ : requoted text ≠ requoted text') :
    name = name' ↔ names.Captures text text' ∨ names.Captures text' text := by
  -- names of two quoted symbols differ, and so do those of two bare ones: only a mixed pair can share one
  by_cases quoted : Quoted (requoted text)
  · have not_first : ¬ names.Captures text text' := fun captures => captures.isBare quoted
    rw [or_iff_right not_first]
    by_cases quoted' : Quoted (requoted text')
    · have not_second : ¬ names.Captures text' text := fun captures => captures.isBare quoted'
      exact iff_of_false (wf.nameOf?_ne quoted' quoted h' h differ) not_second
    · rw [nameOf?_of_bare quoted'] at h'
      cases h'
      rw [eq_comm]
      exact wf.captures_iff quoted' quoted h
  · rw [nameOf?_of_bare quoted] at h
    cases h
    have not_second : ¬ names.Captures text' text := fun captures => quoted captures.isQuoted
    rw [or_iff_left not_second]
    by_cases quoted' : Quoted (requoted text')
    · exact wf.captures_iff quoted quoted' h'
    · rw [nameOf?_of_bare quoted'] at h'
      cases h'
      have not_first : ¬ names.Captures text text' := fun captures => quoted' captures.isQuoted
      exact iff_of_false differ not_first

end

end Names

/-- How the rules of steps bind their symbols, where the steps leave the given names. -/
structure BoundBy (steps : List Step) (names : Names) : Prop where
  /-- Every rule is written, its parameters with these names. -/
  written : ∀ e ∈ session .empty steps, ∀ r ∈ e.step.rules,
    ∃ out, e.answer = .ok out ∧ r.WrittenIn names out
  /-- Symbols of different literals have different names, unless a bare one is spelled like the name of a
  quoted one. -/
  distinct : ∀ s ∈ boundSymbols steps, ∀ s' ∈ boundSymbols steps, literal s.text ≠ literal s'.text →
    (names.nameFor s.text = names.nameFor s'.text ↔
      names.Captures s.text s'.text ∨ names.Captures s'.text s.text)

/-- In every session that starts without generated names, the symbols that rules bind are written with
the names they have at the end, and two of different literals have the same name exactly if one is bare
and spelled like the name of the other. -/
theorem bindings_of_session (steps : List Step) : BoundBy steps (Names.empty.after steps) where
  written := fun e mem r inStep => session_written mem inStep
  distinct := by
    intro s bound s' bound' differ
    have wf := (Names.grows_after .empty steps).wellFormed .empty
    refine wf.same_name_iff (nameOf?_boundSymbols bound) (nameOf?_boundSymbols bound') ?_
    exact fun same => differ (congrArg (":" ++ ·) same)

/-- A bare symbol that is spelled like a generated name is bound together with the quoted symbol that gets
this name. -/
theorem bound_to_one_name :
    translation "s -> '+' variable_1 : \x7b'$1', '$2'\x7d." =
        .ok ("defr s(\x7b:\"+\", variable_1\x7d, \x7b:variable_1, variable_1\x7d), "
          ++ "do: \x7bvariable_1, variable_1\x7d")
      ∧ ¬ ∀ steps, ∀ s ∈ boundSymbols steps, ∀ s' ∈ boundSymbols steps, literal s.text ≠ literal s'.text →
        (Names.empty.after steps).nameFor s.text ≠ (Names.empty.after steps).nameFor s'.text := by
  refine ⟨by decide +kernel, fun distinct => ?_⟩
  have h := distinct [.translation {} "s -> '+' variable_1 : \x7b'$1', '$2'\x7d."]
  revert h
  decide +kernel

end YeccDefr
