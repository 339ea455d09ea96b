import YeccDefr.Proofs.Output.Growth
import YeccDefr.Proofs.Translation.Separate

/-!
# Sessions

A session asks one table of names again and again: for the name of a symbol, for the line of a declaration,
for a definition, a document or a translation (`Step`). Every step settles (`Step.answer_settles`), so a
step that is answered twice is answered alike, and gives no name the second time. A step that fails leaves
the names as they were, so it can as well be left out (`session_stable`).

The names that a session starting from none leaves are the fixed names and the numbers of distinct
literals, and stay so (`names_of_session`).
-/

namespace YeccDefr

open Naming

/-- What names in use can be asked for. -/
inductive Step where
  | name (text : String)
  | declaration (d : Declaration)
  | definition (layout : Layout) (r : Rule)
  | document (layout : Layout) (g : Grammar)
  | translation (layout : Layout) (text : String)

/-- The answer to a step. -/
def Step.answer : Step → Naming (Except Error String)
  | name text => return .ok (← bindingName text)
  | declaration d => return .ok (← d.line)
  | definition layout r => return .ok (← r.definition layout)
  | document layout g => return .ok (← g.document layout)
  | translation layout text => translate layout text

/-- The names after the steps of a session. -/
def Names.after (names : Names) (steps : List Step) : Names :=
  steps.foldl (fun names s => (s.answer.run names).value.2) names

/-- A step of a session with its answer, and with the names before and after it. -/
structure Answered where
  step : Step
  before : Names
  answer : Except Error String
  after : Names

/-- The steps of a session with their answers. -/
def session (names : Names) : List Step → List Answered
  | [] => []
  | s :: steps =>
    let result := (s.answer.run names).value
    ⟨s, names, result.1, result.2⟩ :: session result.2 steps

/-! ## Steps -/

/-- A translation settles, also when it fails. -/
lemma translate_settles (layout : Layout) (text : String) : Settles (translate layout text) := by
  rw [translate]
  refine (Settles.lift _).bind fun result => ?_
  cases result with
  | error e => exact .pure _
  | ok g => exact (g.document_settles layout).bind fun _ => .pure _

/-- A step that is answered a second time is answered alike, and gives no name. -/
theorem Step.answer_settles (s : Step) : Settles s.answer := by
  cases s with
  | name text => exact (bindingName_settles text).bind fun _ => .pure _
  | declaration d => exact d.line_settles.bind fun _ => .pure _
  | definition layout r => exact (r.definition_settles layout).bind fun _ => .pure _
  | document layout g => exact (g.document_settles layout).bind fun _ => .pure _
  | translation layout text => exact translate_settles layout text

/-- A step that fails leaves the names as they were. -/
theorem Step.answer_error {s : Step} {names names' : Names} {e : Error}
    (h : (s.answer.run names).value = (.error e, names')) : names' = names := by
  cases s with
  | name | declaration | definition | document => cases h
  | translation layout text => exact (translate_eq_error.1 h).2

/-! ## Answers at different moments -/

/-- Names only grow in a session. -/
lemma Names.grows_after (names : Names) (steps : List Step) : names.Grows (names.after steps) := by
  induction steps generalizing names with
  | nil => exact .refl
  | cons s steps ih => exact (s.answer_settles.grows names).trans (ih _)

/-- A session answers its first step and goes on with the names after it. -/
lemma session_cons (names : Names) (s : Step) (steps : List Step) :
    session names (s :: steps) =
      ⟨s, names, (s.answer.run names).value.1, (s.answer.run names).value.2⟩
        :: session (s.answer.run names).value.2 steps := rfl

/-- Every answer is the one that the step has with the names before it, and these have grown. -/
lemma mem_session {names : Names} {steps : List Step} :
    ∀ e ∈ session names steps, names.Grows e.before
      ∧ (e.step.answer.run e.before).value = (e.answer, e.after) := by
  induction steps generalizing names with
  | nil => exact fun e mem => absurd mem List.not_mem_nil
  | cons s steps ih =>
    rw [session_cons, List.forall_mem_cons]
    refine ⟨⟨.refl, rfl⟩, fun e mem => ?_⟩
    obtain ⟨grown, answered⟩ := ih e mem
    exact ⟨(s.answer_settles.grows names).trans grown, answered⟩

/-- Between two steps of a session the names only grow. -/
lemma session_pairwise (names : Names) (steps : List Step) :
    (session names steps).Pairwise fun e e' => e.after.Grows e'.before := by
  induction steps generalizing names with
  | nil => exact .nil
  | cons s steps ih =>
    rw [session_cons]
    exact .cons (fun e' mem => (mem_session e' mem).1) (ih _)

/-- A session gives the same answers again, and a step that fails does nothing. -/
structure StableSession (names : Names) (steps : List Step) : Prop where
  /-- Whatever stands between two equal steps, they have the same answer, and the second one gives no
  name. -/
  again : (session names steps).Pairwise fun e e' =>
    e'.step = e.step → e'.answer = e.answer ∧ e'.after = e'.before
  failure : ∀ e ∈ session names steps, ¬ e.answer.isOk → e.after = e.before
  /-- Without the steps that fail, the others are answered with the same names before and after them. -/
  withoutFailures :
    session names (((session names steps).filter (·.answer.isOk)).map (·.step)) =
      (session names steps).filter (·.answer.isOk)

/-- A step that is repeated has the same answer, and gives no name. -/
lemma session_again (names : Names) (steps : List Step) :
    (session names steps).Pairwise fun e e' =>
      e'.step = e.step → e'.answer = e.answer ∧ e'.after = e'.before := by
  refine List.Pairwise.imp_of_mem ?_ (session_pairwise names steps)
  intro e e' mem mem' grown same
  have first := (mem_session e mem).2
  have second := (mem_session e' mem').2
  have settled := e.step.answer_settles.again e.before e'.before
  rw [first] at settled
  rw [same, settled grown] at second
  obtain ⟨answer, after⟩ := Prod.mk.inj second
  exact ⟨answer.symm, after.symm⟩

/-- A step that fails leaves the names as they were. -/
lemma session_failure {names : Names} {steps : List Step} :
    ∀ e ∈ session names steps, ¬ e.answer.isOk → e.after = e.before := by
  intro e mem failed
  have answered := (mem_session e mem).2
  cases result : e.answer with
  | ok out => exact absurd (by rw [result]; rfl) failed
  | error error =>
    rw [result] at answered
    exact Step.answer_error answered

/-- Without the steps that fail a session has the same answers otherwise. -/
lemma session_withoutFailures (names : Names) (steps : List Step) :
    session names (((session names steps).filter (·.answer.isOk)).map (·.step)) =
      (session names steps).filter (·.answer.isOk) := by
  induction steps generalizing names with
  | nil => rfl
  | cons s steps ih =>
    rw [session_cons]
    cases result : (s.answer.run names).value with
    | mk answer names' =>
      cases answer with
      | ok out =>
        simp only [Except.isOk, Except.toBool, List.filter_cons_of_pos, List.map_cons, session_cons,
          result]
        exact congrArg _ (ih names')
      | error e =>
        -- the names are those that the later steps started from without this one
        cases Step.answer_error result
        simp only [Except.isOk, Except.toBool, Bool.false_eq_true, not_false_eq_true,
          List.filter_cons_of_neg]
        exact ih names

/-- Every session on one table of names is stable: a repeated step is answered as the first time, errors
included, and gives no name; a step that fails leaves the names as they were; and without the steps that
fail all others are answered the same. -/
theorem session_stable (names : Names) (steps : List Step) : StableSession names steps where
  again := session_again names steps
  failure := session_failure
  withoutFailures := session_withoutFailures names steps

/-! ## Names in use -/

namespace Names

/-- What is known of names at a moment of a session, and of all later moments. -/
structure Consistent (names : Names) : Prop where
  /-- The names are the fixed ones, and the numbered ones of distinct further literals in quotes. -/
  entries : ∃ qs : List String, qs.Nodup
    ∧ (∀ q ∈ qs, Quoted q ∧ q ∉ wellKnownNames.map Prod.fst)
    ∧ qs.length = names.generated
    ∧ ∀ q name, names.find? q = some name ↔
      (q, name) ∈ wellKnownNames ∨ ∃ k, qs[k]? = some q ∧ name = numbered (k + 1)
  /-- A literal has the same name at all later times, however its symbol is quoted. -/
  same : ∀ text text' between, requoted text' = requoted text →
    (names.after (.name text :: between)).nameFor text' = names.nameFor text
  /-- A literal with a fixed name has that name, which is no generated one. -/
  fixed : ∀ text name, (requoted text, name) ∈ wellKnownNames →
    ((bindingName text).run names).value = (name, names) ∧ ∀ k, name ≠ numbered k
  /-- Different literals in quotes have different names, also at different times. -/
  distinct : ∀ text text' between, Quoted (requoted text) → Quoted (requoted text') →
    requoted text' ≠ requoted text →
    (names.after (.name text :: between)).nameFor text' ≠ names.nameFor text
  /-- A literal in quotes that has a name is answered with it, and the names stay as they are. -/
  known : ∀ text name, Quoted (requoted text) → names.find? (requoted text) = some name →
    ((bindingName text).run names).value = (name, names)
  /-- One that has no name is answered with the next number, and has it then. -/
  fresh : ∀ text, Quoted (requoted text) → names.find? (requoted text) = none →
    names.nameFor text = numbered (names.generated + 1)
      ∧ (names.after [.name text]).find? (requoted text) = some (numbered (names.generated + 1))
  /-- Asking for a name adds at most the next number, for the literal that is asked for. -/
  next : ∀ text, names.after [.name text] = names
    ∨ names.find? (requoted text) = none
      ∧ (names.after [.name text]).generated = names.generated + 1
      ∧ ∀ q, (names.after [.name text]).find? q =
        if q = requoted text then some (numbered (names.generated + 1)) else names.find? q
  /-- No step changes a name or takes it away. -/
  kept : ∀ steps q name, names.find? q = some name → (names.after steps).find? q = some name

section
variable {names : Names}

/-- The names after a session are those after its first step and the rest. -/
lemma after_cons (s : Step) (steps : List Step) :
    names.after (s :: steps) = Names.after (s.answer.run names).value.2 steps := rfl

/-- A call for a name hands its names on. -/
lemma after_name (text : String) (steps : List Step) :
    names.after (.name text :: steps) =
      Names.after ((bindingName text).run names).value.2 steps := by
  rw [after_cons, Step.answer, run_bind_value, run_pure_value]

/-- A symbol that is asked for has its name from then on. -/
lemma nameOf?_after_name (text : String) (steps : List Step) :
    (names.after (.name text :: steps)).nameOf? text = some (names.nameFor text) := by
  rw [after_name]
  exact (grows_after _ steps).nameOf? (nameOf?_bindingName text names)

/-- A literal in quotes that has a name is answered with it. -/
lemma bindingName_of_find? {text name : String} (quoted : Quoted (requoted text))
    (h : names.find? (requoted text) = some name) :
    ((bindingName text).run names).value = (name, names) :=
  bindingName_of_some ((nameOf?_of_quoted quoted).trans h)

/-- Symbols with the same literal have the same name. -/
lemma nameOf?_congr {text text' : String} (h : requoted text' = requoted text) :
    names.nameOf? text' = names.nameOf? text := by
  rw [Names.nameOf?, Names.nameOf?, h]

/-- Among names in use, different literals in quotes have different names. -/
lemma WellFormed.nameOf?_ne (wf : names.WellFormed) {text text' name name' : String}
    (quoted : Quoted (requoted text)) (quoted' : Quoted (requoted text'))
    (h : names.nameOf? text = some name) (h' : names.nameOf? text' = some name')
    (differ : requoted text' ≠ requoted text) : name' ≠ name := by
  rw [nameOf?_of_quoted quoted] at h
  rw [nameOf?_of_quoted quoted'] at h'
  rintro rfl
  exact differ (wf.find?_injective h' h)

/-- Names that are well-formed are consistent, and stay so. -/
theorem WellFormed.consistent (wf : names.WellFormed) : names.Consistent where
  entries := by
    refine ⟨names.named, wf.distinct, fun q mem => ⟨wf.quoted q mem, ?_⟩, rfl, fun q name => ?_⟩
    · exact lookup_wellKnownNames_eq_none.1 (wf.notFixed q mem)
    · exact wf.find?_eq_some
  same := by
    intro text text' between e
    refine nameFor_of_nameOf? ?_
    rw [nameOf?_congr e, nameOf?_after_name]
  fixed := by
    intro text name known
    have quoted : ∀ entry ∈ wellKnownNames, Quoted entry.1 := by decide +kernel
    have isQuoted := quoted (requoted text, name) known
    have entry := wf.find?_eq_some.2 (.inl known)
    exact ⟨bindingName_of_find? isQuoted entry, fixed_ne_numbered known⟩
  distinct := by
    intro text text' between quoted quoted' differ
    have wf' := ((grows_after names (.name text :: between)).trans
      (grows_after _ [.name text'])).wellFormed wf
    have first : ((names.after (.name text :: between)).after [.name text']).nameOf? text =
        some (names.nameFor text) := (grows_after _ _).nameOf? (nameOf?_after_name text between)
    exact wf'.nameOf?_ne quoted quoted' first (nameOf?_after_name text' []) differ
  known := fun _ _ quoted => bindingName_of_find? quoted
  fresh := by
    intro text quoted unnamed
    obtain ⟨_, _, e⟩ := bindingName_of_none ((nameOf?_of_quoted quoted).trans unnamed)
    rw [nameFor, after_name, e]
    exact ⟨rfl, (find?_add unnamed _).trans (if_pos rfl)⟩
  next := by
    intro text
    rw [after_name]
    cases h : names.nameOf? text with
    | some name =>
      rw [bindingName_of_some h]
      exact .inl rfl
    | none =>
      obtain ⟨_, unnamed, e⟩ := bindingName_of_none h
      rw [e]
      exact .inr ⟨unnamed, generated_add _, find?_add unnamed⟩
  kept := fun steps _ _ found => (grows_after names steps).find? found

end

/-- All names in use are consistent: those that any session leaves that starts without generated names. -/
theorem names_of_session (steps : List Step) : (empty.after steps).Consistent :=
  ((grows_after empty steps).wellFormed .empty).consistent

end Names

end YeccDefr
