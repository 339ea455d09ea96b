import Mathlib.Data.List.DropRight
import YeccDefr.Proofs.CommandLine.Files

/-!
# What a run does to a workspace

Any call that a run makes can fail. It then fails as a whole: the system refuses it (`Workspace.refusingHost`), or
the workspace has nothing at the path that fits. A run that translates ends with status 0 exactly if its input
can be read, the translation succeeds and the destination can be written. It then wrote there and nowhere else.
In all other cases it leaves the workspace as it was (`run_writes_destination_only`).
-/

namespace YeccDefr.CommandLine

/-! ## Destinations -/

/-- The second path is the first one with the given extension in place of that of its last name. A dot in front
of the name does not start an extension. -/
def ReplacesExtension (path extension result : String) : Prop :=
  ∃ directory name rest : List Char,
    path.toList = directory ++ (name ++ rest)
      ∧ result = String.ofList (directory ++ name) ++ "." ++ extension
      ∧ (∀ c ∈ directory.getLast?, c = '/') ∧ '/' ∉ name ++ rest
      ∧ (rest = [] ∧ '.' ∉ name.tail ∨ name ≠ [] ∧ ∃ old, rest = '.' :: old ∧ '.' ∉ old)

/-- Where the output of a request has to go. -/
inductive Request.GoesTo (r : Request) : Destination → Prop
  | named {path : String} : r.output? = some path → r.GoesTo (.file path)
  | standardOutput : r.output? = none → r.input = "-" → r.GoesTo .standardOutput
  | beside {path : String} : r.output? = none → r.input ≠ "-" → ReplacesExtension r.input "ex" path →
      r.GoesTo (.file path)

/-- Letters cut behind the last `d` among them, if there is one. -/
lemma cut_behind (d : Char) (cs : List Char) :
    (∀ c ∈ (cs.rdropWhile (· ≠ d)).getLast?, c = d) ∧ d ∉ cs.rtakeWhile (· ≠ d) := by
  constructor
  · intro c last
    obtain ⟨some, rfl⟩ := List.mem_getLast?_eq_getLast last
    simpa using List.rdropWhile_last_not (· ≠ d) cs some
  · intro mem
    simpa using List.mem_rtakeWhile_imp mem

/-- A name is its stem, with the extension behind it if there is one. -/
lemma stem_append (name : List Char) : ∃ rest, name = stem name ++ rest
    ∧ (rest = [] ∧ '.' ∉ (stem name).tail ∨ stem name ≠ [] ∧ ∃ old, rest = '.' :: old ∧ '.' ∉ old) := by
  have parts := List.rdropWhile_append_rtakeWhile (p := (· ≠ '.')) (l := name)
  obtain ⟨dot, plain⟩ := cut_behind '.' name
  generalize name.rtakeWhile (· ≠ '.') = old at parts plain
  rw [List.rdropWhile] at parts dot
  rw [stem]
  generalize name.reverse.dropWhile (· ≠ '.') = cut at parts dot
  cases cut with
  | nil =>
    refine ⟨[], (List.append_nil _).symm, .inl ⟨rfl, fun mem => plain ?_⟩⟩
    rw [← parts] at mem
    exact List.mem_of_mem_tail mem
  | cons c before =>
    obtain rfl : c = '.' := dot c (by simp)
    cases before with
    | nil =>
      refine ⟨[], (List.append_nil _).symm, .inl ⟨rfl, ?_⟩⟩
      rw [← parts]
      exact plain
    | cons d before =>
      refine ⟨'.' :: old, ?_, .inr ⟨by simp, old, rfl, plain⟩⟩
      rw [← parts]
      simp

/-- The path beside an input replaces its extension. -/
lemma withExtension_replaces (path extension : String) :
    ReplacesExtension path extension (withExtension path extension) := by
  obtain ⟨slash, plain⟩ := cut_behind '/' path.toList
  obtain ⟨rest, name, shape⟩ := stem_append (path.toList.rtakeWhile (· ≠ '/'))
  refine ⟨_, _, rest, ?_, rfl, slash, name ▸ plain, shape⟩
  exact List.rdropWhile_append_rtakeWhile.symm.trans (congrArg _ name)

/-- The destination of a request is where its output has to go. -/
lemma Request.goesTo_destination (r : Request) : r.GoesTo r.destination := by
  rw [destination, readsInput]
  cases asked : r.output? with
  | some path => exact .named asked
  | none =>
    dsimp only
    split
    case isTrue dash => exact .standardOutput asked (beq_iff_eq.1 dash)
    case isFalse other =>
      exact .beside asked (fun dash => other (beq_iff_eq.2 dash)) (withExtension_replaces _ _)

/-! ## Calls -/

/-- What a run can ask of the system. -/
inductive Call where
  | readFile (path : String)
  | readInput
  | writeFile (path text : String)
  | writeOutput (text : String)

/-- The call that reads the input of a request. -/
def Request.readCall (r : Request) : Call := if r.readsInput then .readInput else .readFile r.input

/-- The call that writes a text to a destination. -/
def Destination.writeCall (text : String) : Destination → Call
  | standardOutput => .writeOutput text
  | file path => .writeFile path text

/-- A call that does nothing but fail if it is refused. -/
def unlessRefused {α : Type} (refused? : Option Cause) (call : StateM Workspace (Except Cause α)) :
    StateM Workspace (Except Cause α) :=
  match refused? with
  | some cause => return .error cause
  | none => call

/-- A call happens as a whole: it succeeds as described, or this cannot be and it fails and changes nothing. -/
inductive Whole {ε α : Type} (call : StateM Workspace (Except ε α)) (w : Workspace)
    (Q : α → Workspace → Prop) : Prop
  | done {a : α} {w' : Workspace} : call.run w = pure (.ok a, w') → Q a w' → Whole call w Q
  | failed {e : ε} : call.run w = pure (.error e, w) → (∀ a w', ¬ Q a w') → Whole call w Q

namespace Whole

variable {ε ε' α β : Type} {call : StateM Workspace (Except ε α)} {w : Workspace} {Q : α → Workspace → Prop}

/-- A call is whole in the sense of any description that says the same. -/
lemma congr {Q' : α → Workspace → Prop} (h : Whole call w Q) (same : ∀ a w', Q a w' ↔ Q' a w') :
    Whole call w Q' := by
  cases h with
  | done runs holds => exact .done runs ((same _ _).1 holds)
  | failed runs never => exact .failed runs fun a w' holds => never a w' ((same a w').2 holds)

/-- Work on the outcome of a call does not change what the call does. -/
lemma bind_pure (h : Whole call w Q) {Q' : β → Workspace → Prop} {g : α → β} {f : ε → ε'}
    {k : Except ε α → StateM Workspace (Except ε' β)} (ok : ∀ a, k (.ok a) = pure (.ok (g a)))
    (error : ∀ e, k (.error e) = pure (.error (f e))) (forth : ∀ a w', Q a w' → Q' (g a) w')
    (back : ∀ b w', Q' b w' → ∃ a, Q a w') : Whole (call >>= k) w Q' := by
  cases h with
  | @done a _ runs holds =>
    refine .done (a := g a) ?_ (forth a _ holds)
    rw [StateT.run_bind, runs, pure_bind, ok, StateT.run_pure]
  | @failed e runs never =>
    refine .failed (e := f e) ?_ fun b w' holds => ?_
    · rw [StateT.run_bind, runs, pure_bind, error, StateT.run_pure]
    · obtain ⟨a, holds⟩ := back b w' holds
      exact never a w' holds

/-- A call that may be refused happens as a whole. -/
lemma unlessRefused {call : StateM Workspace (Except Cause α)} (h : Whole call w Q) (refused? : Option Cause) :
    Whole (unlessRefused refused? call) w fun a w' => refused? = none ∧ Q a w' := by
  cases refused? with
  | some cause => exact .failed rfl nofun
  | none => exact h.congr fun _ _ => (and_iff_right rfl).symm

end Whole

namespace Workspace

/-- The workspace as the surroundings of a run in which the system refuses some calls. -/
def refusingHost (refusal? : Call → Option Cause) : Host (StateM Workspace) where
  readFile path := unlessRefused (refusal? (.readFile path)) (host.readFile path)
  readInput := unlessRefused (refusal? .readInput) host.readInput
  writeFile path text := unlessRefused (refusal? (.writeFile path text)) (host.writeFile path text)
  writeOutput text := unlessRefused (refusal? (.writeOutput text)) (host.writeOutput text)

/-- The input of a request is there as a text. -/
def Holds (w : Workspace) (r : Request) (text : String) : Prop :=
  if r.readsInput then w.input = text.toUTF8 else w.HoldsText r.input text

/-- A destination is one that can be written. -/
def HasPlace (w : Workspace) : Destination → Prop
  | .standardOutput => True
  | .file path => ∃ trail, w.WritableAt path trail

/-- The second workspace is the first one with a text written to a destination, and the same everywhere else. -/
def Receives (w w' : Workspace) (text : String) : Destination → Prop
  | .standardOutput => w' = { w with output := w.output ++ text }
  | .file path => w'.HoldsText path text ∧ w'.input = w.input ∧ w'.output = w.output
      ∧ ∃ trail, w.WritableAt path trail ∧ ∀ other ≠ trail, w'.entry? other = w.entry? other

variable {w w' : Workspace}

/-- An input holds one text. -/
lemma Holds.unique {r : Request} {text text' : String} (h : w.Holds r text) (h' : w.Holds r text') :
    text = text' := by
  rw [Holds] at h h'
  split at h
  case isTrue reads =>
    rw [if_pos reads] at h'
    exact String.toByteArray_inj.1 (h.symm.trans h')
  case isFalse reads =>
    rw [if_neg reads] at h'
    obtain ⟨trail, leads, there⟩ := h
    obtain ⟨trail', leads', there'⟩ := h'
    obtain rfl := Except.ok.inj (leads.symm.trans leads')
    exact String.toByteArray_inj.1 (Entry.file.inj (Option.some.inj (there.symm.trans there')))

/-- A destination receives what is put there. -/
lemma WritableAt.receives {path : String} {trail : Trail} (h : w.WritableAt path trail) (text : String) :
    w.Receives (w.put trail (.file text.toUTF8)) text (.file path) := by
  refine ⟨h.holdsText_put text, put_input .., put_output .., trail, h, fun other differs => ?_⟩
  rw [entry?_put w (below_of_free h.free), if_neg differs]

/-- A destination that receives something can be written. -/
lemma Receives.hasPlace {text : String} {d : Destination} (h : w.Receives w' text d) : w.HasPlace d := by
  cases d with
  | standardOutput => trivial
  | file path =>
    obtain ⟨_, _, _, trail, writable, _⟩ := h
    exact ⟨trail, writable⟩

/-- A destination that can be written receives any text. -/
lemma HasPlace.receives {d : Destination} (h : w.HasPlace d) (text : String) : ∃ w', w.Receives w' text d := by
  cases d with
  | standardOutput => exact ⟨_, rfl⟩
  | file path =>
    obtain ⟨trail, writable⟩ := h
    exact ⟨_, writable.receives text⟩

/-- A file is read as a whole, and nothing changes. -/
lemma readFile_whole (w : Workspace) (path : String) :
    Whole (host.readFile path) w fun text w' => w.HoldsText path text ∧ w' = w := by
  have runs : (host.readFile path).run w = pure (w.readFile path, w) := rfl
  cases read : w.readFile path with
  | ok text => exact .done (runs.trans (by rw [read])) ⟨readFile_eq_ok.1 read, rfl⟩
  | error cause =>
    refine .failed (runs.trans (by rw [read])) fun text _ holds => ?_
    cases read.symm.trans (readFile_eq_ok.2 holds.1)

/-- The standard input is read as a whole, and nothing changes. -/
lemma readInput_whole (w : Workspace) :
    Whole host.readInput w fun text w' => w.input = text.toUTF8 ∧ w' = w := by
  have runs : host.readInput.run w = pure (w.readInput, w) := rfl
  rw [readInput] at runs
  cases text? : String.fromUTF8? w.input with
  | some text => exact .done (runs.trans (by rw [text?])) ⟨fromUTF8?_eq_some.1 text?, rfl⟩
  | none =>
    refine .failed (runs.trans (by rw [text?])) fun text _ holds => ?_
    cases text?.symm.trans (fromUTF8?_eq_some.2 holds.1)

/-- A file is written as a whole. -/
lemma writeFile_whole (w : Workspace) (path text : String) :
    Whole (host.writeFile path text) w fun _ w' => w.Receives w' text (.file path) := by
  cases written : w.writeFile path text with
  | ok w' =>
    obtain ⟨trail, writable, rfl⟩ := writeFile_eq_ok.1 written
    refine .done (a := ()) ?_ (writable.receives text)
    simp only [host, StateT.run_bind, StateT.run_get, pure_bind, written]
    rfl
  | error cause =>
    refine .failed (e := cause) ?_ fun _ w' receives => ?_
    · simp only [host, StateT.run_bind, StateT.run_get, pure_bind, written]
      rfl
    · obtain ⟨trail, writable⟩ := receives.hasPlace
      cases written.symm.trans (writeFile_eq_ok.2 ⟨trail, writable, rfl⟩)

/-- The standard output is written as a whole. -/
lemma writeOutput_whole (w : Workspace) (text : String) :
    Whole (host.writeOutput text) w fun _ w' => w.Receives w' text .standardOutput :=
  .done rfl rfl

end Workspace

/-! ## Runs -/

section

variable (refusal? : Call → Option Cause)

/-- The input of a request is read as a whole. -/
lemma readSource_whole (w : Workspace) (r : Request) :
    Whole (readSource (Workspace.refusingHost refusal?) r) w fun text w' =>
      refusal? r.readCall = none ∧ w.Holds r text ∧ w' = w := by
  rw [readSource, Request.readCall]
  unfold Workspace.Holds
  split
  · exact (w.readInput_whole.unlessRefused _).bind_pure (fun _ => rfl) (fun _ => rfl) (fun _ _ => id)
      fun text _ holds => ⟨text, holds⟩
  · exact ((w.readFile_whole r.input).unlessRefused _).bind_pure (fun _ => rfl) (fun _ => rfl)
      (fun _ _ => id) fun text _ holds => ⟨text, holds⟩

/-- A destination is written as a whole. -/
lemma writeTo_whole (w : Workspace) (text : String) (d : Destination) :
    Whole (writeTo (Workspace.refusingHost refusal?) text d) w fun _ w' =>
      refusal? (d.writeCall text) = none ∧ w.Receives w' text d := by
  cases d with
  | standardOutput =>
    exact ((w.writeOutput_whole text).unlessRefused (refusal? (.writeOutput text))).bind_pure
      (fun _ => rfl) (fun _ => rfl) (fun _ _ => id) fun _ _ holds => ⟨(), holds⟩
  | file path =>
    exact ((w.writeFile_whole path text).unlessRefused (refusal? (.writeFile path text))).bind_pure
      (fun _ => rfl) (fun _ => rfl) (fun _ _ => id) fun _ _ holds => ⟨(), holds⟩

end

/-- The input of a request can be read as the given text. -/
def Workspace.Provides (w : Workspace) (refusal? : Call → Option Cause) (r : Request) (text : String) : Prop :=
  refusal? r.readCall = none ∧ w.Holds r text

/-- A text can be written to a destination. -/
def Workspace.Accepts (w : Workspace) (refusal? : Call → Option Cause) (text : String) (d : Destination) : Prop :=
  refusal? (d.writeCall text) = none ∧ w.HasPlace d

/-- A text is translated to the given document for a request, with no names known before. -/
def Request.Makes (r : Request) (text document : String) : Prop :=
  ((translate r.layout text).run .empty).value.1 = .ok document

/-- How a request is carried out from one workspace to the next. Success and failure are told by what was there
before the run, and their effects by what is there after it. -/
structure Frames (refusal? : Call → Option Cause) (r : Request) (w w' : Workspace) (status : Nat) : Prop where
  goesTo : r.GoesTo r.destination
  ends : status = 0 ∨ status = 1
  succeeds : status = 0 ↔ ∃ text document, w.Provides refusal? r text ∧ r.Makes text document
    ∧ w.Accepts refusal? (document ++ "\n") r.destination
  /-- A run that succeeds writes the document at its destination, and nothing else anywhere. -/
  writes : status = 0 → ∃ text document, w.Provides refusal? r text ∧ r.Makes text document
    ∧ w.Receives w' (document ++ "\n") r.destination
  /-- A run that fails writes nothing, whatever step of it failed. -/
  keeps : status = 1 → w' = w

namespace Frames

variable {refusal? : Call → Option Cause} {r : Request} {w w' : Workspace}

/-- A request that fails leaves the workspace as it is. -/
lemma of_failure (never : ∀ text document, w.Provides refusal? r text → r.Makes text document →
    ¬ w.Accepts refusal? (document ++ "\n") r.destination) : Frames refusal? r w w 1 where
  goesTo := r.goesTo_destination
  ends := .inr rfl
  succeeds := iff_of_false nofun fun ⟨text, document, provides, makes, accepts⟩ =>
    never text document provides makes accepts
  writes := nofun
  keeps _ := rfl

/-- A request that succeeds has its document at the destination. -/
lemma of_success {text document : String} (provides : w.Provides refusal? r text) (makes : r.Makes text document)
    (granted : refusal? (r.destination.writeCall (document ++ "\n")) = none)
    (receives : w.Receives w' (document ++ "\n") r.destination) : Frames refusal? r w w' 0 where
  goesTo := r.goesTo_destination
  ends := .inl rfl
  succeeds := iff_of_true rfl ⟨text, document, provides, makes, granted, receives.hasPlace⟩
  writes _ := ⟨text, document, provides, makes, receives⟩
  keeps := nofun

end Frames

/-- A request is carried out as a whole or not at all. -/
lemma carryOut_frames (refusal? : Call → Option Cause) (w : Workspace) (r : Request) :
    ∃ report w', (carryOut (Workspace.refusingHost refusal?) r).run w = pure (report, w')
      ∧ Frames refusal? r w w' report.status := by
  rw [carryOut]
  cases readSource_whole refusal? w r with
  | failed runs never =>
    refine ⟨_, _, by rw [StateT.run_bind, runs, pure_bind]; rfl, .of_failure fun text _ provides => ?_⟩
    exact absurd ⟨provides.1, provides.2, rfl⟩ (never text w)
  | @done text w runs holds =>
  obtain ⟨granted, there, rfl⟩ := holds
  have only {text'} (provides : w.Provides refusal? r text') : text' = text := provides.2.unique there
  rw [StateT.run_bind, runs, pure_bind]
  dsimp only
  cases made : ((translate r.layout text).run .empty).value.1 with
  | error e =>
    refine ⟨_, _, rfl, .of_failure fun text' _ provides makes => ?_⟩
    rw [only provides, Request.Makes, made] at makes
    cases makes
  | ok document =>
  dsimp only
  cases writeTo_whole refusal? w (document ++ "\n") r.destination with
  | failed runs never =>
    refine ⟨_, _, by rw [StateT.run_bind, runs, pure_bind]; rfl, .of_failure ?_⟩
    intro text' document' provides makes accepts
    rw [only provides, Request.Makes, made] at makes
    obtain rfl := Except.ok.inj makes
    obtain ⟨w', receives⟩ := accepts.2.receives (document ++ "\n")
    exact never [] w' ⟨accepts.1, receives⟩
  | done runs holds =>
    refine ⟨_, _, by rw [StateT.run_bind, runs, pure_bind]; rfl, ?_⟩
    exact .of_success ⟨granted, there⟩ made holds.1 holds.2

/-- However arguments are parsed, a run that is asked to translate ends with status 0 or 1. It ends with 0 exactly if the input can be read, is
translated and the document can be written, and then the document is at its destination, with a line break behind
it, and everything else is as it was. A run that ends with 1 changes nothing. -/
theorem run_writes_destination_only {parse : List String → Invocation} {arguments : List String} {r : Request}
    (asks : parse arguments = .translate r) (refusal? : Call → Option Cause) (w : Workspace) :
    ∃ report w', (runBy parse (Workspace.refusingHost refusal?) arguments).run w = pure (report, w')
      ∧ Frames refusal? r w w' report.status := by
  obtain ⟨report, w', runs, frames⟩ := carryOut_frames refusal? w r
  refine ⟨{ report with notices := Notice.shown r.threshold report.notices }, w', ?_, frames⟩
  rw [runBy, asks]
  dsimp only
  rw [StateT.run_bind, runs, pure_bind, StateT.run_pure]

/-- The document of a file lies beside it when nothing else is asked for. -/
theorem run_writes_beside_input :
    Invocation.ofArguments ["a.yrl"] = .translate ⟨"a.yrl", none, {}, false⟩
      ∧ ∃ report w', (run (Workspace.refusingHost fun _ => none) ["a.yrl"]).run
            ⟨[(["a.yrl"], .file "a -> b : '$1'.".toUTF8)], .empty, ""⟩ = pure (report, w')
          ∧ report.status = 0
          ∧ Frames (fun _ => none) ⟨"a.yrl", none, {}, false⟩
            ⟨[(["a.yrl"], .file "a -> b : '$1'.".toUTF8)], .empty, ""⟩ w' report.status := by
  have asks : Invocation.ofArguments ["a.yrl"] = .translate ⟨"a.yrl", none, {}, false⟩ := by decide +kernel
  obtain ⟨report, w', runs, frames⟩ := run_writes_destination_only asks (fun _ => none)
    ⟨[(["a.yrl"], .file "a -> b : '$1'.".toUTF8)], .empty, ""⟩
  have succeeds : ((run (Workspace.refusingHost fun _ => none) ["a.yrl"]).run
      ⟨[(["a.yrl"], .file "a -> b : '$1'.".toUTF8)], .empty, ""⟩).run.1.status = 0 := by decide +kernel
  rw [run, runs] at succeeds
  exact ⟨asks, report, w', runs, succeeds, frames⟩

end YeccDefr.CommandLine
