import YeccDefr.Proofs.CommandLine.Effects

/-!
# What becomes of the source

A run without a named output writes beside its input, under another extension. Where there are no links, the two
paths lead to one place only if they end in the same name (`Workspace.last_of_trailOf`), which is the case where
the input has that extension already (`HasExtension`). Then it is its own destination and does not survive a run that
gets as far as writing. In all other cases it does, whatever becomes of the run, even where a write breaks off in the
middle (`Host.Confined`, `run_keeps_source`).
-/

namespace YeccDefr.CommandLine

namespace Workspace

variable {w : Workspace} {path : String}

/-! ## Last names -/

/-- A place and all that lies on the way to it are directories. -/
def Inside (w : Workspace) (here : Trail) : Prop := ∀ above, above <+: here → w.entry? above = some .directory

namespace Inside
variable {here : Trail}

/-- The workspace lies inside itself. -/
lemma root : w.Inside [] := by
  intro above starts
  rw [List.prefix_nil.1 starts]
  rfl

/-- A place inside is a directory. -/
lemma directory (h : w.Inside here) : w.entry? here = some .directory := h here (List.prefix_refl here)

/-- The place above lies inside. -/
lemma up (h : w.Inside here) : w.Inside here.dropLast :=
  fun above starts => h above (starts.trans (List.dropLast_prefix here))

/-- A directory below lies inside. -/
lemma down {name : String} (h : w.Inside here) (directory : w.entry? (here ++ [name]) = some .directory) :
    w.Inside (here ++ [name]) := by
  intro above starts
  rcases List.prefix_concat_iff.1 starts with rfl | earlier
  · exact directory
  · exact h above earlier

end Inside

/-- Names that do not lead to a directory lead to what the last of them names. -/
lemma last_of_follow {here trail : Trail} {names : List String} {n : String} (inside : w.Inside here)
    (leads : w.follow here (names ++ [n]) = .ok trail) (other : w.entry? trail ≠ some .directory) :
    n ∉ ["", ".", ".."] ∧ trail.getLast? = some n := by
  induction names generalizing here with
  | nil =>
    rw [List.nil_append, follow] at leads
    split at leads
    case isTrue stays =>
      cases leads
      exact absurd inside.directory other
    case isFalse goes =>
    split at leads
    case isTrue =>
      split at leads
      case isTrue =>
        cases leads
        exact absurd inside.up.directory other
      case isFalse => split at leads <;> cases leads
    case isFalse down =>
      rw [if_pos rfl] at leads
      cases leads
      refine ⟨?_, List.getLast?_concat⟩
      simp only [List.mem_cons, List.not_mem_nil, or_false, not_or]
      exact ⟨fun e => goes (.inl e), fun e => goes (.inr e), down⟩
  | cons name names ih =>
    have more : ¬ names ++ [n] = [] := by simp
    rw [List.cons_append, follow, if_neg more] at leads
    split at leads
    case isTrue stays => exact ih inside leads
    case isFalse =>
    split at leads
    case isTrue =>
      split at leads
      case isTrue => exact ih inside.up leads
      case isFalse => split at leads <;> cases leads
    case isFalse =>
      split at leads
      case h_1 directory => exact ih (inside.down directory) leads
      case h_2 => cases leads
      case h_3 => cases leads

/-- A path that does not lead to a directory leads to what its last name says. -/
lemma last_of_trailOf {names : List String} {trail : Trail} {n : String}
    (last : names.getLast? = some n) (leads : w.trailOf names = .ok trail)
    (other : w.entry? trail ≠ some .directory) : n ∉ ["", ".", ".."] ∧ trail.getLast? = some n := by
  obtain ⟨front, rfl⟩ := List.getLast?_eq_some_iff.1 last
  rw [trailOf.eq_def] at leads
  split at leads
  case h_1 => split at leads <;> cases leads
  case h_2 => exact last_of_follow .root leads other

/-- Nothing can be read at a path that ends in a slash, or in a name that is one or two dots. -/
theorem not_holdsText_of_last {n text : String} (last : (namesOn path).getLast? = some n)
    (dots : n ∈ ["", ".", ".."]) : ¬ w.HoldsText path text := by
  rintro ⟨trail, leads, there⟩
  exact (last_of_trailOf last leads (by rw [there]; nofun)).1 dots

/-- The names on a path are what its slashes cut it into. -/
lemma namesOn_eq (path : String) : namesOn path = (path.toList.splitOn '/').map String.ofList := by
  rw [namesOn]
  congr 1
  induction path.toList with
  | nil => rfl
  | cons c cs ih =>
    rw [List.foldr_cons, ih, List.splitOn, List.splitOn, List.splitOnP_cons_eq_if_modifyHead]
    simp

/-- The last name on a path is what follows its last slash. -/
lemma getLast?_namesOn {directory name : List Char} (slash : ∀ c ∈ directory.getLast?, c = '/')
    (plain : '/' ∉ name) :
    (namesOn (String.ofList (directory ++ name))).getLast? = some (String.ofList name) := by
  have single : name.splitOnP (· == '/') = [name] := by
    apply List.splitOnP_eq_singleton
    intro c mem
    rw [beq_eq_false_iff_ne]
    rintro rfl
    exact plain mem
  rw [namesOn_eq, String.toList_ofList, List.splitOn]
  rcases List.eq_nil_or_concat' directory with rfl | ⟨front, c, rfl⟩
  · rw [List.nil_append, single]
    rfl
  · obtain rfl : c = '/' := slash c (by simp)
    rw [List.append_assoc, List.singleton_append,
      List.splitOnP_append_cons (p := (· == '/')) _ _ (beq_self_eq_true '/'), single, List.map_append]
    exact List.getLast?_concat

end Workspace

/-! ## Extensions -/

/-- The last name on a path has the given extension, with something in front of the dot. -/
def HasExtension (path extension : String) : Prop :=
  ∃ front c, path.toList = front ++ c :: '.' :: extension.toList ∧ c ≠ '/'

/-- A path leads to the same place as the path with the extension in place of its own only if it has this
extension. -/
lemma hasExtension_of_same_place {w : Workspace} {path extension : String} {trail : Trail}
    (plain : '/' ∉ extension.toList) (leads : w.trailOf (Workspace.namesOn path) = .ok trail)
    (leads' : w.trailOf (Workspace.namesOn (withExtension path extension)) = .ok trail)
    (other : w.entry? trail ≠ some .directory) : HasExtension path extension := by
  obtain ⟨directory, name, rest, chars, result, slash, unbroken, shape⟩ := withExtension_replaces path extension
  have result : withExtension path extension = String.ofList (directory ++ (name ++ '.' :: extension.toList)) := by
    rw [result]
    apply String.toList_injective
    simp
  have path_eq : path = String.ofList (directory ++ (name ++ rest)) := by
    rw [← chars, String.ofList_toList]
  have unbroken' : '/' ∉ name ++ '.' :: extension.toList := by
    simp only [List.mem_append, List.mem_cons, not_or] at unbroken ⊢
    exact ⟨unbroken.1, by decide, plain⟩
  rw [result] at leads'
  rw [path_eq] at leads
  have last := (Workspace.last_of_trailOf (Workspace.getLast?_namesOn slash unbroken) leads other).2
  have last' := (Workspace.last_of_trailOf (Workspace.getLast?_namesOn slash unbroken') leads' other).2
  have same : name ++ rest = name ++ '.' :: extension.toList :=
    String.ofList_injective (Option.some.inj (last.symm.trans last'))
  obtain rfl := List.append_cancel_left same
  rcases shape with ⟨none, -⟩ | ⟨filled, -⟩
  · cases none
  · obtain ⟨front, c, rfl⟩ := (List.eq_nil_or_concat' name).resolve_left filled
    refine ⟨directory ++ front, c, by simp [chars], ?_⟩
    rintro rfl
    exact unbroken (by simp)

/-! ## Contents -/

namespace Workspace

variable {w w' : Workspace} {path : String}

/-- The bytes in the file that a path leads to. -/
def contentAt? (w : Workspace) (path : String) : Option ByteArray :=
  match w.trailOf (namesOn path) with
  | .ok trail =>
    match w.entry? trail with
    | some (.file content) => some content
    | _ => none
  | .error _ => none

/-- A path has the content of the file that it leads to. -/
lemma contentAt?_eq_some {content : ByteArray} : w.contentAt? path = some content ↔
    ∃ trail, w.trailOf (namesOn path) = .ok trail ∧ w.entry? trail = some (.file content) := by
  rw [contentAt?]
  cases w.trailOf (namesOn path) with
  | error cause => exact iff_of_false nofun fun ⟨_, leads, _⟩ => nomatch leads
  | ok trail =>
    simp only [Except.ok.injEq, exists_eq_left']
    cases w.entry? trail with
    | none => exact iff_of_false nofun nofun
    | some e =>
      cases e with
      | directory => exact iff_of_false nofun nofun
      | file => simp

/-- A file stays what it is if its place does not change and no directory goes away. -/
lemma contentAt?_kept {trail : Trail} {content : ByteArray} (leads : w.trailOf (namesOn path) = .ok trail)
    (file : w.entry? trail = some (.file content)) (same : w'.entry? trail = w.entry? trail)
    (directories : ∀ other, w.entry? other = some .directory → w'.entry? other = some .directory) :
    w'.contentAt? path = w.contentAt? path := by
  rw [contentAt?_eq_some.2 ⟨trail, leads, file⟩, contentAt?_eq_some]
  exact ⟨trail, trailOf_mono directories leads, same.trans file⟩

/-- All paths have the same content where all entries are the same. -/
lemma contentAt?_congr (same : ∀ trail, w'.entry? trail = w.entry? trail) :
    w'.contentAt? path = w.contentAt? path := by
  apply Option.ext
  intro content
  rw [contentAt?_eq_some, contentAt?_eq_some]
  constructor
  · rintro ⟨trail, leads, file⟩
    exact ⟨trail, trailOf_mono (fun other h => (same other).symm.trans h) leads, (same trail).symm.trans file⟩
  · rintro ⟨trail, leads, file⟩
    exact ⟨trail, trailOf_mono (fun other h => (same other).trans h) leads, (same trail).trans file⟩

end Workspace

/-! ## Runs in any surroundings -/

/-- Surroundings that do to a workspace no more than they are asked to. Reading changes nothing, and gives what is
there or fails. Writing a file can change what is at the place of this file, in any way and also where it fails,
and nothing else. -/
structure Host.Confined (host : Host (StateM Workspace)) : Prop where
  readFile (path : String) (w : Workspace) : ∃ x, (host.readFile path).run w = pure (x, w)
    ∧ ∀ text, x = .ok text → w.HoldsText path text
  readInput (w : Workspace) : ∃ x, host.readInput.run w = pure (x, w)
  writeFile (path text : String) (w : Workspace) : ∃ x w', (host.writeFile path text).run w = pure (x, w')
    ∧ ∀ trail, ¬ w.WritableAt path trail → w'.entry? trail = w.entry? trail
  writeOutput (text : String) (w : Workspace) : ∃ x w', (host.writeOutput text).run w = pure (x, w')
    ∧ ∀ trail, w'.entry? trail = w.entry? trail

/-- The system can refuse any call. -/
lemma Workspace.refusingHost_confined (refusal? : Call → Option Cause) : (refusingHost refusal?).Confined where
  readFile path w := by
    cases (w.readFile_whole path).unlessRefused (refusal? (.readFile path)) with
    | @done text _ runs holds =>
      obtain ⟨_, there, rfl⟩ := holds
      refine ⟨_, runs, ?_⟩
      rintro _ ⟨⟩
      exact there
    | failed runs never => exact ⟨_, runs, nofun⟩
  readInput w := by
    cases w.readInput_whole.unlessRefused (refusal? .readInput) with
    | done runs holds =>
      obtain ⟨_, _, rfl⟩ := holds
      exact ⟨_, runs⟩
    | failed runs never => exact ⟨_, runs⟩
  writeFile path text w := by
    cases (w.writeFile_whole path text).unlessRefused (refusal? (.writeFile path text)) with
    | done runs holds =>
      obtain ⟨_, _, _, _, place, writable, same⟩ := holds
      refine ⟨_, _, runs, fun trail other => same trail ?_⟩
      rintro rfl
      exact other writable
    | failed runs never => exact ⟨_, _, runs, fun _ _ => rfl⟩
  writeOutput text w := by
    cases (w.writeOutput_whole text).unlessRefused (refusal? (.writeOutput text)) with
    | done runs holds =>
      obtain ⟨_, rfl⟩ := holds
      exact ⟨_, _, runs, fun _ => rfl⟩
    | failed runs never => exact ⟨_, _, runs, fun _ => rfl⟩

/-- The run gets as far as writing: it succeeds, or it is the writing of a file that fails. -/
def Report.ComesToWriting (report : Report) : Prop :=
  report.status = 0 ∨ ∃ path cause, report.failure? = some (.writing path cause)

section

variable {host : Host (StateM Workspace)} (confined : host.Confined)
include confined

/-- Reading an input file changes nothing, and gives what is there. -/
lemma readSource_confined (w : Workspace) {r : Request} (file : r.readsInput = false) :
    ∃ x, (readSource host r).run w = pure (x, w) ∧ ∀ text, x = .ok text → w.HoldsText r.input text := by
  obtain ⟨x, runs, there⟩ := confined.readFile r.input w
  refine ⟨x.mapError (.reading r.input), ?_, ?_⟩
  · rw [readSource, if_neg (by simp [file]), StateT.run_bind, runs, pure_bind]
    rfl
  · cases x with
    | error cause =>
      intro text done
      cases done
    | ok text =>
      intro _ done
      cases done
      exact there text rfl

/-- A request that reads a file changes nothing, or it has read the file and comes to writing at its destination. -/
lemma carryOut_confined (w : Workspace) {r : Request} (file : r.readsInput = false) {path : String}
    (goes : r.destination = .file path) : ∃ report w', (carryOut host r).run w = pure (report, w')
      ∧ (w' = w ∨ report.ComesToWriting ∧ (∃ text, w.HoldsText r.input text)
        ∧ ∀ trail, ¬ w.WritableAt path trail → w'.entry? trail = w.entry? trail) := by
  obtain ⟨x, reads, there⟩ := readSource_confined confined w file
  rw [carryOut, StateT.run_bind, reads, pure_bind]
  cases x with
  | error failure => exact ⟨_, _, rfl, .inl rfl⟩
  | ok text =>
  dsimp only
  cases ((translate r.layout text).run .empty).value.1 with
  | error e => exact ⟨_, _, rfl, .inl rfl⟩
  | ok document =>
  obtain ⟨y, w', writes, same⟩ := confined.writeFile path (document ++ "\n") w
  dsimp only
  rw [goes, writeTo, StateT.run_bind, StateT.run_bind, writes, pure_bind]
  cases y with
  | error cause => exact ⟨_, w', rfl, .inr ⟨.inr ⟨_, _, rfl⟩, ⟨text, there text rfl⟩, same⟩⟩
  | ok => exact ⟨_, w', rfl, .inr ⟨.inl rfl, ⟨text, there text rfl⟩, same⟩⟩

/-- Showing a text changes no entry, whether it succeeds or not. -/
lemma shown_confined (w : Workspace) (text : String) (report : Report) :
    ∃ w', (host.writeOutput text >>= fun _ => pure report).run w = pure (report, w')
      ∧ ∀ trail, w'.entry? trail = w.entry? trail := by
  obtain ⟨x, w', writes, same⟩ := confined.writeOutput text w
  refine ⟨w', ?_, same⟩
  rw [StateT.run_bind, writes, pure_bind, StateT.run_pure]

end

/-- A request without a named output writes beside its input file. -/
lemma Request.destination_beside {r : Request} (unnamed : r.output? = none) (named : r.input ≠ "-") :
    r.readsInput = false ∧ r.destination = .file (withExtension r.input "ex") := by
  have file : r.readsInput = false := beq_eq_false_iff_ne.2 named
  refine ⟨file, ?_⟩
  rw [destination, unnamed]
  dsimp only
  rw [if_neg (by simp [file])]
  rfl

/-- An invocation asks for one request. -/
lemma Invocation.forall_asked {invocation : Invocation} {r : Request} {P : Request → Prop}
    (reads : invocation = .translate r) (holds : P r) : ∀ r', invocation = .translate r' → P r' := by
  intro r' asked
  cases reads.symm.trans asked
  exact holds

/-- However arguments are parsed and whatever becomes of what they ask for, a run without a named output leaves its input file as it is,
unless the input has the extension of written files itself and the run comes to writing. -/
theorem run_keeps_source {parse : List String → Invocation} {arguments : List String} {path : String}
    (named : path ≠ "-")
    (asks : ∀ r, parse arguments = .translate r → r.input = path ∧ r.output? = none)
    {host : Host (StateM Workspace)} (confined : host.Confined) (w : Workspace) :
    ∃ report w', (runBy parse host arguments).run w = pure (report, w')
      ∧ (w'.contentAt? path = w.contentAt? path ∨ HasExtension path "ex" ∧ report.ComesToWriting) := by
  rw [runBy]
  cases asked : parse arguments with
  | translate r =>
    obtain ⟨rfl, unnamed⟩ := asks r asked
    obtain ⟨file, goes⟩ := Request.destination_beside unnamed named
    obtain ⟨report, w', runs, changes⟩ := carryOut_confined confined w file goes
    refine ⟨{ report with notices := Notice.shown r.threshold report.notices }, w', ?_, ?_⟩
    · dsimp only
      rw [StateT.run_bind, runs, pure_bind, StateT.run_pure]
    · rcases changes with rfl | ⟨written, ⟨text, trail, leads, there⟩, same⟩
      · exact .inl rfl
      · by_cases place : w.WritableAt (withExtension r.input "ex") trail
        · exact .inr ⟨hasExtension_of_same_place (by decide) leads place.leads place.free, written⟩
        · left
          apply Workspace.contentAt?_kept leads there (same trail place)
          intro other directory
          rw [same other fun writable => writable.free directory, directory]
  | help =>
    obtain ⟨w', shows, same⟩ := shown_confined confined w helpText ⟨0, none, []⟩
    exact ⟨_, w', shows, .inl (Workspace.contentAt?_congr same)⟩
  | version =>
    obtain ⟨w', shows, same⟩ := shown_confined confined w versionText ⟨0, none, []⟩
    exact ⟨_, w', shows, .inl (Workspace.contentAt?_congr same)⟩
  | misuse => exact ⟨_, w, rfl, .inl rfl⟩

/-- A file of the right name beside the input is replaced, and the input is not. -/
theorem run_keeps_source_beside :
    let w : Workspace :=
      ⟨[(["a.yrl"], .file "a -> b : '$1'.".toUTF8), (["a.ex"], .file "c".toUTF8)], .empty, ""⟩
    ∃ report w', (run (Workspace.refusingHost fun _ => none) ["a.yrl"]).run w = pure (report, w')
      ∧ report.status = 0 ∧ w'.contentAt? "a.yrl" = some "a -> b : '$1'.".toUTF8 := by
  intro w
  have reads : Invocation.ofArguments ["a.yrl"] = .translate ⟨"a.yrl", none, {}, false⟩ := by decide +kernel
  obtain ⟨report, w', runs, kept⟩ := run_keeps_source (by decide)
    (Invocation.forall_asked reads ⟨rfl, rfl⟩) (Workspace.refusingHost_confined fun _ => none) w
  have succeeds : ((run (Workspace.refusingHost fun _ => none) ["a.yrl"]).run w).run.1.status = 0 := by
    decide +kernel
  have before : w.contentAt? "a.yrl" = some "a -> b : '$1'.".toUTF8 := by decide +kernel
  rw [run, runs] at succeeds
  refine ⟨report, w', runs, succeeds, (kept.resolve_right ?_).trans before⟩
  rintro ⟨⟨front, c, chars, -⟩, -⟩
  have := congrArg List.getLast? chars
  simp at this

/-- An input that has the extension already is its own destination. -/
theorem source_replaced :
    let w : Workspace := ⟨[(["a.ex"], .file "a -> b : '$1'.".toUTF8)], .empty, ""⟩
    let w' := ((run Workspace.host ["a.ex"]).run w).run.2
    (w'.contentAt? "a.ex" = some "defr a(\x7b:b, b\x7d), do: b\n".toUTF8)
      ∧ ¬ ∀ (arguments : List String) (path : String) (w : Workspace), path ≠ "-" →
        (∀ r, Invocation.ofArguments arguments = .translate r → r.input = path ∧ r.output? = none) →
          ((run Workspace.host arguments).run w).run.2.contentAt? path = w.contentAt? path := by
  intro w w'
  have replaced : w'.contentAt? "a.ex" = some "defr a(\x7b:b, b\x7d), do: b\n".toUTF8 := by decide +kernel
  refine ⟨replaced, fun kept => ?_⟩
  have reads : Invocation.ofArguments ["a.ex"] = .translate ⟨"a.ex", none, {}, false⟩ := by decide +kernel
  have same : w'.contentAt? "a.ex" = w.contentAt? "a.ex" :=
    kept ["a.ex"] "a.ex" w (by decide) (Invocation.forall_asked reads ⟨rfl, rfl⟩)
  revert same
  decide +kernel

end YeccDefr.CommandLine
