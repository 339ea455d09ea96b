import Mathlib.Tactic.Lemma
import YeccDefr.CommandLine.Workspace

/-!
# Files of a workspace

A file is read where its path leads to one (`Workspace.readFile_eq_ok`), and written where its path leads to a
place without a directory (`Workspace.writeFile_eq_ok`). Writing changes the entry at this place and no other
(`Workspace.entry?_put`).
-/

namespace YeccDefr.CommandLine

/-- Bytes are a text if they are what the text is encoded as. -/
lemma fromUTF8?_eq_some {content : ByteArray} {text : String} :
    String.fromUTF8? content = some text ↔ content = text.toUTF8 := by
  rw [String.fromUTF8?]
  constructor
  · intro h
    split at h
    · cases h
      rfl
    · cases h
  · rintro rfl
    exact dif_pos text.isValidUTF8

namespace Workspace

/-! ## Entries -/

/-- The first entry is looked up first. -/
lemma lookup_cons_eq (p : Trail × Entry) (entries : List (Trail × Entry)) (trail : Trail) :
    (p :: entries).lookup trail = if trail = p.1 then some p.2 else entries.lookup trail := by
  obtain ⟨first, e⟩ := p
  rw [List.lookup_cons]
  by_cases here : trail = first
  · rw [if_pos here, beq_iff_eq.2 here]
  · rw [if_neg here, beq_eq_false_iff_ne.2 here]

/-- Where an entry is replaced the new one is found, and elsewhere what was there. -/
lemma lookup_replace (entries : List (Trail × Entry)) (trail : Trail) (e : Entry) (other : Trail) :
    (entries.map fun p => if p.1 = trail then (trail, e) else p).lookup other =
      if other = trail then (entries.lookup trail).map fun _ => e else entries.lookup other := by
  induction entries with
  | nil => simp
  | cons p entries ih =>
    rw [List.map_cons, lookup_cons_eq, lookup_cons_eq, lookup_cons_eq, ih]
    by_cases here : p.1 = trail
    · by_cases same : other = trail <;> simp [same, here]
    · by_cases same : other = trail
      · simp [same, here, Ne.symm here]
      · simp [same, here]

/-- The workspace itself is a directory, so a trail to anything else has a name on it. -/
lemma below_of_free {w : Workspace} {trail : Trail} (free : w.entry? trail ≠ some .directory) : trail ≠ [] := by
  rintro rfl
  exact free rfl

/-- An entry is found where it is put, and all other entries stay as they are. -/
theorem entry?_put (w : Workspace) {trail : Trail} (below : trail ≠ []) (e : Entry) (other : Trail) :
    Workspace.entry? (w.put trail e) other = if other = trail then some e else w.entry? other := by
  by_cases top : other = []
  · subst top
    rw [ entry?, if_pos rfl, entry?, if_pos rfl, if_neg (Ne.symm below)]
  rw [ entry?, if_neg top, entry?, if_neg top, put]
  split
  case isTrue there =>
    rw [lookup_replace]
    split
    · obtain ⟨old, found⟩ := Option.isSome_iff_exists.1 there
      rw [found, Option.map_some]
    · rfl
  case isFalse absent =>
    rw [Option.not_isSome_iff_eq_none] at absent
    rw [List.lookup_append]
    split
    case isTrue same => simp [same, absent]
    case isFalse differ => simp [lookup_cons_eq, differ]

/-- An entry that is put changes nothing of the input. -/
lemma put_input (w : Workspace) (trail : Trail) (e : Entry) : (w.put trail e).input = w.input := by
  rw [put]
  split <;> rfl

/-- An entry that is put changes nothing of the output. -/
lemma put_output (w : Workspace) (trail : Trail) (e : Entry) : (w.put trail e).output = w.output := by
  rw [put]
  split <;> rfl

/-! ## Paths -/

section

variable {w w' : Workspace}
  (directories : ∀ trail, w.entry? trail = some .directory → w'.entry? trail = some .directory)
include directories

/-- Only directories are passed on the way, so a path that leads somewhere still does as long as they stay. -/
lemma follow_mono {here trail : Trail} {names : List String} (leads : w.follow here names = .ok trail) :
    w'.follow here names = .ok trail := by
  induction names generalizing here with
  | nil => exact leads
  | cons name names ih =>
    rw [follow] at leads ⊢
    split at leads
    case isTrue stays => exact (if_pos stays).trans (ih leads)
    case isFalse goes =>
    rw [if_neg goes]
    split at leads
    case isTrue up =>
      rw [if_pos up]
      split at leads
      case isTrue inside => exact (if_pos inside).trans (ih leads)
      case isFalse => split at leads <;> cases leads
    case isFalse down =>
    rw [if_neg down]
    split at leads
    case isTrue last => exact (if_pos last).trans leads
    case isFalse more =>
      rw [if_neg more]
      split at leads
      case h_1 directory =>
        rw [directories _ directory]
        exact ih leads
      case h_2 => cases leads
      case h_3 => cases leads

/-- A path that leads somewhere still does as long as the directories stay. -/
lemma trailOf_mono {trail : Trail} {names : List String} (leads : w.trailOf names = .ok trail) :
    w'.trailOf names = .ok trail := by
  rw [trailOf.eq_def] at leads ⊢
  split at leads
  case h_1 => split at leads <;> cases leads
  case h_2 => exact follow_mono directories leads

end

/-- A file that is put at a place without a directory leaves all paths as they are. -/
lemma trailOf_put {w : Workspace} {place trail : Trail} {names : List String}
    (free : w.entry? place ≠ some .directory) (content : ByteArray) (leads : w.trailOf names = .ok trail) :
    (w.put place (.file content)).trailOf names = .ok trail := by
  refine trailOf_mono (fun other directory => ?_) leads
  rw [entry?_put w (below_of_free free), if_neg, directory]
  rintro rfl
  exact free directory

/-! ## Reading and writing -/

/-- A path leads to a file with the given text. -/
def HoldsText (w : Workspace) (path text : String) : Prop :=
  ∃ trail, w.trailOf (namesOn path) = .ok trail ∧ w.entry? trail = some (.file text.toUTF8)

/-- A path leads to a place where a file can be written: the path does not end in a slash, and there is no
directory at the place. -/
structure WritableAt (w : Workspace) (path : String) (trail : Trail) : Prop where
  named : (namesOn path).getLast? ≠ some ""
  leads : w.trailOf (namesOn path) = .ok trail
  free : w.entry? trail ≠ some .directory

/-- What is written at a place can be read there. -/
theorem WritableAt.holdsText_put {w : Workspace} {path : String} {trail : Trail} (h : w.WritableAt path trail)
    (text : String) : (w.put trail (.file text.toUTF8)).HoldsText path text :=
  ⟨trail, trailOf_put h.free _ h.leads, (w.entry?_put (below_of_free h.free) _ trail).trans (if_pos rfl)⟩

/-- A file is read as a text when it holds this text. -/
theorem readFile_eq_ok {w : Workspace} {path text : String} :
    w.readFile path = .ok text ↔ w.HoldsText path text := by
  rw [readFile, HoldsText]
  cases w.trailOf (namesOn path) with
  | error cause => exact iff_of_false nofun fun ⟨_, leads, _⟩ => nomatch leads
  | ok trail =>
    simp only [bind, Except.bind, Except.ok.injEq, exists_eq_left']
    cases w.entry? trail with
    | none => exact iff_of_false nofun nofun
    | some e =>
      cases e with
      | directory => exact iff_of_false nofun nofun
      | file content =>
        rw [Option.some.injEq, Entry.file.injEq, ← fromUTF8?_eq_some]
        dsimp only
        cases String.fromUTF8? content <;> simp

/-- Writing puts the text where the path leads. -/
theorem writeFile_eq_ok {w w' : Workspace} {path text : String} : w.writeFile path text = .ok w' ↔
    ∃ trail, w.WritableAt path trail ∧ w' = w.put trail (.file text.toUTF8) := by
  rw [writeFile]
  split
  case isTrue slash =>
    refine iff_of_false ?_ fun ⟨_, writable, _⟩ => writable.named slash
    cases w.trailOf (withoutSlashes (namesOn path)) <;> nofun
  case isFalse named =>
    cases leads : w.trailOf (namesOn path) with
    | error cause =>
      exact iff_of_false nofun fun ⟨_, writable, _⟩ => nomatch leads.symm.trans writable.leads
    | ok trail =>
      have unique {other : Trail} (writable : w.WritableAt path other) : trail = other :=
        Except.ok.inj (leads.symm.trans writable.leads)
      simp only [bind, Except.bind]
      split
      case h_1 directory =>
        refine iff_of_false nofun fun ⟨_, writable, _⟩ => writable.free ?_
        rw [← unique writable, directory]
      case h_2 free =>
        rw [Except.ok.injEq]
        constructor
        · rintro rfl
          exact ⟨trail, ⟨named, leads, free⟩, rfl⟩
        · rintro ⟨_, writable, rfl⟩
          rw [unique writable]

end Workspace

end YeccDefr.CommandLine
