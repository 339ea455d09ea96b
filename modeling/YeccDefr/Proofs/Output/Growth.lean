import Mathlib.Data.List.Nodup
import YeccDefr.Proofs.Output.Agreement
import YeccDefr.Proofs.Output.Scribes

/-!
# How names grow

Work on names only gives names to literals that have none, each the next number (`Names.Grows`), so what
has a name keeps it (`Names.Grows.find?`). Work settles (`Naming.Settles`) when, done again at any later
time, it has the same value and gives no name. Asking for a name settles (`bindingName_settles`), and so
does everything that is written by asking for names, up to whole documents (`Grammar.document_settles`).
-/

namespace YeccDefr

/-- A literal is in quotes, so that it needs a name. -/
def Quoted (literal : String) : Prop := literal.toList.head? = some '"'

instance {literal : String} : Decidable (Quoted literal) := inferInstanceAs (Decidable (_ = _))

namespace Names

/-! ## Names as a map -/

/-- The fixed names are found by their literals. -/
lemma lookup_wellKnownNames {quoted name : String} :
    wellKnownNames.lookup quoted = some name ↔ (quoted, name) ∈ wellKnownNames := by
  constructor
  · intro found
    obtain ⟨front, back, split, _⟩ := List.lookup_eq_some_iff.1 found
    rw [split]
    simp
  · -- no literal has two fixed names
    have first : ∀ entry ∈ wellKnownNames, wellKnownNames.lookup entry.1 = some entry.2 := by
      decide +kernel
    exact first (quoted, name)

/-- A literal without a fixed name is none of those in the list. -/
lemma lookup_wellKnownNames_eq_none {quoted : String} :
    wellKnownNames.lookup quoted = none ↔ quoted ∉ wellKnownNames.map Prod.fst := by
  rw [List.lookup_eq_none_iff]
  constructor
  · intro absent mem
    obtain ⟨entry, known, rfl⟩ := List.mem_map.1 mem
    simpa using absent entry known
  · intro absent entry known
    rw [bne_iff_ne]
    rintro rfl
    exact absent (List.mem_map_of_mem known)

/-- Different numbers make different names. -/
lemma numbered_injective {m n : Nat} (e : numbered m = numbered n) : m = n := by
  have texts : m.repr = n.repr := (String.append_right_inj _).1 e
  rw [Nat.repr_eq_ofList_toDigits, Nat.repr_eq_ofList_toDigits, String.ofList_inj] at texts
  rw [← Nat.ofDigitChars_ten_toDigits (n := m), texts, Nat.ofDigitChars_ten_toDigits]

/-- A literal is found in the first of two lists, or else in the second behind it. -/
lemma idxOf?_append {l l' : List String} {q : String} :
    (l ++ l').idxOf? q = (l.idxOf? q).or ((l'.idxOf? q).map (· + l.length)) := by
  simp [List.idxOf?, List.findIdx?_append]

/-- A quoted literal has its fixed name, or the name with the number at which it was first named. -/
lemma find?_eq_some {names : Names} {quoted name : String} : names.find? quoted = some name ↔
    (quoted, name) ∈ wellKnownNames
      ∨ wellKnownNames.lookup quoted = none
        ∧ ∃ k, names.named.idxOf? quoted = some k ∧ name = numbered (k + 1) := by
  rw [find?, ← lookup_wellKnownNames]
  cases wellKnownNames.lookup quoted with
  | some fixed => simp
  | none =>
    rw [Option.map_eq_some_iff]
    simp [eq_comm (a := name)]

/-- A literal has no name if it has neither a fixed nor a generated one. -/
lemma find?_eq_none {names : Names} {quoted : String} : names.find? quoted = none ↔
    wellKnownNames.lookup quoted = none ∧ quoted ∉ names.named := by
  rw [find?]
  cases wellKnownNames.lookup quoted with
  | some fixed => simp
  | none => simp [List.idxOf?_eq_none_iff]

/-! ## Growth -/

/-- The names after some work: quoted literals that had no name got the next ones. -/
inductive Grows (names : Names) : Names → Prop where
  | refl : Grows names names
  | add {names' quoted} :
    Grows names names' →
    Quoted quoted →
    names'.find? quoted = none →
    Grows names (names'.add quoted)

section
variable {names names₁ names₂ : Names}

/-- Names that grow twice have grown. -/
lemma Grows.trans (h : Grows names names₁) (h' : Grows names₁ names₂) : Grows names names₂ := by
  induction h' with
  | refl => exact h
  | add _ isQuoted unnamed ih => exact .add ih isQuoted unnamed

/-- Literals are only added at the end. -/
lemma Grows.named_prefix (h : Grows names names₁) : names.named <+: names₁.named := by
  induction h with
  | refl => exact List.prefix_rfl
  | add _ _ _ ih => exact ih.trans (List.prefix_append _ _)

/-- A literal keeps its name. -/
theorem Grows.find? (h : Grows names names₁) {quoted name : String}
    (found : names.find? quoted = some name) : names₁.find? quoted = some name := by
  rw [find?_eq_some] at found ⊢
  refine found.imp_right ?_
  rintro ⟨notFixed, k, index, e⟩
  obtain ⟨more, split⟩ := h.named_prefix
  exact ⟨notFixed, k, by rw [← split, idxOf?_append, index, Option.some_or], e⟩

/-- The next name goes to the literal that is added, and the others keep theirs. -/
theorem find?_add {quoted : String} (unnamed : names.find? quoted = none) (other : String) :
    (names.add quoted).find? other =
      if other = quoted then some (numbered (names.generated + 1)) else names.find? other := by
  obtain ⟨notFixed, absent⟩ := find?_eq_none.1 unnamed
  rw [← List.idxOf?_eq_none_iff] at absent
  by_cases same : other = quoted
  · subst same
    rw [if_pos rfl, find?, notFixed, add, idxOf?_append, absent]
    simp [generated, List.idxOf?_cons]
  · rw [if_neg same, find?, add, idxOf?_append]
    simp [List.idxOf?_cons, Ne.symm same, find?]

/-- A literal that is added makes one name more. -/
@[simp]
lemma generated_add (quoted : String) : (names.add quoted).generated = names.generated + 1 := by
  simp [add, generated]

/-- The literals with a generated name are distinct quoted ones without a fixed name. -/
structure WellFormed (names : Names) : Prop where
  distinct : names.named.Nodup
  quoted : ∀ q ∈ names.named, Quoted q
  notFixed : ∀ q ∈ names.named, wellKnownNames.lookup q = none

/-- No generated names are well-formed. -/
lemma WellFormed.empty : WellFormed empty := ⟨.nil, nofun, nofun⟩

/-- A quoted literal without a name can be added. -/
lemma WellFormed.add (wf : names.WellFormed) {quoted : String} (isQuoted : Quoted quoted)
    (unnamed : names.find? quoted = none) : (names.add quoted).WellFormed := by
  obtain ⟨notFixed, absent⟩ := find?_eq_none.1 unnamed
  refine ⟨?_, ?_, ?_⟩
  · exact List.nodup_append.2 ⟨wf.distinct, List.nodup_singleton _, by
      rintro a mem b last rfl
      exact absent (List.mem_singleton.1 last ▸ mem)⟩
  · exact List.forall_mem_append.2 ⟨wf.quoted, List.forall_mem_singleton.2 isQuoted⟩
  · exact List.forall_mem_append.2 ⟨wf.notFixed, List.forall_mem_singleton.2 notFixed⟩

/-- Growth keeps names well-formed. -/
lemma Grows.wellFormed (h : Grows names names₁) (wf : names.WellFormed) : names₁.WellFormed := by
  induction h with
  | refl => exact wf
  | add _ isQuoted unnamed ih => exact ih.add isQuoted unnamed

/-- The names of distinct literals are the fixed ones, and the numbers of the literals in order. -/
theorem WellFormed.find?_eq_some (wf : names.WellFormed) {quoted name : String} :
    names.find? quoted = some name ↔ (quoted, name) ∈ wellKnownNames
      ∨ ∃ k, names.named[k]? = some quoted ∧ name = numbered (k + 1) := by
  rw [Names.find?_eq_some]
  constructor
  · refine Or.imp_right ?_
    rintro ⟨_, k, index, e⟩
    obtain ⟨inside, here, _⟩ := List.idxOf?_eq_some_iff.1 index
    exact ⟨k, List.getElem?_eq_some_iff.2 ⟨inside, here⟩, e⟩
  · refine Or.imp_right ?_
    rintro ⟨k, here, e⟩
    refine ⟨wf.notFixed quoted (List.mem_of_getElem? here), k, ?_, e⟩
    obtain ⟨inside, here⟩ := List.getElem?_eq_some_iff.1 here
    refine List.idxOf?_eq_some_iff.2 ⟨inside, here, fun j lt same => ?_⟩
    have := (wf.distinct.getElem_inj_iff).1 (same.trans here.symm)
    omega

/-- A generated name starts with its first letter, which is a `v`. -/
lemma head?_numbered (k : Nat) : (numbered k).toList.head? = some 'v' := by
  have text : (numbered k).toList = "variable_".toList ++ (toString k).toList :=
    String.toList_append
  rw [text]
  rfl

/-- No fixed name is a generated one. -/
lemma fixed_ne_numbered {quoted name : String} (h : (quoted, name) ∈ wellKnownNames) (k : Nat) :
    name ≠ numbered k := by
  have initial : ∀ entry ∈ wellKnownNames, entry.2.toList.head? ≠ some 'v' := by decide +kernel
  rintro rfl
  exact initial _ h (head?_numbered k)

/-- No name is given twice. -/
theorem WellFormed.find?_injective (wf : names.WellFormed) {q q' name : String}
    (h : names.find? q = some name) (h' : names.find? q' = some name) : q = q' := by
  have fixed : ∀ entry ∈ wellKnownNames, ∀ entry' ∈ wellKnownNames,
      entry.2 = entry'.2 → entry.1 = entry'.1 := by decide +kernel
  rw [wf.find?_eq_some] at h h'
  rcases h with known | ⟨k, here, rfl⟩
  · rcases h' with known' | ⟨k', _, rfl⟩
    · exact fixed _ known _ known' rfl
    · exact absurd rfl (fixed_ne_numbered known _)
  · rcases h' with known' | ⟨k', here', e⟩
    · exact absurd rfl (fixed_ne_numbered known' _)
    · cases Nat.succ.inj (numbered_injective e)
      exact Option.some.inj (here.symm.trans here')

/-- The name of a symbol, if it has one: a bare symbol is its own name. -/
def nameOf? (names : Names) (text : String) : Option String :=
  if Quoted (requoted text) then names.find? (requoted text) else some (requoted text)

/-- A literal in quotes has the name of its entry. -/
lemma nameOf?_of_quoted {text : String} (quoted : Quoted (requoted text)) :
    names.nameOf? text = names.find? (requoted text) := if_pos quoted

/-- A symbol that has a name keeps it. -/
lemma Grows.nameOf? (h : Grows names names₁) {text name : String}
    (found : names.nameOf? text = some name) : names₁.nameOf? text = some name := by
  rw [Names.nameOf?] at found ⊢
  split at found
  · rw [if_pos ‹_›]
    exact h.find? found
  · rw [if_neg ‹_›]
    exact found

end

end Names

namespace Naming

/-- A name is looked up, and given where there is none. -/
lemma bindingName_value (text : String) (names : Names) :
    ((bindingName text).run names).value =
      match names.nameOf? text with
      | some name => (name, names)
      | none => (Names.numbered (names.generated + 1), names.add (requoted text)) := by
  by_cases isQuoted : Quoted (requoted text)
  · have head : (requoted text).toList.head? = some '"' := isQuoted
    rw [Names.nameOf?, if_pos isQuoted]
    simp only [bindingName, bareName, StateT.run, if_pos head]
    cases names.find? (requoted text) <;> rfl
  · have head : ¬ (requoted text).toList.head? = some '"' := isQuoted
    rw [Names.nameOf?, if_neg isQuoted]
    simp only [bindingName, bareName, StateT.run, if_neg head]
    rfl

/-- A symbol that has a name is answered with it, and the names stay as they are. -/
lemma bindingName_of_some {text name : String} {names : Names} (h : names.nameOf? text = some name) :
    ((bindingName text).run names).value = (name, names) := by
  rw [bindingName_value, h]

/-- A symbol without a name is quoted and gets the next name. -/
lemma bindingName_of_none {text : String} {names : Names} (h : names.nameOf? text = none) :
    Quoted (requoted text) ∧ names.find? (requoted text) = none
      ∧ ((bindingName text).run names).value =
        (Names.numbered (names.generated + 1), names.add (requoted text)) := by
  refine ⟨?_, ?_, by rw [bindingName_value, h]⟩
  · by_contra bare
    rw [Names.nameOf?, if_neg bare] at h
    cases h
  · rw [Names.nameOf?] at h
    split at h
    · exact h
    · cases h

/-- Work that only gives new names, and that has the same value and gives no name when it is done again at
any later time. -/
structure Settles {α : Type} (x : Naming α) : Prop where
  grows : ∀ names : Names, names.Grows (x.run names).value.2
  again : ∀ names later : Names, (x.run names).value.2.Grows later →
    (x.run later).value = ((x.run names).value.1, later)

section
variable {α β : Type} {x y : Naming α}

/-- A value alone settles. -/
lemma Settles.pure (a : α) : Settles (Pure.pure a : Naming α) := ⟨fun _ => .refl, fun _ _ _ => rfl⟩

/-- A notice settles. -/
lemma Settles.report (n : Notice) : Settles (report n) := ⟨fun _ => .refl, fun _ _ _ => rfl⟩

/-- Work without names settles. -/
lemma Settles.lift (x : Logged α) : Settles (x : Naming α) := ⟨fun _ => .refl, fun _ _ _ => rfl⟩

/-- Work in two steps settles if both steps do. -/
lemma Settles.bind {f : α → Naming β} (hx : Settles x) (hf : ∀ a, Settles (f a)) :
    Settles (x >>= f) where
  grows := fun names => (hx.grows names).trans ((hf _).grows _)
  again := by
    intro names later h
    rw [run_bind_value] at h
    have first := hx.again names later (((hf _).grows _).trans h)
    rw [run_bind_value, run_bind_value, first]
    exact (hf _).again _ _ h

/-- What agrees with work that settles does so too. -/
lemma Settles.of_agree (h : Agree x y) (hy : Settles y) : Settles x where
  grows := by
    intro names
    rw [h]
    exact hy.grows names
  again := by
    intro names later grown
    rw [h] at grown ⊢
    rw [h]
    exact hy.again names later grown

/-- The names after asking for a name have that name. -/
lemma nameOf?_bindingName (text : String) (names : Names) :
    ((bindingName text).run names).value.2.nameOf? text =
      some ((bindingName text).run names).value.1 := by
  cases h : names.nameOf? text with
  | some name => rw [bindingName_of_some h, h]
  | none =>
    obtain ⟨isQuoted, unnamed, e⟩ := bindingName_of_none h
    rw [e, Names.nameOf?, if_pos isQuoted, Names.find?_add unnamed, if_pos rfl]

/-- What is asked for a second time has its name. -/
theorem bindingName_settles (text : String) : Settles (bindingName text) where
  grows := by
    intro names
    cases h : names.nameOf? text with
    | some name =>
      rw [bindingName_of_some h]
      exact .refl
    | none =>
      obtain ⟨isQuoted, unnamed, e⟩ := bindingName_of_none h
      rw [e]
      exact .add .refl isQuoted unnamed
  again := fun names _ h => bindingName_of_some (h.nameOf? (nameOf?_bindingName text names))

end

end Naming

open Naming

/-- The name that the symbol with the given text gets when it is asked for. -/
def Names.nameFor (names : Names) (text : String) : String :=
  ((bindingName text).run names).value.1

/-- The name that a symbol has is the one that it is given. -/
lemma Names.nameFor_of_nameOf? {names : Names} {text name : String}
    (h : names.nameOf? text = some name) : names.nameFor text = name :=
  congrArg Prod.fst (bindingName_of_some h)

/-! ## What is written settles -/

/-- All steps of writing settle. -/
lemma Naming.scribe_settles :
    Scribe.Matches (fun _ x _ => Settles x) (fun _ => True) (fun _ => True) scribe scribe where
  pure := .pure
  bind h h' := h.bind h'
  report := .report
  bindingName text := by
    rw [scribe_bindingName]
    exact bindingName_settles text
  index _ := .pure _
  codeAtom _ := .pure _
  opened _ := .pure _

/-- The line of a declaration settles. -/
lemma Declaration.line_settles (d : Declaration) : Settles d.line := d.lineBy_matches scribe_settles

/-- The body of a rule settles, from any symbol on. -/
lemma Rule.bodyFrom_settles (r : Rule) (c : BodyCursor) (code : List Symbol) : Settles (r.bodyFrom c code) :=
  r.bodyFromBy_matches scribe_settles c (fun _ _ _ => trivial) fun _ _ => trivial

/-- The definition of a rule settles. -/
lemma Rule.definition_settles (layout : Layout) (r : Rule) : Settles (r.definition layout) :=
  definitionBy_matches scribe_settles layout r.within_true

namespace Grammar

/-- The entries of a grammar settle. -/
lemma entries_settles (layout : Layout) (g : Grammar) : Settles (g.entries layout) :=
  entriesFromBy_matches scribe_settles layout none false fun r _ => r.within_true

/-- The count of names in the notice of a document makes no difference to the document. -/
lemma document_agree (layout : Layout) (g : Grammar) :
    Agree (g.document layout) (do return "\n".intercalate (← g.entries layout)) := fun _ => rfl

/-- The document of a grammar settles. -/
lemma document_settles (layout : Layout) (g : Grammar) : Settles (g.document layout) :=
  .of_agree (g.document_agree layout) ((g.entries_settles layout).bind fun _ => .pure _)

end Grammar

end YeccDefr
