import YeccDefr.Proofs.Output.Warnings
import YeccDefr.Proofs.Translation.Separate

/-!
# Assembly of documents

The document of a grammar is written in one pass that remembers the head of the last rule and whether any
item has been written. Behind any first items that is what the items say themselves
(`Grammar.entriesFrom_behind`), so that each item has its entry, and an empty one in front of it if it opens a
new group of rules (`Grammar.opensGroup`). Empty entries come only in front of texts, and no item has the
empty text (`Item.text_ne_empty`). `Grammar.assembled` sums up what a document is made of.
-/

namespace YeccDefr

open Naming

/-! ## The texts of items -/

/-- A text that starts with a character is not empty. -/
lemma ne_empty_of_prefix {text : String} {c : Char} {cs : List Char} (starts : c :: cs <+: text.toList) :
    text ≠ "" := by
  intro empty
  rw [empty] at starts
  cases List.prefix_nil.1 starts

/-- Texts joined give the empty text only if there are none, provided that the first one is not empty. -/
lemma intercalate_eq_empty {separator : String} {texts : List String} (first : texts.head? ≠ some "") :
    separator.intercalate texts = "" ↔ texts = [] := by
  refine ⟨fun empty => ?_, fun none => by rw [none, String.intercalate_nil]⟩
  rcases texts with _ | ⟨text, _ | ⟨next, texts⟩⟩
  · rfl
  · rw [String.intercalate_singleton] at empty
    exact absurd (congrArg some empty) first
  · rw [String.intercalate_cons_cons, String.append_eq_empty_iff, String.append_eq_empty_iff] at empty
    exact absurd (congrArg some empty.1.1) first

/-- The line of a declaration is never empty. -/
lemma Declaration.line_ne_empty (d : Declaration) (names : Names) : (d.line.run names).value.1 ≠ "" := by
  obtain ⟨n, text, _, _, line⟩ | ⟨_, directive, enough, line⟩ := d.line_cases
  · rw [line]
    exact ne_empty_of_prefix (toList_prefix_append "#" text)
  · rw [line]
    have starts := (Directive.line_of_enough enough).2 names
    cases directive <;> exact ne_empty_of_prefix starts

/-- A definition is never empty in either layout. -/
lemma Rule.laidOut_ne_empty (layout : Layout) (signature body : String) :
    laidOut layout signature body ≠ "" := by
  have starts : "defr ".toList <+: ("defr " ++ signature).toList := toList_prefix_append _ _
  rw [laidOut]
  split
  · exact ne_empty_of_prefix (starts.trans (oneLine_starts signature body))
  · exact ne_empty_of_prefix (starts.trans (block_starts signature body))

/-- No item becomes the empty text. -/
lemma Item.text_ne_empty (layout : Layout) (i : Item) (names : Names) :
    ((i.text layout).run names).value.1 ≠ "" := by
  cases i with
  | declaration d => exact d.line_ne_empty names
  | rule r =>
    rw [Item.text, Rule.definition_value]
    exact Rule.laidOut_ne_empty _ _ _

namespace Grammar

/-! ## The entries of an item -/

/-- Whether the item at a position opens a new group: it is a rule, it is not the first item, and the nearest
rule before it has another head or does not exist. -/
def opensGroup (g : Grammar) (k : Nat) : Item → Bool
  | .declaration _ => false
  | .rule r => k ≠ 0 && lastHead? ⟨g.items.take k⟩ ≠ some r.head.text

/-- The text of an item at a position, written with the names that the items before it leave. -/
def textAt (g : Grammar) (layout : Layout) (names : Names) (k : Nat) (i : Item) : String :=
  ((i.text layout).run (texts layout names (g.items.take k)).2).value.1

/-- The entries of the item at a position: its text, with an empty entry in front where a group opens. -/
def entriesAt (g : Grammar) (layout : Layout) (names : Names) (k : Nat) (i : Item) : List String :=
  (if g.opensGroup k i then [""] else []) ++ [g.textAt layout names k i]

section
variable {layout : Layout} {names : Names}

/-- A declaration keeps the group of the rules before it open. -/
lemma lastHead?_concat_declaration (before : List Item) (d : Declaration) :
    lastHead? ⟨before ++ [.declaration d]⟩ = lastHead? ⟨before⟩ := by
  simp [lastHead?, rules]

/-- The group that is open behind a rule is that of its head. -/
lemma lastHead?_concat_rule (before : List Item) (r : Rule) :
    lastHead? ⟨before ++ [.rule r]⟩ = some r.head.text := by
  simp [lastHead?, rules]

/-- An item behind others adds its own names to theirs. -/
lemma texts_concat_names (before : List Item) (i : Item) : (texts layout names (before ++ [i])).2 =
    ((i.text layout).run (texts layout names before).2).value.2 := by
  rw [texts_append]
  dsimp only
  rw [texts_cons]
  rfl

/-- Behind any first items, the others have the entries that are due at their positions. -/
lemma entriesFrom_behind (before items : List Item) :
    ((entriesFrom layout (lastHead? ⟨before⟩) (!before.isEmpty) items).run
        (texts layout names before).2).value =
      ((items.zipIdx before.length).flatMap fun p =>
          entriesAt ⟨before ++ items⟩ layout names p.2 p.1,
        (texts layout names (before ++ items)).2) := by
  -- each item joins those before it, and becomes their last rule if it is a rule
  induction items generalizing before with
  | nil =>
    rw [List.append_nil]
    rfl
  | cons i items ih =>
    have later := ih (before ++ [i])
    have started : (!(before ++ [i]).isEmpty) = true := by simp
    rw [texts_concat_names, started, List.length_append, List.length_singleton, List.append_assoc,
      List.singleton_append] at later
    have first : (before ++ i :: items).take before.length = before := List.take_left
    rw [List.zipIdx_cons, List.flatMap_cons, entriesAt, textAt, List.append_assoc, List.singleton_append]
    dsimp only
    rw [first]
    cases i with
    | declaration d =>
      rw [lastHead?_concat_declaration] at later
      rw [entriesFrom_declaration_value]
      exact congrArg (fun p : List String × Names => (_ :: p.1, p.2)) later
    | rule r =>
      rw [lastHead?_concat_rule] at later
      have opens : opensGroup ⟨before ++ .rule r :: items⟩ before.length (.rule r) =
          (!before.isEmpty && lastHead? ⟨before⟩ ≠ some r.head.text) := by
        rw [opensGroup, first]
        cases before <;> rfl
      rw [entriesFrom_rule_value, opens]
      exact congrArg (fun p : List String × Names => (_ ++ _ :: p.1, p.2)) later

/-- Each item has its entries, in order. -/
lemma entries_value (g : Grammar) (layout : Layout) (names : Names) :
    ((g.entries layout).run names).value =
      (g.items.zipIdx.flatMap fun p => g.entriesAt layout names p.2 p.1,
        (texts layout names g.items).2) :=
  entriesFrom_behind [] g.items

end

/-! ## Empty entries -/

/-- Every empty entry is followed by one that is not empty. -/
def GapsFollowed (entries : List String) : Prop :=
  ∀ k, entries[k]? = some "" → ∃ text ≠ "", entries[k + 1]? = some text

namespace GapsFollowed
variable {text : String} {entries : List String}

/-- Without entries there is no gap. -/
lemma nil : GapsFollowed [] := nofun

/-- An entry that is not empty can come first. -/
lemma cons (nonempty : text ≠ "") (h : GapsFollowed entries) : GapsFollowed (text :: entries) := by
  intro k gap
  cases k with
  | zero => exact absurd (Option.some.inj gap) nonempty
  | succ k => exact h k gap

/-- A gap can come first where an entry that is not empty follows. -/
lemma gap (nonempty : text ≠ "") (h : GapsFollowed (text :: entries)) :
    GapsFollowed ("" :: text :: entries) := by
  intro k gap
  cases k with
  | zero => exact ⟨text, nonempty, rfl⟩
  | succ k => exact h k gap

/-- The last entry is no gap. -/
lemma getLast?_ne (h : GapsFollowed entries) : entries.getLast? ≠ some "" := by
  rw [List.getLast?_eq_getElem?]
  intro last
  obtain ⟨text, _, next⟩ := h _ last
  have inside := (List.getElem?_eq_some_iff.1 next).1
  omega

/-- No two gaps stand side by side. -/
lemma apart (h : GapsFollowed entries) (k : Nat) :
    ¬ (entries[k]? = some "" ∧ entries[k + 1]? = some "") := by
  rintro ⟨gap, gap'⟩
  obtain ⟨text, nonempty, next⟩ := h k gap
  exact nonempty (Option.some.inj (next.symm.trans gap'))

end GapsFollowed

/-- Among the entries of items every gap has an entry behind it. -/
lemma gapsFollowed_flatMap (g : Grammar) (layout : Layout) (names : Names) (items : List (Item × Nat)) :
    GapsFollowed (items.flatMap fun p => g.entriesAt layout names p.2 p.1) := by
  induction items with
  | nil => exact .nil
  | cons p items ih =>
    have nonempty : g.textAt layout names p.2 p.1 ≠ "" := p.1.text_ne_empty layout _
    have own := ih.cons nonempty
    rw [List.flatMap_cons, entriesAt, List.append_assoc, List.singleton_append]
    split
    · exact own.gap nonempty
    · exact own

/-- The first entry is the text of the first item. -/
lemma head?_entries (g : Grammar) (layout : Layout) (names : Names) :
    ((g.entries layout).run names).value.1.head? =
      g.items.head?.map fun i => ((i.text layout).run names).value.1 := by
  rw [entries_value]
  obtain ⟨items⟩ := g
  cases items with
  | nil => rfl
  | cons i items =>
    -- nothing is in front of the first item
    have first : opensGroup ⟨i :: items⟩ 0 i = false := by cases i <;> rfl
    rw [List.zipIdx_cons, List.flatMap_cons, entriesAt, first]
    rfl

/-- Only a grammar without items has no entries. -/
lemma entries_eq_nil (g : Grammar) (layout : Layout) (names : Names) :
    ((g.entries layout).run names).value.1 = [] ↔ g.items = [] := by
  rw [← List.head?_eq_none_iff, head?_entries, Option.map_eq_none_iff, List.head?_eq_none_iff]

/-- What the document of a grammar, written with the given names in use, is made of. -/
structure Assembled (g : Grammar) (layout : Layout) (names : Names) (entries : List String) : Prop where
  document : ((g.document layout).run names).value =
    ("\n".intercalate entries, (texts layout names g.items).2)
  /-- There is one entry for each item, in order, and an empty one in front of each rule that opens a group.
  -/
  itemized : entries = g.items.zipIdx.flatMap fun p => g.entriesAt layout names p.2 p.1
  /-- Items are written with the names that the items before them leave, the first one with the given ones. -/
  threaded : (texts layout names []).2 = names ∧ ∀ before i,
    (texts layout names (before ++ [i])).2 =
      ((i.text layout).run (texts layout names before).2).value.2
  empty : ((g.document layout).run names).value.1 = "" ↔ g.items = []
  nonempty : ∀ k i, g.textAt layout names k i ≠ ""
  first : entries.head? ≠ some ""
  last : entries.getLast? ≠ some ""
  apart : ∀ k, ¬ (entries[k]? = some "" ∧ entries[k + 1]? = some "")

/-- A document is assembled from one entry for each item and the empty entries between groups of rules. -/
theorem assembled (g : Grammar) (layout : Layout) (names : Names) :
    g.Assembled layout names ((g.entries layout).run names).value.1 := by
  have document : ((g.document layout).run names).value =
      ("\n".intercalate ((g.entries layout).run names).value.1, (texts layout names g.items).2) := by
    rw [g.document_agree layout names, run_bind_value, run_pure_value]
    rw [congrArg Prod.snd (g.entries_value layout names)]
  have followed : GapsFollowed ((g.entries layout).run names).value.1 := by
    rw [entries_value]
    exact g.gapsFollowed_flatMap layout names _
  have first : ((g.entries layout).run names).value.1.head? ≠ some "" := by
    rw [head?_entries]
    intro h
    obtain ⟨i, _, empty⟩ := Option.map_eq_some_iff.1 h
    exact i.text_ne_empty layout names empty
  exact {
    document := document
    itemized := congrArg Prod.fst (g.entries_value layout names)
    threaded := ⟨rfl, texts_concat_names⟩
    empty := by
      rw [document]
      exact (intercalate_eq_empty first).trans (g.entries_eq_nil layout names)
    nonempty := fun _ i => i.text_ne_empty layout _
    first := first
    last := followed.getLast?_ne
    apart := followed.apart }

end Grammar

end YeccDefr
