import YeccDefr.Proofs.Grammar.Sequence
import YeccDefr.Proofs.Output.Agreement
import YeccDefr.Translation

/-!
# Separate translation

A text below a grammar is translated as by itself, with the names that the grammar leaves: every stage
of a translation works from one line to the next. Scanning takes up behind a line feed
(`Scan.ofText_append_line`), reading behind an item (`readGrammar_append_ok`,
`readGrammar_append_error`), and writing knows of the entries before only the head of the last rule,
which decides on the empty entry in front of the next rule (`Grammar.Joins`). The main result is
`translate_append_line`.
-/

namespace YeccDefr

open Naming

/-! ## Entries of items behind others -/

/-- The head of the last rule of items, or of the rule before them where they have none. -/
def lastHeadOf (before? : Option String) : List Item → Option String
  | [] => before?
  | .declaration _ :: is => lastHeadOf before? is
  | .rule r :: is => lastHeadOf (some r.head.text) is

/-- Entries are written one item after the other. -/
lemma Grammar.entriesFrom_append (layout : Layout) (is js : List Item) (lastHead? : Option String)
    (started : Bool) :
    entriesFrom layout lastHead? started (is ++ js) = (do
      let front ← entriesFrom layout lastHead? started is
      let back ← entriesFrom layout (lastHeadOf lastHead? is) (started || !is.isEmpty) js
      return front ++ back) := by
  induction is generalizing lastHead? started with
  | nil => simp [lastHeadOf]
  | cons i is ih =>
    cases i with
    | declaration d => simp [lastHeadOf, ih]
    | rule r =>
      simp only [List.cons_append, entriesFrom_rule, ih, lastHeadOf]
      split <;> simp

namespace Grammar

/-- The head of the last rule. -/
def lastHead? (g : Grammar) : Option String := g.rules.getLast?.map (·.head.text)

/-- The entries of items behind a first one, and the same entries where a rule of the given head comes
before: the empty entry in front of the first rule is absent if the rule has the same head. -/
inductive JoinsFrom (before? : Option String) : List Item → List String → List String → Prop where
  | nil : JoinsFrom before? [] [] []
  | declaration {d is line es es'} :
    JoinsFrom before? is es es' →
    JoinsFrom before? (.declaration d :: is) (line :: es) (line :: es')
  | sameHead {r : Rule} {is es} :
    before? = some r.head.text →
    JoinsFrom before? (.rule r :: is) ("" :: es) es
  | newHead {r : Rule} {is es} :
    before? ≠ some r.head.text →
    JoinsFrom before? (.rule r :: is) ("" :: es) ("" :: es)

/-- The entries of a grammar by itself, and behind the entries of another one. If the grammar starts
with a rule, it gets an empty entry in front of it where there are items before it but no rule of the
same head is the last one. -/
inductive Joins (before : Grammar) : Grammar → List String → List String → Prop where
  | empty : Joins before ⟨[]⟩ [] []
  | rule {r is es} :
    Joins before ⟨.rule r :: is⟩ es
      (if before.items ≠ [] ∧ before.lastHead? ≠ some r.head.text then "" :: es else es)
  | declaration {d is line es es'} :
    JoinsFrom before.lastHead? is es es' →
    Joins before ⟨.declaration d :: is⟩ (line :: es) (line :: es')

/-- The open group is that of the last rule, or else the one from before. -/
lemma lastHead?_or (before? : Option String) (is : List Item) :
    (lastHead? ⟨is⟩).or before? = lastHeadOf before? is := by
  induction is generalizing before? with
  | nil => rfl
  | cons i is ih =>
    cases i with
    | declaration d => exact ih before?
    | rule r =>
      rw [lastHeadOf, ← ih]
      simp only [lastHead?, rules, List.filterMap_cons, List.getLast?_cons]
      cases (is.filterMap _).getLast? <;> rfl

/-- A grammar starts with no group open. -/
lemma lastHead?_eq (g : Grammar) : g.lastHead? = lastHeadOf none g.items := by
  rw [← lastHead?_or, Option.or_none]

/-- A declaration adds its line to the entries behind it. -/
lemma entriesFrom_declaration_value (layout : Layout) (lastHead? : Option String) (started : Bool)
    (d : Declaration) (is : List Item) (names : Names) :
    ((entriesFrom layout lastHead? started (.declaration d :: is)).run names).value =
      let line := (d.line.run names).value
      let later := ((entriesFrom layout lastHead? true is).run line.2).value
      (line.1 :: later.1, later.2) := rfl

/-- A rule adds its definition to the entries behind it, and a gap in front where it opens a group. -/
lemma entriesFrom_rule_value (layout : Layout) (lastHead? : Option String) (started : Bool)
    (r : Rule) (is : List Item) (names : Names) :
    ((entriesFrom layout lastHead? started (.rule r :: is)).run names).value =
      let definition := ((r.definition layout).run names).value
      let later := ((entriesFrom layout (some r.head.text) true is).run definition.2).value
      ((if started && lastHead? ≠ some r.head.text then [""] else []) ++ definition.1 :: later.1,
        later.2) := by
  rw [entriesFrom_rule]
  simp only [run_bind_value]
  split <;> rfl

/-- The head of the last rule before them decides on at most one entry of items behind a first one. -/
lemma entriesFrom_joinsFrom (layout : Layout) (before? : Option String) (is : List Item)
    (names : Names) : ∃ es es' names',
      ((entriesFrom layout none true is).run names).value = (es, names')
        ∧ ((entriesFrom layout before? true is).run names).value = (es', names')
        ∧ JoinsFrom before? is es es' := by
  induction is generalizing names with
  | nil => exact ⟨_, _, _, rfl, rfl, .nil⟩
  | cons i is ih =>
    cases i with
    | declaration d =>
      rw [entriesFrom_declaration_value, entriesFrom_declaration_value]
      obtain ⟨es, es', names', own, behind, joins⟩ := ih (d.line.run names).value.2
      simp only [own, behind]
      exact ⟨_, _, _, rfl, rfl, .declaration joins⟩
    | rule r =>
      rw [entriesFrom_rule_value, entriesFrom_rule_value]
      refine ⟨_, _, _, rfl, rfl, ?_⟩
      by_cases same : before? = some r.head.text
      · rw [if_neg (by simp [same] : ¬ (true && decide (before? ≠ some r.head.text)) = true)]
        exact .sameHead same
      · rw [if_pos (by simp [same] : (true && decide (before? ≠ some r.head.text)) = true)]
        exact .newHead same

/-- A grammar behind another one has its own entries, up to a gap where the two join. -/
lemma entries_joins (layout : Layout) (a b : Grammar) (names : Names) : ∃ es es' names',
    ((b.entries layout).run names).value = (es, names')
      ∧ ((entriesFrom layout a.lastHead? (!a.items.isEmpty) b.items).run names).value = (es', names')
      ∧ a.Joins b es es' := by
  obtain ⟨items⟩ := b
  cases items with
  | nil => exact ⟨_, _, _, rfl, rfl, .empty⟩
  | cons i is =>
    rw [entries]
    cases i with
    | declaration d =>
      rw [entriesFrom_declaration_value, entriesFrom_declaration_value]
      obtain ⟨es, es', names', own, behind, joins⟩ :=
        entriesFrom_joinsFrom layout a.lastHead? is (d.line.run names).value.2
      simp only [own, behind]
      exact ⟨_, _, _, rfl, rfl, .declaration joins⟩
    | rule r =>
      rw [entriesFrom_rule_value, entriesFrom_rule_value]
      refine ⟨_, _, _, rfl, rfl, ?_⟩
      have gap {es : List String} :
          (if !a.items.isEmpty && a.lastHead? ≠ some r.head.text then [""] else []) ++ es =
            if a.items ≠ [] ∧ a.lastHead? ≠ some r.head.text then "" :: es else es := by
        split <;> split <;> simp_all
      rw [gap]
      exact .rule

end Grammar

/-! ## Reading a text below another one -/

/-- A symbol is alike below a text. -/
lemma Symbol.below_alike (upper : String) (s : Symbol) : (s.below upper).Alike s := ⟨rfl, rfl, rfl⟩

/-- Symbols are alike below a text. -/
lemma Symbol.map_below_alike (upper : String) (ss : List Symbol) :
    List.Forall₂ Alike (ss.map (Symbol.below upper)) ss := by
  rw [List.forall₂_map_left_iff, List.forall₂_same]
  exact fun s _ => s.below_alike upper

/-- Symbols have the same texts below a text. -/
lemma Symbol.map_below_texts (upper : String) (ss : List Symbol) :
    SameTexts (ss.map (Symbol.below upper)) ss := (map_below_alike upper ss).imp fun _ _ => Alike.text

/-- A rule is alike below a text. -/
lemma Rule.below_alike (upper : String) (r : Rule) : (r.map (Symbol.below upper)).Alike r where
  text := rfl
  symbols := Symbol.map_below_texts upper r.symbols
  code := by
    rw [code, code, map]
    cases r.code? with
    | none => exact .nil
    | some code => exact Symbol.map_below_alike upper code

/-- A declaration is alike below a text. -/
lemma Declaration.below_alike (upper : String) (d : Declaration) :
    (d.map (Symbol.below upper)).Alike d := ⟨rfl, rfl, Symbol.map_below_texts upper d.body⟩

/-- An item is alike below a text. -/
lemma Item.below_alike (upper : String) (i : Item) : (i.map (Symbol.below upper)).Alike i := by
  cases i with
  | declaration d => exact .declaration (d.below_alike upper)
  | rule r => exact .rule (r.below_alike upper)

/-- The gap of an item does not matter to what it is alike with. -/
lemma Item.Alike.withGap {i j : Item} (spaced : Bool) (h : i.Alike j) :
    (i.withGap spaced).Alike j := by
  cases h with
  | declaration h => exact .declaration ⟨h.kind, h.text, h.body⟩
  | rule h => exact .rule ⟨h.text, h.symbols, h.code⟩

/-- A grammar further down has the same items, up to what does not matter. -/
lemma Grammar.below_alike (upper : String) (spaced : Bool) (g : Grammar) :
    List.Forall₂ Item.Alike (withGap spaced (g.map (Symbol.below upper)).items) g.items := by
  obtain ⟨items⟩ := g
  cases items with
  | nil => exact .nil
  | cons i is =>
    refine .cons ((i.below_alike upper).withGap spaced) ?_
    rw [List.forall₂_map_left_iff, List.forall₂_same]
    exact fun i _ => i.below_alike upper

/-- Below a grammar a grammar is read as by itself. -/
lemma readGrammar_append_ok {A B : String} {a b} (ha : (readGrammar A).value = .ok a)
    (hb : (readGrammar B).value = .ok b) :
    ∃ is, List.Forall₂ Item.Alike is b.items
      ∧ (readGrammar (A ++ "\n" ++ B)).value = .ok ⟨a.items ++ is⟩ := by
  obtain ⟨scanned, tokens⟩ := readGrammar_eq_ok.1 ha
  obtain ⟨scanned', tokens'⟩ := readGrammar_eq_ok.1 hb
  obtain ⟨spaced, whole⟩ := Grammar.ofTokens_append_ok A tokens tokens'
  refine ⟨_, b.below_alike A spaced, readGrammar_eq_ok.2 ?_⟩
  rw [Scan.ofText_append_line scanned]
  exact ⟨congrArg (Option.map _) scanned', whole⟩

/-- An error of the lower text is the error of both, below the upper one. -/
lemma readGrammar_append_error {A B : String} {a e} (ha : (readGrammar A).value = .ok a)
    (hb : (readGrammar B).value = .error e) :
    (readGrammar (A ++ "\n" ++ B)).value = .error (e.below A) := by
  obtain ⟨scanned, tokens⟩ := readGrammar_eq_ok.1 ha
  rw [readGrammar_value] at hb ⊢
  rw [Scan.ofText_append_line scanned]
  cases scanned' : (Scan.ofText B).error? with
  | some e' =>
    rw [scanned'] at hb
    cases hb
    simp [Scan.below, Scan.after, scanned', Error.below]
  | none =>
    rw [scanned'] at hb
    simp only [Scan.below, Scan.after, scanned', Option.map_none]
    exact Grammar.ofTokens_append_error A tokens hb

/-! ## Translating a text below another one -/

/-- A translation writes the grammar that is read, or hands on the error with the names as they were. -/
lemma translate_value (layout : Layout) (text : String) (names : Names) :
    ((translate layout text).run names).value =
      match (readGrammar text).value with
      | .error e => (.error e, names)
      | .ok g =>
        let entries := ((g.entries layout).run names).value
        (.ok ("\n".intercalate entries.1), entries.2) := by
  have lifted : ((readGrammar text : Naming (Except Error Grammar)).run names).value =
      ((readGrammar text).value, names) := rfl
  rw [translate, run_bind_value, lifted]
  cases (readGrammar text).value with
  | error e => rfl
  | ok g => rfl

/-- A text is a grammar with the given entries. Its translation is the entries one below the other, and
the given names are in use after it. -/
structure HasEntries (layout : Layout) (text : String) (names : Names) (g : Grammar)
    (entries : List String) (names' : Names) : Prop where
  read : (readGrammar text).value = .ok g
  written : ((g.entries layout).run names).value = (entries, names')
  translated :
    ((translate layout text).run names).value = (.ok ("\n".intercalate entries), names')

section
variable {layout : Layout} {text : String} {names names' : Names}

/-- A grammar that is read has the entries that are written of it. -/
lemma HasEntries.of_grammar {g entries} (read : (readGrammar text).value = .ok g)
    (written : ((g.entries layout).run names).value = (entries, names')) :
    HasEntries layout text names g entries names' where
  read := read
  written := written
  translated := by
    rw [translate_value, read]
    simp only [written]

/-- A translation that succeeds has entries. -/
lemma HasEntries.of_ok {out} (h : ((translate layout text).run names).value = (.ok out, names')) :
    ∃ g entries, HasEntries layout text names g entries names' := by
  rw [translate_value] at h
  cases e : (readGrammar text).value with
  | error e' =>
    rw [e] at h
    cases h
  | ok g =>
    rw [e] at h
    cases h
    exact ⟨g, _, .of_grammar e rfl⟩

/-- A translation fails exactly if the reading does, and leaves the names as they were. -/
lemma translate_eq_error {e} :
    ((translate layout text).run names).value = (.error e, names') ↔
      (readGrammar text).value = .error e ∧ names' = names := by
  rw [translate_value]
  cases (readGrammar text).value with
  | error e' => simp [eq_comm]
  | ok g => simp

end

section
variable {layout : Layout} {A B : String} {names names₁ names₂ : Names}

/-- Below a grammar a grammar has its own entries, joined to those of the first one. -/
lemma HasEntries.append_line {a as b bs} (ha : HasEntries layout A names a as names₁)
    (hb : HasEntries layout B names₁ b bs names₂) :
    ∃ g cs, a.Joins b bs cs ∧ HasEntries layout (A ++ "\n" ++ B) names g (as ++ cs) names₂ := by
  obtain ⟨is, alike, read⟩ := readGrammar_append_ok ha.read hb.read
  obtain ⟨es, cs, names', own, behind, joins⟩ := Grammar.entries_joins layout a b names₁
  rw [hb.written] at own
  cases own
  refine ⟨_, cs, joins, .of_grammar read ?_⟩
  -- the items that were read below are alike those that were read alone
  rw [← Grammar.entriesFrom_agree layout _ _ alike names₁] at behind
  have written := ha.written
  rw [Grammar.entries] at written
  rw [Grammar.entries, Grammar.entriesFrom_append, ← Grammar.lastHead?_eq, Bool.false_or]
  simp only [run_bind_value, written, behind]
  rfl

/-- A text is translated below another one as by itself: `names` are in use before the upper text and
`names₁` after it. -/
structure TranslatesBelow (layout : Layout) (A B : String) (names names₁ : Names) : Prop where
  succeeds :
    (∃ out names₂, ((translate layout (A ++ "\n" ++ B)).run names).value = (.ok out, names₂)) ↔
      ∃ out names₂, ((translate layout B).run names₁).value = (.ok out, names₂)
  entries : ∀ out names₂, ((translate layout B).run names₁).value = (.ok out, names₂) →
    ∃ a as b bs g cs, HasEntries layout A names a as names₁ ∧ HasEntries layout B names₁ b bs names₂
      ∧ a.Joins b bs cs ∧ HasEntries layout (A ++ "\n" ++ B) names g (as ++ cs) names₂
  fails : ∀ e names₂, ((translate layout B).run names₁).value = (.error e, names₂) →
    ((translate layout (A ++ "\n" ++ B)).run names).value = (.error (e.below A), names)

/-- A text below a grammar is translated as by itself, with the names that the grammar leaves. The whole
succeeds where the lower text does, and then has the entries of both, joined, and leaves the same names.
Where the lower text fails the whole fails with the same error further down, and leaves the names as
they were. -/
theorem translate_append_line {out}
    (h : ((translate layout A).run names).value = (.ok out, names₁)) :
    TranslatesBelow layout A B names names₁ := by
  obtain ⟨a, as, ha⟩ := HasEntries.of_ok h
  have fails {e names₂} (failed : ((translate layout B).run names₁).value = (.error e, names₂)) :
      ((translate layout (A ++ "\n" ++ B)).run names).value = (.error (e.below A), names) :=
    translate_eq_error.2 ⟨readGrammar_append_error ha.read (translate_eq_error.1 failed).1, rfl⟩
  refine ⟨⟨?_, ?_⟩, ?_, fun _ _ => fails⟩
  · rintro ⟨out, names₂, whole⟩
    cases own : ((translate layout B).run names₁).value with
    | mk result names' =>
      cases result with
      | ok out' => exact ⟨out', names', rfl⟩
      | error e =>
        rw [fails own] at whole
        cases whole
  · rintro ⟨out, names₂, own⟩
    obtain ⟨b, bs, hb⟩ := HasEntries.of_ok own
    obtain ⟨g, cs, _, whole⟩ := ha.append_line hb
    exact ⟨_, names₂, whole.translated⟩
  · intro out names₂ own
    obtain ⟨b, bs, hb⟩ := HasEntries.of_ok own
    obtain ⟨g, cs, joins, whole⟩ := ha.append_line hb
    exact ⟨a, as, b, bs, g, cs, ha, hb, joins, whole⟩

/-- A rule behind one with the same head, where a declaration comes in between. -/
theorem translate_append_line_same_head :
    ((translate {} "a -> b.").run .empty).value = (.ok "defr a(:b), do: ", .empty)
      ∧ ((translate {} "Rootsymbol a.\na -> c.").run .empty).value =
          (.ok "root :a\n\ndefr a(:c), do: ", .empty)
      ∧ ((translate {} "a -> b.\nRootsymbol a.\na -> c.").run .empty).value =
          (.ok "defr a(:b), do: \nroot :a\ndefr a(:c), do: ", .empty)
      ∧ TranslatesBelow {} "a -> b." "Rootsymbol a.\na -> c." .empty .empty := by
  have h : ((translate {} "a -> b.").run .empty).value = (.ok "defr a(:b), do: ", .empty) := by
    decide +kernel
  exact ⟨h, by decide +kernel, by decide +kernel, translate_append_line h⟩

end

end YeccDefr
