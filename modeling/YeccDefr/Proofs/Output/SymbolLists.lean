import YeccDefr.Proofs.Grammar.Gaps
import YeccDefr.Proofs.Output.Parameters

/-!
# Lists of symbols

The line of a declaration lists literals between commas. The literal of a bare symbol has no comma, and that of
a quoted atom ends at its second quote, so that a list can be read back from its line as long as no atom holds
what ends one quoted literal and opens the next (`Reopens`, `listed_injective`). An atom that does is listed
like the two atoms around it (`Directive.line_reopen`): a double quote inside an atom is written as it is.
-/

namespace YeccDefr

open Naming

/-! ## Literals -/

/-- The text of the quoted atom of a word. -/
def quotedAtom (word : String) : String := "'" ++ word ++ "'"

/-- The quotes of two texts are exchanged one by one. -/
lemma requoted_append (a b : String) : requoted (a ++ b) = requoted a ++ requoted b := by
  rw [requoted, requoted, requoted, String.toList_append, List.map_append, String.ofList_append]

/-- A text without single quotes has no quotes to exchange. -/
lemma requoted_of_notMem {text : String} (h : '\'' ∉ text.toList) : requoted text = text := by
  have kept : (text.toList.map fun c => if c = '\'' then '"' else c) = text.toList := by
    refine (List.map_congr_left fun c mem => if_neg ?_).trans (List.map_id' _)
    rintro rfl
    exact h mem
  rw [requoted, kept, String.ofList_toList]

/-- A text in whose literal no double quote appears has no quotes to exchange. -/
lemma requoted_eq_self {text : String} (h : '"' ∉ (requoted text).toList) : requoted text = text := by
  refine requoted_of_notMem fun mem => h ?_
  rw [requoted, String.toList_ofList]
  exact List.mem_map.2 ⟨'\'', mem, rfl⟩

/-- A quoted atom becomes its word in double quotes. -/
lemma requoted_quotedAtom (word : String) : requoted (quotedAtom word) = "\"" ++ requoted word ++ "\"" := by
  rw [quotedAtom, requoted_append, requoted_append]
  rfl

/-! ## Lists of literals -/

/-- The texts that a list of symbols can hold: bare symbols and quoted atoms. -/
inductive Listable : String → Prop where
  | bare {text : String} :
    text ≠ "" →
    (∀ c ∈ text.toList, c ≠ '\'' ∧ c ≠ '"' ∧ c ≠ ',') →
    Listable text
  | quoted {word : String} :
    '\'' ∉ word.toList →
    Listable (quotedAtom word)

/-- A text holds a double quote and behind it what separates a literal from the next one, up to the colon. -/
def Reopens (text : String) : Prop := "\", :".toList <:+: text.toList

instance (text : String) : Decidable (Reopens text) := inferInstanceAs (Decidable (_ <:+: _))

/-- Literals in a list, each with the comma in front of it. -/
def listed (texts : List String) : List Char := texts.flatMap fun t => ", :".toList ++ (requoted t).toList

/-- A list starts with its first literal. -/
lemma listed_cons (t : String) (ts : List String) :
    listed (t :: ts) = ", :".toList ++ ((requoted t).toList ++ listed ts) := by
  rw [listed, List.flatMap_cons, List.append_assoc]
  rfl

/-- A list of two parts is listed part by part. -/
lemma listed_append (ts ts' : List String) : listed (ts ++ ts') = listed ts ++ listed ts' :=
  List.flatMap_append

/-- The literals of a list that is not empty are those with commas in front, without the first comma. -/
lemma literals_cons (t : String) (ts : List String) :
    (literals (t :: ts)).toList = ':' :: ((requoted t).toList ++ listed ts) := by
  induction ts generalizing t with
  | nil => simp [literals, literal, listed]
  | cons t' ts ih =>
    have next : literals (t :: t' :: ts) = literal t ++ ", " ++ literals (t' :: ts) := by
      rw [literals, literals, List.map_cons, List.map_cons, String.intercalate_cons_cons]
    rw [next, String.toList_append, String.toList_append, ih, listed_cons, literal, String.toList_append]
    simp

/-- Equal lists of literals are equal with the commas in front. -/
lemma literals_eq_iff {ts ts' : List String} : literals ts = literals ts' ↔ listed ts = listed ts' := by
  cases ts with
  | nil =>
    cases ts' with
    | nil => exact iff_of_true rfl rfl
    | cons t' ts' =>
      refine iff_of_false (fun e => ?_) fun e => ?_
      · have chars := congrArg String.toList e
        rw [literals_cons] at chars
        cases chars
      · rw [listed_cons] at e
        cases e
  | cons t ts =>
    cases ts' with
    | nil =>
      refine iff_of_false (fun e => ?_) fun e => ?_
      · have chars := congrArg String.toList e
        rw [literals_cons] at chars
        cases chars
      · rw [listed_cons] at e
        cases e
    | cons t' ts' =>
      rw [← String.toList_inj, literals_cons, literals_cons, listed_cons, listed_cons, List.cons_inj_right,
        List.append_cancel_left_eq]

/-- An atom with a closed literal and an opened one inside is listed like the two atoms that it looks like. -/
theorem literals_reopen (before : List String) (front back : String) (after : List String) :
    literals (before ++ quotedAtom (front ++ "\", :\"" ++ back) :: after) =
      literals (before ++ quotedAtom front :: quotedAtom back :: after) := by
  rw [literals_eq_iff, listed_append, listed_append, listed_cons, listed_cons, listed_cons,
    requoted_quotedAtom, requoted_quotedAtom, requoted_quotedAtom, requoted_append, requoted_append]
  have between : requoted "\", :\"" = "\", :\"" := by decide
  simp [between]

/-! ## Reading a list back -/

/-- A list goes on with a comma or is at its end. -/
lemma listed_cases (ts : List String) : listed ts = [] ∨ ∃ more, listed ts = [',', ' ', ':'] ++ more := by
  cases ts with
  | nil => exact .inl rfl
  | cons t ts => exact .inr ⟨_, listed_cons t ts⟩

/-- What a list goes on with up to a double quote starts with all that separates two literals. -/
lemma separator_prefix {ts : List String} {front later : List Char} (h : listed ts = front ++ '"' :: later) :
    [',', ' ', ':'] <+: front := by
  rcases listed_cases ts with ends | ⟨more, next⟩
  · rw [ends] at h
    simp at h
  · rw [next] at h
    rcases List.append_eq_append_iff.1 h with ⟨between, rfl, _⟩ | ⟨between, separator, rest⟩
    · exact List.prefix_append _ _
    · -- there is no double quote in what separates literals
      cases between with
      | nil => rw [separator, List.append_nil]
      | cons c between =>
        have quote : '"' = c := (List.cons.inj rest).1
        have mem : c ∈ [',', ' ', ':'] := by
          rw [separator]
          simp
        exact absurd (quote ▸ mem) (by decide)

namespace Listable
variable {t t' : String}

/-- A bare text has no quotes to exchange. -/
lemma toList_bare (plain : ∀ c ∈ t.toList, c ≠ '\'' ∧ c ≠ '"' ∧ c ≠ ',') : requoted t = t :=
  requoted_of_notMem fun mem => (plain _ mem).1 rfl

/-- The literal of a quoted atom has its word between double quotes. -/
lemma toList_quoted {word : String} (plain : '\'' ∉ word.toList) :
    (requoted (quotedAtom word)).toList = '"' :: word.toList ++ ['"'] := by
  rw [requoted_quotedAtom, requoted_of_notMem plain]
  simp

/-- Where the literal of `t` is the start of the literal of `t'` and a list goes on with the rest of that
literal, there is no such rest: it would have a comma behind a bare symbol, and in a quoted atom it would
reopen. -/
lemma rest_eq_nil (h : Listable t) (h' : Listable t') (closed : ¬ Reopens t') {rest later : List Char}
    {ts : List String} (whole : (requoted t').toList = (requoted t).toList ++ rest)
    (goesOn : listed ts = rest ++ later) : rest = [] := by
  by_contra nonempty
  cases h' with
  | bare _ plain' =>
    obtain ⟨c, rest, rfl⟩ := List.exists_cons_of_ne_nil nonempty
    have comma : c = ',' := by
      rcases listed_cases ts with ends | ⟨_, next⟩
      · rw [ends] at goesOn
        cases goesOn
      · rw [next] at goesOn
        exact (List.cons.inj goesOn).1.symm
    rw [toList_bare plain'] at whole
    exact (plain' c (by rw [whole]; simp)).2.2 comma
  | @quoted word' plain' =>
    rw [toList_quoted plain'] at whole
    cases h with
    | bare filled plain =>
      rw [toList_bare plain] at whole
      obtain ⟨c, cs, chars⟩ := List.exists_cons_of_ne_nil fun e => filled (String.toList_eq_nil_iff.1 e)
      rw [chars] at whole plain
      have quote : '"' = c := by simpa using congrArg List.head? whole
      exact (plain c List.mem_cons_self).2.1 quote.symm
    | @quoted word plain =>
      rw [toList_quoted plain] at whole
      -- the rest ends with the second quote of the longer atom
      obtain ⟨front, c, rfl⟩ := List.eq_nil_or_concat rest |>.resolve_left nonempty
      have inside : word'.toList ++ ['"'] = word.toList ++ '"' :: front ++ [c] := by simpa using whole
      obtain ⟨chars, last⟩ := List.append_inj' inside rfl
      cases last
      rw [List.concat_eq_append, List.append_assoc] at goesOn
      obtain ⟨back, rfl⟩ := separator_prefix goesOn
      refine closed ?_
      rw [Reopens, quotedAtom, String.toList_append, String.toList_append, chars]
      exact ⟨'\'' :: word.toList, back ++ ['\''], by simp⟩

/-- Exchanging the quotes keeps symbols of a list apart. -/
lemma requoted_inj (h : Listable t) (h' : Listable t') (same : requoted t = requoted t') : t = t' := by
  have quote (word : String) : '"' ∈ (requoted (quotedAtom word)).toList := by
    rw [requoted_quotedAtom]
    simp
  cases h with
  | bare _ plain =>
    rw [toList_bare plain] at same
    cases h' with
    | bare _ plain' => rw [same, toList_bare plain']
    | @quoted word' _ => exact absurd rfl (plain '"' (same ▸ quote word')).2.1
  | @quoted word plain =>
    cases h' with
    | bare _ other =>
      rw [toList_bare other] at same
      exact absurd rfl (other '"' (same ▸ quote word)).2.1
    | @quoted word' plain' =>
      have chars := congrArg String.toList same
      rw [toList_quoted plain, toList_quoted plain'] at chars
      have inside : word.toList = word'.toList := by simpa using chars
      rw [String.toList_inj.1 inside]

end Listable

/-- A list that holds no atom which reopens can be read back. -/
theorem listed_injective {ts ts' : List String} (h : ∀ t ∈ ts, Listable t ∧ ¬ Reopens t)
    (h' : ∀ t ∈ ts', Listable t ∧ ¬ Reopens t) (same : listed ts = listed ts') : ts = ts' := by
  induction ts generalizing ts' with
  | nil =>
    cases ts' with
    | nil => rfl
    | cons t' ts' =>
      rw [listed_cons] at same
      cases same
  | cons t ts ih =>
    cases ts' with
    | nil =>
      rw [listed_cons] at same
      cases same
    | cons t' ts' =>
      obtain ⟨⟨listable, closed⟩, others⟩ := List.forall_mem_cons.1 h
      obtain ⟨⟨listable', closed'⟩, others'⟩ := List.forall_mem_cons.1 h'
      rw [listed_cons, listed_cons, List.append_cancel_left_eq] at same
      -- of the two first literals one is the start of the other, and is all of it
      have first : (requoted t).toList = (requoted t').toList := by
        rcases List.append_eq_append_iff.1 same with ⟨rest, whole, goesOn⟩ | ⟨rest, whole, goesOn⟩
        · rw [whole, listable.rest_eq_nil listable' closed' whole goesOn, List.append_nil]
        · rw [whole, listable'.rest_eq_nil listable closed whole goesOn, List.append_nil]
      rw [first, List.append_cancel_left_eq] at same
      rw [ih others others' same, listable.requoted_inj listable' (String.toList_inj.1 first)]

/-! ## Declarations -/

/-- The directives whose symbols are listed. -/
def Directive.isList : Directive → Bool
  | nonterminals | terminals | rootsymbol => true
  | expect | left | right | nonassoc => false

/-- The lines of two declarations with the same list directive are equal if they list the same. -/
lemma Directive.line_eq_iff {directive : Directive} (list : directive.isList) (d e : Declaration)
    (names names' : Names) :
    ((directive.line d).run names).value.1 = ((directive.line e).run names').value.1 ↔
      listed (d.body.map (·.text)) = listed (e.body.map (·.text)) := by
  rw [← literals_eq_iff]
  cases directive with
  | nonterminals | terminals =>
    change _ ++ _ ++ literals (d.body.map (·.text)) ++ _ = _ ++ _ ++ literals (e.body.map (·.text)) ++ _ ↔ _
    rw [String.append_left_inj, String.append_right_inj]
  | rootsymbol =>
    change _ ++ _ ++ literals (d.body.map (·.text)) = _ ++ _ ++ literals (e.body.map (·.text)) ↔ _
    rw [String.append_right_inj]
  | expect | left | right | nonassoc => cases list

/-- A list with an atom that reopens has the line of the list with two atoms in its place. -/
theorem Directive.line_reopen {directive : Directive} (list : directive.isList) {d e : Declaration}
    {before after : List String} {front back : String}
    (one : d.body.map (·.text) = before ++ quotedAtom (front ++ "\", :\"" ++ back) :: after)
    (two : e.body.map (·.text) = before ++ quotedAtom front :: quotedAtom back :: after)
    (names names' : Names) :
    ((directive.line d).run names).value.1 = ((directive.line e).run names').value.1 := by
  rw [line_eq_iff list, one, two, ← literals_eq_iff]
  exact literals_reopen before front back after

namespace Grammar

/-- The declarations of a grammar are those among its items. -/
lemma mem_declarations {g : Grammar} {d : Declaration} : d ∈ g.declarations ↔ Item.declaration d ∈ g.items := by
  rw [declarations, List.mem_filterMap]
  constructor
  · rintro ⟨i, mem, e⟩
    cases i with
    | declaration =>
      cases e
      exact mem
    | rule => cases e
  · exact fun mem => ⟨_, mem, rfl⟩

section
variable {text : String} {g : Grammar} {d : Declaration} {s : Symbol}

/-- A bare word of a text, and a number, has no quotes and no comma. -/
lemma listable_of_word {k : Token.Kind} (symbol : k.isGrammarSymbol) (word : s.text.toList ∈ k.words) :
    Listable s.text := by
  have nonempty : s.text ≠ "" := by
    intro e
    rw [e] at word
    exact Token.Kind.nil_notMem_words word
  have plain {test : Char → Bool} (apart : test '\'' = false ∧ test '"' = false ∧ test ',' = false) {c : Char}
      (h : test c) : c ≠ '\'' ∧ c ≠ '"' ∧ c ≠ ',' := by
    refine ⟨?_, ?_, ?_⟩ <;> rintro rfl <;> simp [apart] at h
  have wordChar : isWordChar '\'' = false ∧ isWordChar '"' = false ∧ isWordChar ',' = false := by decide
  have named {first : Char → Bool} (apart : first '\'' = false ∧ first '"' = false ∧ first ',' = false)
      (word : s.text.toList ∈ Token.Kind.names first) : Listable s.text := by
    obtain ⟨c, u, chars, begins, goesOn⟩ := word
    refine .bare nonempty ?_
    rw [chars, List.forall_mem_cons]
    exact ⟨plain apart begins, fun d mem => plain wordChar (goesOn d mem)⟩
  cases k with
  | var => exact named (by decide) word
  | atom =>
    rcases word with word | ⟨u, chars, inside⟩
    · exact named (by decide) word
    · have text : s.text = quotedAtom (String.ofList u) := by
        rw [← String.toList_inj, chars, quotedAtom]
        simp
      rw [text]
      exact .quoted (by simpa using fun mem => (inside _ mem).1 rfl)
  | integer => exact .bare nonempty fun c mem => plain (by decide +kernel) (word.2 c mem)
  | dot | arrow | colon | float | stringLiteral | reservedSymbol | comment | whiteSpace => cases symbol

/-- A symbol of a declaration that is no string can be listed. -/
lemma listable_of_read (read : (readGrammar text).value = .ok g) (inText : d ∈ g.declarations)
    (mem : s ∈ d.body) (noString : s.kind ≠ .string) : Listable s.text := by
  have item := mem_declarations.1 inText
  have tokens := (readGrammar_eq_ok.1 read).2
  have inside : .symbol s ∈ g.pieces :=
    List.mem_flatMap.2 ⟨_, item, by simp [Item.pieces, Declaration.pieces, mem]⟩
  obtain ⟨k, kind, word⟩ := word_of_read tokens inside
  have wf : d.WellFormed := (ofTokens_eq_ok_iff.1 tokens).1 _ item
  refine listable_of_word ?_ word
  rcases (Declaration.wellFormed_iff.1 wf).2.2 with symbols | strings
  · obtain ⟨k', kind', symbol⟩ := symbols s mem
    rw [kind] at kind'
    cases kind'
    exact symbol
  · obtain ⟨k', kind', string⟩ := strings s mem
    cases eq_of_beq string
    exact absurd (Option.some.inj (Symbol.Kind.ofToken?_eq_some.2 kind')).symm noString

/-- A head that is the word of a directive is a variable. -/
lemma head_var_of_read (read : (readGrammar text).value = .ok g) (inText : d ∈ g.declarations)
    {directive : Directive} (head : d.head.text = directive.head) : d.head.kind = .var := by
  have item := mem_declarations.1 inText
  have inside : .symbol d.head ∈ g.pieces :=
    List.mem_flatMap.2 ⟨_, item, by simp [Item.pieces, Declaration.pieces]⟩
  obtain ⟨k, kind, word⟩ := word_of_read (readGrammar_eq_ok.1 read).2 inside
  have capital : directive.head.toList ∈ Token.Kind.var.words := by
    cases directive <;> exact ⟨_, _, rfl, by decide, List.all_eq_true.1 (by decide)⟩
  rw [head] at word
  cases Token.Kind.words_disjoint word capital
  exact (Option.some.inj (Symbol.Kind.ofToken?_eq_some.2 kind)).symm

end

/-- Two declarations of texts that list symbols under the same head, and hold no atom that reopens, have the
same line only if they list the same symbols. -/
theorem symbol_lists_unambiguous {A B : String} {g h : Grammar} {d e : Declaration} {directive : Directive}
    (readA : (readGrammar A).value = .ok g) (readB : (readGrammar B).value = .ok h)
    (inA : d ∈ g.declarations) (inB : e ∈ h.declarations) (list : directive.isList)
    (headA : d.head.text = directive.head) (headB : e.head.text = directive.head)
    (symbols : ∀ s ∈ d.body ++ e.body, s.kind ≠ .string)
    (closed : ∀ s ∈ d.body ++ e.body, ¬ Reopens s.text) (names names' : Names) :
    (d.line.run names).value.1 = (e.line.run names').value.1 ↔
      d.body.map (·.text) = e.body.map (·.text) := by
  rw [List.forall_mem_append] at symbols closed
  have line {d' : Declaration} (var : d'.head.kind = .var) (head : d'.head.text = directive.head) :
      d'.line = directive.line d' := by
    rw [Declaration.line_eq, if_pos var, Directive.ofHead?_eq_some.2 head.symm]
  rw [line (head_var_of_read readA inA headA) headA, line (head_var_of_read readB inB headB) headB,
    Directive.line_eq_iff list]
  constructor
  · refine listed_injective ?_ ?_
    · exact List.forall_mem_map.2 fun s mem =>
        ⟨listable_of_read readA inA mem (symbols.1 s mem), closed.1 s mem⟩
    · exact List.forall_mem_map.2 fun s mem =>
        ⟨listable_of_read readB inB mem (symbols.2 s mem), closed.2 s mem⟩
  · exact fun same => by rw [same]

/-- Double quotes, commas and brackets in atoms, none of which ends a literal. -/
theorem symbol_lists_unambiguous_punctuation :
    let g := (readGrammar "Terminals '\",' ':\"' ']' 12.").value.toOption.getD ⟨[]⟩
    let h := (readGrammar "Terminals '\", ' '\"' ']' 12.").value.toOption.getD ⟨[]⟩
    ∃ d ∈ g.declarations, ∃ e ∈ h.declarations, (∀ s ∈ d.body ++ e.body, ¬ Reopens s.text)
      ∧ (d.line.run .empty).value.1 = "terminals [:\"\",\", :\":\"\", :\"]\", :12]"
      ∧ (e.line.run .empty).value.1 ≠ (d.line.run .empty).value.1 := by
  intro g h
  have readA : (readGrammar "Terminals '\",' ':\"' ']' 12.").value = .ok g := by decide +kernel
  have readB : (readGrammar "Terminals '\", ' '\"' ']' 12.").value = .ok h := by decide +kernel
  let d := g.declarations.get ⟨0, by decide +kernel⟩
  let e := h.declarations.get ⟨0, by decide +kernel⟩
  have headA : d.head.text = Directive.terminals.head := by decide +kernel
  have headB : e.head.text = Directive.terminals.head := by decide +kernel
  have symbols : ∀ s ∈ d.body ++ e.body, s.kind ≠ .string := by decide +kernel
  have closed : ∀ s ∈ d.body ++ e.body, ¬ Reopens s.text := by decide +kernel
  refine ⟨d, List.get_mem _ _, e, List.get_mem _ _, closed, by decide +kernel, fun same => ?_⟩
  have listed := symbol_lists_unambiguous readA readB (List.get_mem _ _) (List.get_mem _ _) rfl headA headB
    symbols closed .empty .empty
  exact absurd (listed.1 same.symm) (by decide +kernel)

/-- A double quote inside an atom closes its literal, and what stands behind it adds another one. -/
theorem two_lists_on_one_line :
    translation "Terminals 'a\", :\"b'.\nTerminals 'a' 'b'." =
        .ok "terminals [:\"a\", :\"b\"]\nterminals [:\"a\", :\"b\"]"
      ∧ ¬ ∀ (A B : String) (g h : Grammar), (readGrammar A).value = .ok g → (readGrammar B).value = .ok h →
        ∀ d ∈ g.declarations, ∀ e ∈ h.declarations, ∀ directive : Directive, directive.isList →
          d.head.text = directive.head → e.head.text = directive.head →
          (∀ s ∈ d.body ++ e.body, s.kind ≠ .string) → ∀ names names' : Names,
          (d.line.run names).value.1 = (e.line.run names').value.1 →
            d.body.map (·.text) = e.body.map (·.text) := by
  refine ⟨by decide +kernel, fun unambiguous => ?_⟩
  let g := (readGrammar "Terminals 'a\", :\"b'.").value.toOption.getD ⟨[]⟩
  let h := (readGrammar "Terminals 'a' 'b'.").value.toOption.getD ⟨[]⟩
  have readA : (readGrammar "Terminals 'a\", :\"b'.").value = .ok g := by decide +kernel
  have readB : (readGrammar "Terminals 'a' 'b'.").value = .ok h := by decide +kernel
  have same := unambiguous _ _ g h readA readB (g.declarations.get ⟨0, by decide +kernel⟩)
    (List.get_mem _ _) (h.declarations.get ⟨0, by decide +kernel⟩) (List.get_mem _ _) .terminals rfl
    (by decide +kernel) (by decide +kernel) (by decide +kernel) .empty .empty (by decide +kernel)
  exact absurd same (by decide +kernel)

end Grammar

end YeccDefr
