import YeccDefr.Proofs.Output.Requests
import YeccDefr.Proofs.Output.Statements

/-!
# Parameters and bodies agree

A definition is written in two passes, one over the symbols of the rule and one over its code, and both ask
for names. The parameters name every symbol that a placeholder in the code stands for, so the body finds all
its names given (`Rule.body_gives_no_name`) and writes the identifiers that the parameters bind
(`Rule.parameters_agree_with_body`). A placeholder past the symbols of its rule has no part in this: without
it, the parameters are the same (`Rule.signature_withoutPast`).
-/

namespace YeccDefr

open Naming

/-- The parameter of a symbol that is bound to an identifier. -/
def Symbol.pairedWith (s : Symbol) (identifier : String) : String :=
  "\x7b" ++ literal s.text ++ ", " ++ identifier ++ "\x7d"

/-- A pair starts with a brace, a literal with a colon. -/
lemma Symbol.pairedWith_ne_literal (s : Symbol) (identifier : String) :
    s.pairedWith identifier ≠ literal s.text := by
  intro same
  have first := congrArg (fun text => text.toList.head?) same
  simp [pairedWith, literal] at first

/-- A placeholder is a quoted atom. -/
lemma Symbol.isQuotedAtom_of_placeholder? {s : Symbol} {position : Nat} (h : s.placeholder? = some position) :
    s.isQuotedAtom = true := by
  obtain ⟨digits, text⟩ := text_of_placeholder? h
  simp [isQuotedAtom, kind_of_placeholder? h, text]

/-- A symbol that is no quoted atom denotes no position. -/
lemma Symbol.placeholder?_of_bare {s : Symbol} (bare : s.isQuotedAtom = false) : s.placeholder? = none := by
  cases h : s.placeholder? with
  | none => rfl
  | some position =>
    rw [isQuotedAtom_of_placeholder? h] at bare
    cases bare

/-- A placeholder that stands for no symbol keeps its quotes, as its name starts with a dollar sign. -/
lemma Symbol.ownText_of_placeholder? {s : Symbol} {position : Nat}
    (h : s.placeholder? = some position) :
    s.ownText = String.ofList (':' :: '"' :: unquoted s.text ++ ['"']) := by
  obtain ⟨digits, text⟩ := text_of_placeholder? h
  have atom := kind_of_placeholder? h
  have quoted := isQuotedAtom_of_placeholder? h
  have noDollar : s.is .reservedSymbol "$" = false := by simp [Symbol.is, atom]
  have noDo : s.is .atom "do" = false := by
    have : s.text ≠ "do" := fun e => by simp [e] at text
    simp [Symbol.is, this]
  have inside : unquoted s.text = '$' :: digits := by
    rw [unquoted, text]
    exact List.dropLast_concat
  have notPlain : isPlainName (unquoted s.text) = false := by
    rw [inside]
    rfl
  simp [ownText, codeAtom, noDollar, noDo, quoted, notPlain]

namespace Rule

/-! ## Placeholders past the symbols -/

/-- Whether a symbol is a placeholder for a position that the rule does not have. -/
def isPast (r : Rule) (s : Symbol) : Bool := s.placeholder?.any fun position => r.symbols.length < position

/-- The rule without the placeholders for positions that it does not have. -/
def withoutPast (r : Rule) : Rule := { r with code? := r.code?.map (·.filter fun s => !r.isPast s) }

/-- The code of a rule without its past placeholders is that of the rule, but for these. -/
lemma code_withoutPast (r : Rule) : r.withoutPast.code = r.code.filter fun s => !r.isPast s := by
  rw [code, code, withoutPast]
  cases r.code? <;> rfl

/-- Without its past placeholders a rule uses the same positions within its symbols. -/
lemma uses_withoutPast (r : Rule) {position : Nat} (within : position ≤ r.symbols.length) :
    r.withoutPast.uses position = r.uses position := by
  rw [uses, uses, code_withoutPast, List.any_filter]
  congr 1
  funext s
  cases refers : s.placeholder? == some position with
  | false => rw [Bool.and_false]
  | true =>
    rw [beq_iff_eq] at refers
    simp [isPast, refers, within]

/-- Rules that use the same of some positions have the same parameters there. -/
lemma parametersFrom_congr {r r' : Rule} (position : Nat) (symbols : List Symbol)
    (h : ∀ i, position ≤ i → i < position + symbols.length → r.uses i = r'.uses i) :
    r.parametersFrom position symbols = r'.parametersFrom position symbols := by
  induction symbols generalizing position with
  | nil => rfl
  | cons s symbols ih =>
    rw [List.length_cons] at h
    have here := h position (Nat.le_refl _) (by omega)
    have others := ih (position + 1) fun i _ _ => h i (by omega) (by omega)
    rw [parametersFrom_cons, parametersFrom_cons, here, others]

/-- Past placeholders change no parameter. -/
lemma parametersFrom_withoutPast (r : Rule) :
    r.withoutPast.parametersFrom 1 r.symbols = r.parametersFrom 1 r.symbols :=
  parametersFrom_congr 1 r.symbols fun _ _ _ => r.uses_withoutPast (by omega)

/-- Placeholders past the symbols bind nothing. -/
lemma signature_withoutPast (r : Rule) : r.withoutPast.signature = r.signature := by
  change (do
    let parameters ← r.withoutPast.parametersFrom 1 r.symbols
    return r.head.text ++ "(" ++ ", ".intercalate parameters ++ ")") = r.signature
  rw [parametersFrom_withoutPast, signature_eq]

/-! ## Names in parameters and bodies -/

/-- A definition on one line where it fits, and else in a block. -/
def laidOut (layout : Layout) (signature body : String) : String :=
  if fits layout signature body then oneLine signature body else block signature body

/-- A definition is its signature and its body laid out, in this order. -/
lemma definition_value (layout : Layout) (r : Rule) (names : Names) :
    ((r.definition layout).run names).value =
      let signature := (r.signature.run names).value
      let body := (r.body.run signature.2).value
      (laidOut layout signature.1 body.1, body.2) := by
  rw [definition_eq, run_bind_value, run_bind_value]
  dsimp only [laidOut]
  split <;> rfl

/-- All symbols that the body asks for have been named with the parameters. -/
lemma body_gives_no_name (r : Rule) (names : Names) :
    (r.body.run (r.signature.run names).value.2).value.2 = (r.signature.run names).value.2
      ∧ (r.body.run (r.signature.run names).value.2).notices.filter Notice.isNaming = [] := by
  have asks := r.bodyFrom_asks .start r.code
  have named : ∀ text ∈ r.referenced r.code,
      ∃ name, (r.signature.run names).value.2.nameOf? text = some name := by
    intro text mem
    have requested := r.referenced_subset text mem
    rw [requests_eq] at requested
    obtain ⟨s, bound, rfl⟩ := List.mem_map.1 requested
    exact ⟨_, (r.signature_ensures.holds names _ .refl).2 s bound⟩
  have asked := ask_of_named named
  exact ⟨(asks.names _).trans asked.1, (asks.notices _).trans asked.2⟩

/-- A body gives no name. -/
lemma definition_names (layout : Layout) (r : Rule) (names : Names) :
    ((r.definition layout).run names).value.2 = (r.signature.run names).value.2 := by
  rw [definition_value]
  exact (r.body_gives_no_name names).1

/-- The name of a position is that of the symbol there. -/
lemma identifier_eq (r : Rule) (names : Names) {i : Nat} {s : Symbol} (here : r.symbols[i]? = some s) :
    r.identifier names (i + 1) = names.nameFor s.text := by
  rw [identifier, Nat.add_sub_cancel, here]

/-- The parameter at a position is a pair with the name of the position, or a literal if this is not used.
-/
lemma getElem?_parametersIn (r : Rule) (names : Names) {i : Nat} {s : Symbol}
    (here : r.symbols[i]? = some s) : (r.parametersIn names 1 r.symbols)[i]? =
      some (if r.uses (i + 1) then s.pairedWith (r.identifier names (i + 1)) else literal s.text) := by
  rw [parametersIn, List.getElem?_map, List.getElem?_zipIdx, here, identifier_eq r names here,
    Nat.add_comm 1 i]
  rfl

/-- How the definition of a rule, written with the given names in use, pairs the positions of its symbols
with identifiers. -/
structure Pairs (r : Rule) (layout : Layout) (names : Names) (parameters : List String)
    (identifier : Nat → String) (later : Names) : Prop where
  /-- The parameters are written first, one for each symbol. -/
  first : ((r.parametersFrom 1 r.symbols).run names).value = (parameters, later)
  length : parameters.length = r.symbols.length
  /-- A symbol is paired with the identifier of its position exactly where the code has a placeholder for
  it, and stands by itself elsewhere. -/
  paired : ∀ i s, r.symbols[i]? = some s →
    (parameters[i]? = some (s.pairedWith (identifier (i + 1))) ↔
      ∃ c ∈ r.code, c.placeholder? = some (i + 1))
  single : ∀ i s, r.symbols[i]? = some s →
    (parameters[i]? = some (literal s.text) ↔ ¬ ∃ c ∈ r.code, c.placeholder? = some (i + 1))
  /-- The definition has these parameters, and the body writes the identifier of a position for every
  placeholder of it. -/
  written : ((r.definition layout).run names).value.1 =
    laidOut layout (r.head.text ++ "(" ++ ", ".intercalate parameters ++ ")") (r.bodyText identifier)
  /-- What a placeholder within the rule is replaced by is bound by a parameter. -/
  bound : ∀ c ∈ r.code, ∀ i, c.placeholder? = some i → i ≤ r.symbols.length →
    r.textOf identifier c = identifier i
      ∧ ∃ s, r.symbols[i - 1]? = some s ∧ parameters[i - 1]? = some (s.pairedWith (identifier i))
  /-- A placeholder past the symbols is a quoted atom in the body, and without it the parameters are the
  same. -/
  past : ∀ c ∈ r.code, ∀ i, c.placeholder? = some i → r.symbols.length < i →
    r.textOf identifier c = String.ofList (':' :: '"' :: unquoted c.text ++ ['"'])
  pastUnbound : ((r.withoutPast.parametersFrom 1 r.symbols).run names).value = (parameters, later)
  /-- The body gives no name. -/
  unnamed : (r.body.run later).value.2 = later
    ∧ (r.body.run later).notices.filter Notice.isNaming = []
  kept : ((r.definition layout).run names).value.2 = later

/-- The parameters are those under the names that the signature leaves. -/
lemma run_parametersFrom (r : Rule) (names : Names) :
    let later := (r.signature.run names).value.2
    ((r.parametersFrom 1 r.symbols).run names).value = (r.parametersIn later 1 r.symbols, later) :=
  Prod.ext ((r.parametersFrom_ensures 1 r.symbols).holds names _ .refl).1 rfl

/-- The parameters and the body of every definition agree on the identifiers of positions, which are the names
of the symbols there after the parameters have been written. -/
theorem parameters_agree_with_body (layout : Layout) (r : Rule) (names : Names) :
    let later := (r.signature.run names).value.2
    r.Pairs layout names (r.parametersIn later 1 r.symbols) (r.identifier later) later := by
  intro later
  have parameter {i : Nat} {s : Symbol} (here : r.symbols[i]? = some s) :=
    r.getElem?_parametersIn later here
  refine
    { first := r.run_parametersFrom names
      length := by simp [parametersIn]
      paired := fun i s here => ?paired
      single := fun i s here => ?single
      written := ?written
      bound := fun c inCode i refers within => ?bound
      past := fun c _ i refers past => ?past
      pastUnbound := ?pastUnbound
      unnamed := r.body_gives_no_name names
      kept := r.definition_names layout names }
  case paired =>
    rw [parameter here, ← uses_iff, Option.some_inj]
    split
    case isTrue used => exact iff_of_true rfl used
    case isFalse unused => exact iff_of_false (s.pairedWith_ne_literal _).symm unused
  case single =>
    rw [parameter here, ← uses_iff, Option.some_inj]
    split
    case isTrue used => exact iff_of_false (s.pairedWith_ne_literal _) (not_not_intro used)
    case isFalse unused => exact iff_of_true rfl unused
  case written =>
    have signature := (r.signature_ensures.holds names later .refl).1
    have body := r.body_ensures.holds later later
    rw [(r.body_gives_no_name names).1] at body
    rw [definition_value]
    dsimp only
    rw [signature, body .refl]
    rfl
  case bound =>
    refine ⟨by rw [textOf, refers]; exact if_pos within, ?_⟩
    have counted := Symbol.placeholder?_pos refers
    obtain ⟨i, rfl⟩ := Nat.exists_eq_add_of_lt counted
    rw [Nat.zero_add] at refers within ⊢
    rw [Nat.add_sub_cancel]
    have here : r.symbols[i]? = some r.symbols[i] := List.getElem?_eq_getElem within
    refine ⟨_, here, ?_⟩
    rw [parameter here, if_pos (uses_iff.2 ⟨c, inCode, refers⟩)]
  case past =>
    rw [textOf, refers]
    exact (if_neg (by omega)).trans (Symbol.ownText_of_placeholder? refers)
  case pastUnbound =>
    rw [parametersFrom_withoutPast]
    exact r.run_parametersFrom names

end Rule

end YeccDefr

