import Mathlib.Data.Nat.PSub
import YeccDefr.Proofs.Output.Parameters
import YeccDefr.Proofs.Output.Scribes
import YeccDefr.Proofs.Safety.Scanning

/-!
# Writing within bounds

The writers cut the first character off a literal and the quotes off an atom, subtract one from the position
of a placeholder, and count open brackets in 32 bits. Guarded writers (`Guarded`) check all of this and have
no value where a check fails. They do what the writers of the same name do (`Guarded.Does`) as long as quoted
atoms in code end with the quote they start with and the code of a rule is not too long (`Rule.Writable`).
-/

namespace YeccDefr

open Naming

/-- Work on names that has no value where a check fails. -/
abbrev Guarded := OptionT Naming

namespace Guarded

/-- A value that has to be there. -/
def check {α : Type} (a? : Option α) : Guarded α := OptionT.mk (pure a?)

/-- Guarded work fails no check and does what the given work does. -/
def Does {α : Type} (x : Guarded α) (y : Naming α) : Prop := x.run = some <$> y

section
variable {α β : Type} {x : Guarded α} {y : Naming α}

/-- A value alone goes well. -/
lemma Does.pure (a : α) : Does (Pure.pure a) (Pure.pure a) := rfl

/-- A step that gives a value goes well. -/
lemma Does.check {a? : Option α} {a : α} (h : a? = some a) : Does (check a?) (Pure.pure a) := by
  rw [h]
  rfl

/-- A notice goes well. -/
lemma Does.report (n : Notice) : Does (liftM (report n) : Guarded Unit) (report n) := rfl

/-- Two steps go well if each of them does. -/
lemma Does.bind {f : α → Guarded β} {g : α → Naming β} (h : Does x y) (h' : ∀ a, Does (f a) (g a)) :
    Does (x >>= f) (y >>= g) := by
  rw [Does] at h ⊢
  rw [OptionT.run_bind, h, Option.elimM, bind_map_left, map_bind]
  exact congrArg _ (funext h')

/-- Work that does not depend on names has one value, so what follows has to be checked for that value only. -/
lemma Does.bind_lift {y : Logged α} {f : α → Guarded β} {g : α → Naming β} (h : Does x (y : Naming α))
    (h' : Does (f y.value) (g y.value)) : Does (x >>= f) ((y : Naming α) >>= g) := by
  have behind {γ : Type} (k : α → Naming γ) (names : Names) : ((y : Naming α) >>= k) names =
      ⟨(k y.value names).value, y.notices ++ [] ++ (k y.value names).notices⟩ := rfl
  rw [Does] at h h' ⊢
  rw [OptionT.run_bind, h, Option.elimM, bind_map_left, map_bind]
  funext names
  rw [behind, behind, ← h']
  rfl

/-- A check that holds is no work. -/
lemma Does.checked {a? : Option α} {a : α} {f : α → Guarded β} {y : Naming β} (h : a? = some a)
    (h' : Does (f a) y) : Does (Guarded.check a? >>= f) y := by
  rw [h]
  exact h'

end

end Guarded

open Guarded

/-! ## The guarded writers -/

/-- The name that binds the symbol with the given text, found with its literal. -/
def bindingName? (text : String) : Guarded String := do
  let bare ← check (slice? (literal text) 1 (literal text).utf8ByteSize)
  bareName bare

/-- A quoted atom as code writes it. The text has to have two bytes, and a quote at each end. -/
def codeAtom? (text : String) : Option String :=
  if 2 ≤ text.utf8ByteSize ∧ text.toList.head? = some '\'' ∧ text.toList.getLast? = some '\'' then do
    let stop ← text.utf8ByteSize.ppred
    let inner ← slice? text 1 stop
    return if isPlainName inner.toList then ":" ++ inner else ":\"" ++ inner ++ "\""
  else none

/-- A number that has to fit into 32 bits with a sign. -/
def fits32? (n : Int) : Option Int :=
  if Int32.minValue.toInt ≤ n ∧ n ≤ Int32.maxValue.toInt then some n else none

/-- Writing with every step checked. -/
def Guarded.scribe : Scribe Guarded where
  report n := report n
  bindingName := bindingName?
  generated := return (← getThe Names).generated
  index position := check position.ppred
  codeAtom text := check (codeAtom? text)
  opened depth := check ((fits32? depth).map fun _ => ())

/-- The body of a rule from a place in its code on, with every step checked. -/
def Rule.bodyFrom? (r : Rule) (c : BodyCursor) (code : List Symbol) : Guarded String :=
  r.bodyFromBy Guarded.scribe c code

/-- The document that a grammar becomes, with every step checked. -/
def Grammar.document? (layout : Layout) (g : Grammar) : Guarded String := g.documentBy Guarded.scribe layout

/-! ## What they do -/

/-- A number below the bound fits. -/
lemma fits32?_eq {n : Int} (h : n.natAbs < 2 ^ 31) : fits32? n = some n := by
  have least : Int32.minValue.toInt = -2147483648 := rfl
  have greatest : Int32.maxValue.toInt = 2147483647 := rfl
  refine if_pos ?_
  omega

/-- A guarded call for a name does what the call does. -/
lemma bindingName?_does (text : String) : Does (bindingName? text) (bindingName text) := by
  have bare : slice? (literal text) 1 (literal text).utf8ByteSize = some (requoted text) :=
    slice?_from ":" (requoted text)
  rw [bindingName]
  exact Does.checked bare rfl

/-- An atom with both its quotes can be written without them. -/
lemma codeAtom?_eq {text : String} {u : List Char} (quoted : text.toList = '\'' :: u ++ ['\'']) :
    codeAtom? text = some (codeAtom text) := by
  have whole : text = "'" ++ String.ofList u ++ "'" := by
    rw [← String.ofList_toList (s := text), quoted, String.ofList_append, String.ofList_cons]
    rfl
  have inner : slice? text 1 ("'" ++ String.ofList u).utf8ByteSize = some (String.ofList u) := by
    rw [whole]
    exact slice?_middle "'" _ "'"
  have bytes : text.utf8ByteSize = ("'" ++ String.ofList u).utf8ByteSize + 1 := by
    rw [whole]
    exact String.utf8ByteSize_append
  have ends : text.toList.head? = some '\'' ∧ text.toList.getLast? = some '\'' := by
    rw [quoted]
    exact ⟨rfl, List.getLast?_concat⟩
  have two : 2 ≤ text.utf8ByteSize := by
    rw [bytes, String.utf8ByteSize_append]
    have : "'".utf8ByteSize = 1 := rfl
    omega
  have stop : text.utf8ByteSize.ppred = some ("'" ++ String.ofList u).utf8ByteSize := by
    rw [bytes]
    rfl
  have between : unquoted text = u := by
    rw [unquoted, quoted]
    simp
  rw [codeAtom?, if_pos ⟨two, ends⟩, stop, Option.bind_eq_bind, Option.bind_some, inner,
    Option.bind_eq_bind, Option.bind_some, codeAtom, between, String.toList_ofList]
  split
  · rw [String.ofList_cons]
    rfl
  · rw [String.ofList_append, String.ofList_cons, String.ofList_cons, ← String.append_assoc]
    rfl

/-- A lone quote is no quoted atom. -/
example : codeAtom? "'" = none := by decide +kernel

/-- A quoted atom is an atom that starts with a single quote. -/
lemma Symbol.isQuotedAtom_iff {s : Symbol} :
    s.isQuotedAtom = true ↔ s.kind = .atom ∧ s.text.toList.head? = some '\'' := by
  rw [isQuotedAtom, Bool.and_eq_true, beq_iff_eq, beq_iff_eq]

/-- A quoted atom in code ends with the quote it starts with. -/
def Symbol.Closed (s : Symbol) : Prop :=
  s.isQuotedAtom → ∃ u, s.text.toList = '\'' :: u ++ ['\'']

/-- The code of a rule has only quoted atoms that are closed, and fewer symbols than numbers of 32 bits can
count. -/
structure Rule.Writable (r : Rule) : Prop where
  closed : ∀ s ∈ r.code, s.Closed
  short : r.code.length < 2 ^ 31

/-- An atom that starts with a quote is closed if what follows the quote ends with one. -/
lemma Symbol.closed_iff {s : Symbol} :
    s.Closed ↔ (s.isQuotedAtom → s.text.toList.tail.getLast? = some '\'') := by
  refine forall_congr' fun quoted => ?_
  rw [isQuotedAtom_iff, List.head?_eq_some_iff] at quoted
  obtain ⟨_, rest, text⟩ := quoted
  rw [text, List.tail_cons, List.getLast?_eq_some_iff]
  simp

instance {s : Symbol} : Decidable s.Closed := decidable_of_iff _ Symbol.closed_iff.symm

instance {r : Rule} : Decidable r.Writable :=
  decidable_of_iff ((∀ s ∈ r.code, s.Closed) ∧ r.code.length < 2 ^ 31)
    ⟨fun h => ⟨h.1, h.2⟩, fun h => ⟨h.closed, h.short⟩⟩

/-- A symbol opens or closes at most one bracket. -/
lemma Symbol.natAbs_nesting_le (s : Symbol) : s.nesting.natAbs ≤ 1 := by
  rw [nesting]
  repeat' split
  all_goals decide

/-- No more brackets are open in code than it has symbols. -/
lemma natAbs_le_of_mem_depthsFrom {depth open' : Int} {code : List Symbol} (mem : open' ∈ depthsFrom depth code) :
    open'.natAbs ≤ depth.natAbs + code.length := by
  induction code generalizing depth with
  | nil =>
    obtain rfl := List.mem_singleton.1 mem
    exact Nat.le_refl _
  | cons s code ih =>
    rw [depthsFrom, List.map_cons, List.scanl_cons, List.mem_cons] at mem
    rcases mem with rfl | later
    · omega
    · have := ih later
      have := s.natAbs_nesting_le
      rw [List.length_cons]
      omega

/-- A check of every step makes no difference to atoms in quotes, and to numbers of brackets that fit. -/
lemma Guarded.scribe_matches : Scribe.Matches (fun _ => Does)
    (fun text => ∃ u, text.toList = '\'' :: u ++ ['\'']) (fun depth => depth.natAbs < 2 ^ 31)
    Guarded.scribe Naming.scribe where
  pure _ := .pure _
  bind := Does.bind
  report _ := .report _
  bindingName text := by
    rw [Guarded.scribe, scribe_bindingName]
    exact bindingName?_does text
  index counted := .check (Nat.ppred_eq_some.2 (Nat.succ_pred_eq_of_pos counted))
  codeAtom closed := by
    obtain ⟨u, chars⟩ := closed
    show Does (check (codeAtom? _)) (return codeAtom _)
    exact .check (codeAtom?_eq chars)
  opened fits := by
    refine Does.check ?_
    rw [fits32?_eq fits]
    rfl

/-- A rule that can be written keeps to what the checks let pass. -/
lemma Rule.Writable.within {r : Rule} (writable : r.Writable) : r.Within
    (fun text => ∃ u, text.toList = '\'' :: u ++ ['\'']) (fun depth => depth.natAbs < 2 ^ 31) where
  atoms := writable.closed
  depths := by
    intro depth mem
    have := natAbs_le_of_mem_depthsFrom mem
    have := writable.short
    rw [Int.natAbs_zero] at *
    omega

/-- The body of a rule that can be written is written without a failed check. -/
lemma Rule.body?_does {r : Rule} (writable : r.Writable) : Does (r.bodyFrom? .start r.code) r.body :=
  r.bodyFromBy_matches Guarded.scribe_matches .start writable.within.atoms writable.within.depths

/-- A document is written without a failed check. -/
theorem Grammar.document?_does (layout : Layout) {g : Grammar} (writable : ∀ r ∈ g.rules, r.Writable) :
    Does (g.document? layout) (g.document layout) :=
  documentBy_matches Guarded.scribe_matches rfl layout fun r mem => (writable r mem).within

end YeccDefr
