import Mathlib.Tactic.Lemma
import YeccDefr.Grammar.Symbol

/-!
# Placeholders

A placeholder is printed as the digits of its position behind a dollar sign, between quotes
(`Symbol.placeholderText`). Digits that do not start with a zero are the digits of the number that they make
(`toDigits_ofDigitChars`), so a position can be read from one text only, and this is the text that it is printed
as. Nothing else is read as a placeholder, and every position from 1 up to the bound is
(`Symbol.placeholder?_exact`).
-/

namespace YeccDefr

/-! ## Decimal digits -/

/-- A decimal digit is the character of a number below ten. -/
lemma eq_digitChar {c : Char} (digit : c.isDigit) : ∃ d < 10, c = Nat.digitChar d := by
  obtain ⟨least, greatest⟩ := Char.isDigit_iff_toNat.1 digit
  have zero : '0'.toNat = 48 := rfl
  have nine : '9'.toNat = 57 := rfl
  have small : c.toNat - 48 < 10 := by omega
  refine ⟨c.toNat - 48, small, ?_⟩
  apply Char.toNat_inj.1
  rw [Nat.toNat_digitChar_of_lt_ten small]
  omega

/-- The digits behind a positive number are the last ones of the number that they go on to make. -/
lemma toDigits_ofDigitChars_behind {n : Nat} {digits : List Char} (pos : 0 < n)
    (all : ∀ c ∈ digits, c.isDigit) :
    Nat.toDigits 10 (Nat.ofDigitChars 10 digits n) = Nat.toDigits 10 n ++ digits := by
  induction digits generalizing n with
  | nil => rw [Nat.ofDigitChars_nil, List.append_nil]
  | cons c digits ih =>
    rw [List.forall_mem_cons] at all
    obtain ⟨d, small, rfl⟩ := eq_digitChar all.1
    have more : 0 < 10 * n + d := by omega
    have last : Nat.toDigits 10 (10 * n + d) = Nat.toDigits 10 n ++ [d.digitChar] := by
      rw [← Nat.toDigits_append_toDigits (by decide) pos small, Nat.toDigits_of_lt_base small]
    rw [Nat.ofDigitChars_cons_digitChar_of_lt_ten small, ih more all.2, last, List.append_assoc,
      List.singleton_append]

/-- Digits without a zero in front are the digits of the number that they make. -/
lemma toDigits_ofDigitChars {c : Char} {digits : List Char} (all : ∀ d ∈ c :: digits, d.isDigit)
    (first : c ≠ '0') :
    Nat.toDigits 10 (Nat.ofDigitChars 10 (c :: digits) 0) = c :: digits := by
  rw [List.forall_mem_cons] at all
  obtain ⟨d, small, rfl⟩ := eq_digitChar all.1
  have pos : 0 < d := by
    apply Nat.pos_of_ne_zero
    exact fun zero => first (Nat.digitChar_eq_zero.2 zero)
  rw [Nat.ofDigitChars_cons_digitChar_of_lt_ten small, Nat.mul_zero, Nat.zero_add,
    toDigits_ofDigitChars_behind pos all.2, Nat.toDigits_of_lt_base small, List.singleton_append]

/-- The digits of a positive number do not start with a zero. -/
lemma head?_toDigits_ne_zero {n : Nat} (pos : 0 < n) : (Nat.toDigits 10 n).head? ≠ some '0' := by
  induction n using Nat.strongRecOn with
  | ind n ih =>
    rcases Nat.lt_or_ge n 10 with small | large
    · rw [Nat.toDigits_of_lt_base small]
      intro zero
      have := Nat.digitChar_eq_zero.1 (Option.some.inj zero)
      omega
    · obtain ⟨c, digits, front⟩ := List.exists_cons_of_ne_nil (Nat.toDigits_ne_nil (n := n / 10) (b := 10))
      have first := ih (n / 10) (by omega) (by omega)
      rw [front] at first
      rw [Nat.toDigits_of_base_le (by decide) large, front]
      exact first

namespace Symbol

/-! ## Reading and printing -/

/-- The text of the placeholder for a position. -/
def placeholderText (n : Nat) : String := "'$" ++ toString n ++ "'"

/-- A symbol denotes a position if it is the atom that this position is printed as. -/
structure Denotes (s : Symbol) (n : Nat) : Prop where
  atom : s.kind = .atom
  pos : 1 ≤ n
  /-- Positions have 64 bits. -/
  bounded : n < UInt64.size
  text : s.text = placeholderText n

instance {s : Symbol} {n : Nat} : Decidable (s.Denotes n) :=
  decidable_of_iff (s.kind = .atom ∧ 1 ≤ n ∧ n < UInt64.size ∧ s.text = placeholderText n)
    ⟨fun ⟨atom, pos, bounded, text⟩ => ⟨atom, pos, bounded, text⟩,
      fun h => ⟨h.atom, h.pos, h.bounded, h.text⟩⟩

/-- The text of a position is its digits behind a dollar sign, in single quotes. -/
lemma toList_placeholderText (n : Nat) :
    (placeholderText n).toList = '\'' :: '$' :: Nat.toDigits 10 n ++ ['\''] := by
  rw [placeholderText, Nat.toString_eq_ofList_toDigits]
  simp

/-- Different positions have different texts. -/
lemma placeholderText_injective {m n : Nat} (same : placeholderText m = placeholderText n) : m = n := by
  have chars := congrArg String.toList same
  rw [toList_placeholderText, toList_placeholderText, List.append_cancel_right_eq] at chars
  have digits : Nat.toDigits 10 m = Nat.toDigits 10 n := (List.cons.inj (List.cons.inj chars).2).2
  rw [← Nat.ofDigitChars_ten_toDigits (n := m), digits, Nat.ofDigitChars_ten_toDigits]

/-- The digits of a text are what stands between the dollar sign and the closing quote. -/
lemma placeholderDigits?_eq_some {cs digits : List Char} :
    placeholderDigits? cs = some digits ↔ cs = '\'' :: '$' :: digits ++ ['\''] := by
  constructor
  · intro h
    unfold placeholderDigits? at h
    split at h
    case h_1 cs =>
      split at h
      case isTrue ends =>
        obtain ⟨front, rfl⟩ := List.getLast?_eq_some_iff.1 ends
        rw [List.dropLast_concat] at h
        cases h
        rfl
      case isFalse => cases h
    case h_2 => cases h
  · rintro rfl
    rw [List.cons_append, List.cons_append, placeholderDigits?, if_pos List.getLast?_concat, List.dropLast_concat]

/-- A placeholder is an atom with the digits of its position in its text. -/
lemma Denotes.of_placeholder? {s : Symbol} {n : Nat} (h : s.placeholder? = some n) : s.Denotes n := by
  rw [placeholder?] at h
  split at h
  case isFalse => cases h
  case isTrue atom =>
    cases digits? : placeholderDigits? s.text.toList with
    | none =>
      rw [digits?] at h
      cases h
    | some digits =>
      rw [digits?] at h
      dsimp only at h
      split at h
      case isFalse => cases h
      case isTrue valid =>
        obtain ⟨nonempty, all, first, bounded⟩ := valid
        cases h
        obtain ⟨c, digits, rfl⟩ := List.exists_cons_of_ne_nil nonempty
        have first : c ≠ '0' := fun zero => first (congrArg some zero)
        have printed := toDigits_ofDigitChars (List.all_eq_true.1 all) first
        refine ⟨atom, ?_, bounded, ?_⟩
        · apply Nat.pos_of_ne_zero
          intro zero
          rw [zero, Nat.toDigits_zero] at printed
          exact first (List.cons.inj printed).1.symm
        · apply String.toList_injective
          rw [toList_placeholderText, printed]
          exact placeholderDigits?_eq_some.1 digits?

/-- What a position is printed as is read as this position. -/
lemma Denotes.placeholder? {s : Symbol} {n : Nat} (h : s.Denotes n) : s.placeholder? = some n := by
  have digits? : placeholderDigits? s.text.toList = some (Nat.toDigits 10 n) := by
    rw [placeholderDigits?_eq_some, h.text, toList_placeholderText]
  have all : (Nat.toDigits 10 n).all Char.isDigit := by
    rw [List.all_eq_true]
    intro c mem
    exact Nat.isDigit_of_mem_toDigits (by decide) (by decide) mem
  rw [Symbol.placeholder?, if_pos h.atom, digits?]
  dsimp only
  rw [Nat.ofDigitChars_ten_toDigits, if_pos]
  exact ⟨Nat.toDigits_ne_nil, all, head?_toDigits_ne_zero h.pos, h.bounded⟩

/-- A symbol is read as a position exactly if it denotes this position. -/
lemma placeholder?_eq_some {s : Symbol} {n : Nat} : s.placeholder? = some n ↔ s.Denotes n :=
  ⟨Denotes.of_placeholder?, Denotes.placeholder?⟩

section
variable {s : Symbol} {n : Nat} (h : s.placeholder? = some n)
include h

/-- Positions count from 1. -/
lemma placeholder?_pos : 0 < n := (Denotes.of_placeholder? h).pos

/-- What is read as a position is an atom. -/
lemma kind_of_placeholder? : s.kind = .atom := (Denotes.of_placeholder? h).atom

/-- What is read as a position has digits behind a dollar sign, in single quotes. -/
lemma text_of_placeholder? : ∃ digits, s.text.toList = '\'' :: '$' :: digits ++ ['\''] := by
  rw [(Denotes.of_placeholder? h).text, toList_placeholderText]
  exact ⟨_, rfl⟩

end

/-- A symbol is read as a placeholder for a position exactly if it is the atom that this position is printed as,
and so reading is the inverse of printing on the positions from 1 up to the bound. -/
theorem placeholder?_exact (s : Symbol) :
    (∀ n, s.placeholder? = some n ↔ s.Denotes n)
      ∧ (s.placeholder? = none ↔ ∀ n, ¬ s.Denotes n)
      ∧ s.placeholder? ≠ some 0
      ∧ (∀ n, ({ s with kind := .atom, text := placeholderText n } : Symbol).placeholder? =
          if 1 ≤ n ∧ n < UInt64.size then some n else none)
      ∧ ∀ (t : Symbol) (n : Nat), s.placeholder? = some n → t.placeholder? = some n → s.text = t.text := by
  refine ⟨fun n => placeholder?_eq_some, ?_, ?_, ?_, ?_⟩
  · rw [Option.eq_none_iff_forall_ne_some]
    exact forall_congr' fun n => not_congr placeholder?_eq_some
  · intro zero
    have := (Denotes.of_placeholder? zero).pos
    omega
  · intro n
    split
    case isTrue range => exact Denotes.placeholder? ⟨rfl, range.1, range.2, rfl⟩
    case isFalse out =>
      rw [Option.eq_none_iff_forall_ne_some]
      intro m read
      have denotes := Denotes.of_placeholder? read
      rw [placeholderText_injective denotes.text] at out
      exact out ⟨denotes.pos, denotes.bounded⟩
  · intro t n first second
    rw [(Denotes.of_placeholder? first).text, (Denotes.of_placeholder? second).text]

/-- The greatest position that is read, and the one behind it. -/
theorem placeholder?_exact_greatest :
    (⟨.atom, "'$18446744073709551615'", default, false⟩ : Symbol).placeholder? = some 18446744073709551615
      ∧ (⟨.atom, "'$18446744073709551616'", default, true⟩ : Symbol).placeholder? = none := by
  have printed : placeholderText 18446744073709551616 = "'$18446744073709551616'" := by decide +kernel
  constructor
  · apply ((placeholder?_exact _).1 _).2
    exact ⟨rfl, by decide, by decide, by decide +kernel⟩
  · apply (placeholder?_exact _).2.1.2
    intro n denotes
    have same := placeholderText_injective (printed.trans denotes.text)
    have bounded := denotes.bounded
    rw [← same] at bounded
    exact Nat.lt_irrefl _ bounded

/-- A sign, a leading zero, a digit that is not ASCII or a second dollar sign is no part of a placeholder. -/
example : ["'$+1'", "'$01'", "'$٣'", "'$$1'", "'$'", "'$1"].map
    (fun text => (⟨.atom, text, default, false⟩ : Symbol).placeholder?) = List.replicate 6 none := by
  decide +kernel

end Symbol

end YeccDefr
