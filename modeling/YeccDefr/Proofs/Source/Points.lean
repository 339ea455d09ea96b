import Mathlib.Data.Prod.Lex
import YeccDefr.Proofs.Lexing.Lines

/-!
# Points along a text

Texts act on points: no text leaves a point where it is, and two texts one after the other move it like the text
that they make up. So a text moves a point the same way however it is cut into pieces (`Point.foldl_advance`).
A text that is not empty moves it ahead, in bytes as well as in lines and columns (`Point.before_advance`).
-/

namespace YeccDefr.Point

/-- A point stands before another one, by its index and by its line and column. -/
structure Before (p q : Point) : Prop where
  index : p.index < q.index
  /-- The lines decide, and on one line the columns. -/
  place : toLex (p.line, p.column) < toLex (q.line, q.column)

variable (p : Point)

/-- Pieces of a text move a point, one after the other, like the text. -/
lemma foldl_advance (pieces : List String) : pieces.foldl advance p = p.advance (String.join pieces) := by
  induction pieces generalizing p with
  | nil => rw [List.foldl_nil, String.join_nil, advance_empty]
  | cons piece pieces ih => rw [List.foldl_cons, ih, advance_append, String.join_cons]

/-- The index grows with every text but the empty one. -/
lemma index_lt_advance {text : String} (filled : text ≠ "") : p.index < (p.advance text).index := by
  have bytes : text.utf8ByteSize ≠ 0 := fun none => filled (String.utf8ByteSize_eq_zero_iff.1 none)
  show p.index < p.index + text.utf8ByteSize
  omega

/-- A line feed moves a point to a later line, and any other character moves it along its line. -/
lemma place_lt_advance {text : String} (filled : text ≠ "") :
    toLex (p.line, p.column) < toLex ((p.advance text).line, (p.advance text).column) := by
  rw [Prod.Lex.toLex_lt_toLex, advance]
  by_cases feed : '\n' ∈ text.toList
  · have := List.count_pos_iff.2 feed
    left
    dsimp only
    omega
  · have : 0 < text.toList.length := by
      apply List.length_pos_of_ne_nil
      exact fun none => filled (String.toList_eq_nil_iff.1 none)
    right
    rw [if_neg feed, List.count_eq_zero.2 feed]
    dsimp only
    omega

/-- Every text but the empty one leads to a later point. -/
lemma before_advance {text : String} (filled : text ≠ "") : p.Before (p.advance text) :=
  ⟨p.index_lt_advance filled, p.place_lt_advance filled⟩

/-- Advancing is an action of the texts on the points, whichever line, column and index a point has, and every
text but the empty one moves a point ahead. -/
theorem advance_acts :
    p.advance "" = p
      ∧ (∀ a b : String, p.advance (a ++ b) = (p.advance a).advance b)
      ∧ (∀ pieces : List String, pieces.foldl advance p = p.advance (String.join pieces))
      ∧ ∀ text : String, p.Before (p.advance text) ↔ text ≠ "" := by
  refine ⟨p.advance_empty, fun a b => (p.advance_append a b).symm, p.foldl_advance, fun text => ?_⟩
  constructor
  · rintro ahead rfl
    rw [advance_empty] at ahead
    exact Nat.lt_irrefl _ ahead.index
  · exact p.before_advance

/-- Lines count line feeds, columns count characters, and the index counts bytes. -/
example : (advance ⟨4, 2, 9⟩ "a\n\n  é", advance ⟨4, 2, 9⟩ "é") = (⟨6, 4, 16⟩, ⟨4, 3, 11⟩) := by
  decide +kernel

end YeccDefr.Point
