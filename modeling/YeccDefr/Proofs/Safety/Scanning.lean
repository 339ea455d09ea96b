import YeccDefr.Proofs.Lexing.Placement

/-!
# Scanning within bounds

A scanner that works on byte offsets can go wrong: an offset may lie beyond the text or inside a character,
and a rule may be looked up behind the table of rules. The guarded scan `Scan.guarded?` works on offsets and
checks each of them; it has no value where a check fails, or where it takes more rounds than the text has
characters. It always has a value, and that is the scan of the text (`Scan.guarded?_eq`).
-/

namespace YeccDefr

/-! ## Slices -/

/-- The part of a text between two byte offsets. There is none if the first one is behind the second one, or
if one of them is beyond the text or inside a character. -/
def slice? (text : String) (start stop : Nat) : Option String :=
  if start ≤ stop ∧ (⟨start⟩ : String.Pos.Raw).IsValid text
      ∧ (⟨stop⟩ : String.Pos.Raw).IsValid text then
    String.fromUTF8? (slice text start stop)
  else none

/-- A slice between two offsets of characters can be taken. -/
lemma slice?_middle (a b c : String) :
    slice? (a ++ b ++ c) a.utf8ByteSize (a ++ b).utf8ByteSize = some b := by
  have start : (⟨a.utf8ByteSize⟩ : String.Pos.Raw).IsValid (a ++ b ++ c) :=
    String.Pos.Raw.isValid_iff_exists_append.2 ⟨a, b ++ c, String.append_assoc, rfl⟩
  have stop : (⟨(a ++ b).utf8ByteSize⟩ : String.Pos.Raw).IsValid (a ++ b ++ c) :=
    String.Pos.Raw.isValid_iff_exists_append.2 ⟨a ++ b, c, rfl, rfl⟩
  have order : a.utf8ByteSize ≤ (a ++ b).utf8ByteSize := by
    rw [String.utf8ByteSize_append]
    omega
  rw [slice?, if_pos ⟨order, start, stop⟩, slice_middle, String.fromUTF8?, dif_pos b.isValidUTF8]
  rfl

/-- The end of a text can be taken from the offset of a character. -/
lemma slice?_from (a b : String) : slice? (a ++ b) a.utf8ByteSize (a ++ b).utf8ByteSize = some b := by
  have middle := slice?_middle a b ""
  rwa [String.append_empty] at middle

/-- The start of a text can be taken up to the offset of a character. -/
lemma slice?_to (a b : String) : slice? (a ++ b) 0 a.utf8ByteSize = some a := by
  have middle := slice?_middle "" a b
  rwa [String.empty_append] at middle

/-- The second byte of a character is not the start of one. -/
example : slice? "é" 1 2 = none := by decide +kernel

/-! ## Points -/

/-- The byte offset of the last line feed. -/
def lastLineFeed? : List Char → Option Nat
  | [] => none
  | c :: cs =>
    match lastLineFeed? cs with
    | some k => some (c.utf8Size + k)
    | none => if c = '\n' then some 0 else none

/-- No line feed is found where there is none. -/
lemma lastLineFeed?_eq_none {cs : List Char} (h : lastLineFeed? cs = none) : '\n' ∉ cs := by
  induction cs with
  | nil => exact List.not_mem_nil
  | cons c cs ih =>
    rw [lastLineFeed?] at h
    cases later : lastLineFeed? cs with
    | some k =>
      rw [later] at h
      cases h
    | none =>
      rw [later] at h
      dsimp only at h
      split at h
      · cases h
      · rename_i other
        exact List.not_mem_cons_of_ne_of_not_mem (Ne.symm other) (ih later)

/-- The last line feed is found at its offset. -/
lemma lastLineFeed?_eq_some {cs : List Char} {k : Nat} (h : lastLineFeed? cs = some k) :
    ∃ front line, cs = front ++ '\n' :: line ∧ '\n' ∉ line
      ∧ k = (String.ofList front).utf8ByteSize := by
  induction cs generalizing k with
  | nil => cases h
  | cons c cs ih =>
    rw [lastLineFeed?] at h
    cases later : lastLineFeed? cs with
    | some j =>
      rw [later] at h
      cases h
      obtain ⟨front, line, rfl, absent, rfl⟩ := ih later
      exact ⟨c :: front, line, rfl, absent, by
        rw [String.ofList_cons, String.utf8ByteSize_append, String.utf8ByteSize_singleton]⟩
    | none =>
      rw [later] at h
      dsimp only at h
      split at h
      · rename_i feed
        cases h
        cases feed
        exact ⟨[], cs, rfl, lastLineFeed?_eq_none later, rfl⟩
      · cases h

namespace Point

/-- The place right after a text that starts at a point, found with the offset of the last line feed. -/
def advance? (p : Point) (text : String) : Option Point :=
  match lastLineFeed? text.toList with
  | some k => do
    let line ← slice? text (k + 1) text.utf8ByteSize
    return ⟨p.line + text.toList.count '\n', line.toList.length + 1, p.index + text.utf8ByteSize⟩
  | none => some ⟨p.line, p.column + text.toList.length, p.index + text.utf8ByteSize⟩

/-- A point can be moved over every text. -/
lemma advance?_eq (p : Point) (text : String) : p.advance? text = some (p.advance text) := by
  rw [advance?, advance]
  cases h : lastLineFeed? text.toList with
  | none =>
    have absent := lastLineFeed?_eq_none h
    rw [if_neg absent, List.count_eq_zero.2 absent, Nat.add_zero]
  | some k =>
    obtain ⟨front, line, chars, absent, rfl⟩ := lastLineFeed?_eq_some h
    have whole : text = String.ofList (front ++ ['\n']) ++ String.ofList line := by
      rw [← String.ofList_append, List.append_assoc, List.singleton_append, ← chars,
        String.ofList_toList]
    have offset : (String.ofList front).utf8ByteSize + 1 =
        (String.ofList (front ++ ['\n'])).utf8ByteSize := by
      rw [String.ofList_append, String.utf8ByteSize_append]
      rfl
    have feed : '\n' ∈ text.toList := by simp [chars]
    have last : lastLine text.toList = line := by
      rw [chars, ← List.singleton_append, ← List.append_assoc, lastLine_append_of_notMem absent]
      simp [lastLine]
    have sliced : slice? text ((String.ofList front).utf8ByteSize + 1) text.utf8ByteSize =
        some (String.ofList line) := by
      rw [offset, whole]
      exact slice?_from _ _
    dsimp only
    rw [sliced, if_pos feed, last]
    simp

end Point

/-! ## Rules -/

namespace LexingRule

/-- Of two matches, each with the place of its rule, the one with more bytes, the later one of equals. -/
def longerAt (best? : Option (Nat × Lexeme)) (m : Nat × Lexeme) : Option (Nat × Lexeme) :=
  match best? with
  | none => some m
  | some best => if m.2.text.utf8ByteSize < best.2.text.utf8ByteSize then some best else some m

/-- What the rules take from the start of a text, each match with the place of its rule in the table. -/
def matchesOf (cs : List Char) : List (Nat × Lexeme) :=
  (table.zipIdx.filterMap fun r => (take? cs r.1).map fun l => (r.2, l)).filter (·.2.chars ≠ [])

/-- The place of the best rule in the table, and how many bytes it takes from the start of a text. -/
def best? (cs : List Char) : Option (Nat × Nat) :=
  ((matchesOf cs).foldl longerAt none).map fun m => (m.1, m.2.text.utf8ByteSize)

/-- Without the numbers of the rules the longest match is the best one. -/
lemma map_foldl_longerAt (best? : Option (Nat × Lexeme)) (ms : List (Nat × Lexeme)) :
    (ms.foldl longerAt best?).map Prod.snd = (ms.map Prod.snd).foldl longer (best?.map Prod.snd) := by
  induction ms generalizing best? with
  | nil => rfl
  | cons m ms ih =>
    rw [List.foldl_cons, ih, List.map_cons, List.foldl_cons]
    congr 1
    cases best? with
    | none => rfl
    | some best =>
      simp only [longerAt, longer, Option.map_some]
      split <;> rfl

/-- The longest match is one of the matches. -/
lemma mem_of_foldl_longerAt {best? : Option (Nat × Lexeme)} {ms : List (Nat × Lexeme)} {m}
    (h : ms.foldl longerAt best? = some m) : m ∈ ms ∨ best? = some m := by
  induction ms generalizing best? with
  | nil => exact .inr h
  | cons first ms ih =>
    rcases ih h with later | found
    · exact .inl (List.mem_cons_of_mem _ later)
    · cases best? with
      | none =>
        cases found
        exact .inl List.mem_cons_self
      | some best =>
        rw [longerAt] at found
        split at found
        · exact .inr found
        · cases found
          exact .inl List.mem_cons_self

/-- Without the numbers of the rules the matches are what the rules take. -/
lemma map_matchesOf (cs : List Char) :
    (matchesOf cs).map Prod.snd = (table.filterMap (take? cs)).filter (·.chars ≠ []) := by
  have taken : (table.zipIdx.filterMap fun r => (take? cs r.1).map fun l => (r.2, l)).map Prod.snd =
      table.filterMap (take? cs) := by
    conv_rhs => rw [← List.zipIdx_map_fst 0 table, List.filterMap_map]
    rw [List.map_filterMap]
    refine List.filterMap_congr fun r _ => ?_
    rw [Option.map_map]
    exact Option.map_id'
  rw [matchesOf, ← taken, List.filter_map]
  rfl

/-- A match has the number of a rule of its class. -/
lemma kind_of_mem_matchesOf {cs : List Char} {m : Nat × Lexeme} (h : m ∈ matchesOf cs) :
    ∃ r, table[m.1]? = some r ∧ r.kind = m.2.kind := by
  obtain ⟨mem, _⟩ := List.mem_filter.1 h
  obtain ⟨⟨r, i⟩, place, found⟩ := List.mem_filterMap.1 mem
  obtain ⟨l, taken, rfl⟩ := Option.map_eq_some_iff.1 found
  obtain ⟨w, _, rfl⟩ := Option.map_eq_some_iff.1 taken
  exact ⟨r, List.mem_zipIdx_iff_getElem?.1 place, rfl⟩

/-- There is no best match where no rule takes anything. -/
lemma best?_of_none {cs : List Char} (h : bestMatch? cs = none) : best? cs = none := by
  have all := map_foldl_longerAt none (matchesOf cs)
  rw [map_matchesOf, Option.map_none, ← bestMatch?, h, Option.map_eq_none_iff] at all
  rw [best?, all]
  rfl

/-- The best rule is one of the table, and takes the bytes of the best match. -/
lemma best?_of_some {cs : List Char} {l : Lexeme} (h : bestMatch? cs = some l) :
    ∃ i r, best? cs = some (i, l.text.utf8ByteSize) ∧ table[i]? = some r ∧ r.kind = l.kind := by
  have all := map_foldl_longerAt none (matchesOf cs)
  rw [map_matchesOf, Option.map_none, ← bestMatch?, h] at all
  obtain ⟨⟨i, l'⟩, found, rfl⟩ := Option.map_eq_some_iff.1 all
  rcases mem_of_foldl_longerAt found with mem | absent
  · obtain ⟨r, place, kind⟩ := kind_of_mem_matchesOf mem
    exact ⟨i, r, by rw [best?, found]; rfl, place, kind⟩
  · cases absent

end LexingRule

/-! ## Scans -/

namespace Scan

/-- Scans a text from a point on with all slices checked, in less than the given number of rounds. -/
def guardedIn? (text : String) : (rounds : Nat) → Point → Option Scan
  | 0, _ => none
  | rounds + 1, p => do
    let rest ← slice? text p.index text.utf8ByteSize
    if rest = "" then
      return ⟨[], none⟩
    match LexingRule.best? rest.toList with
    | none => return ⟨[], some (.ofRest p rest.toList)⟩
    | some (i, length) =>
      let matched ← slice? rest 0 length
      let stop ← p.advance? matched
      let rule ← LexingRule.table[i]?
      let later ← guardedIn? text rounds stop
      let token : Token := ⟨rule.kind, matched, ⟨p, stop⟩⟩
      return if token.isIgnored then later else later.after [token]

/-- Scans a text with all slices checked, in at most one round for each character. -/
def guarded? (text : String) : Option Scan :=
  guardedIn? text (text.toList.length + 1) .origin

/-- From a place in a text on, the guarded scan finds the lexemes of what is left. -/
lemma guardedIn?_of_munch {cs rest : List Char} {ls : List Lexeme} (munch : MaximalMunch cs ls rest)
    {before : String} {p : Point} (place : p.index = before.utf8ByteSize) {rounds : Nat}
    (enough : cs.length < rounds) :
    guardedIn? (before ++ String.ofList cs) rounds p = some
      { tokens := (placed p ls).filter fun token => !token.isIgnored
        error? := if rest.isEmpty then none else some (.ofRest (placeAfter p ls) rest) } := by
  obtain ⟨rounds, rfl⟩ : ∃ n, rounds = n + 1 := Nat.exists_eq_add_one.2 (by omega)
  induction munch generalizing before p rounds with
  | @stop cs none =>
    rw [guardedIn?, place, slice?_from]
    cases cs with
    | nil => rfl
    | cons c cs =>
      have unmatched := LexingRule.best?_of_none (LexingRule.bestMatch?_eq_none_iff.2 none)
      have left : String.ofList (c :: cs) ≠ "" := by simp
      rw [Option.bind_eq_bind, Option.bind_some, if_neg left, String.toList_ofList, unmatched]
      rfl
  | @next l ls cs rest longest munch ih =>
    obtain ⟨i, rule, best, found, kind⟩ :=
      LexingRule.best?_of_some (LexingRule.bestMatch?_eq_some_iff.2 longest)
    have whole : String.ofList (l.chars ++ cs) = l.text ++ String.ofList cs := String.ofList_append
    have left : String.ofList (l.chars ++ cs) ≠ "" := by simp [longest.ne_nil]
    have matched : slice? (String.ofList (l.chars ++ cs)) 0 l.text.utf8ByteSize = some l.text := by
      rw [whole]
      exact slice?_to _ _
    have stop : (p.advance l.text).index = (before ++ l.text).utf8ByteSize := by
      rw [String.utf8ByteSize_append, ← place]
      rfl
    have taken := List.length_pos_iff.2 longest.ne_nil
    rw [List.length_append] at enough
    obtain ⟨rounds, rfl⟩ : ∃ n, rounds = n + 1 := Nat.exists_eq_add_one.2 (by omega)
    have later := ih stop rounds (by omega)
    rw [String.append_assoc, ← whole] at later
    rw [guardedIn?, place, slice?_from]
    simp only [Option.bind_eq_bind, Option.bind_some, if_neg left, String.toList_ofList, best, matched,
      Point.advance?_eq, found, later, kind]
    cases ignored : l.kind.isIgnored with
    | true => simp [Token.isIgnored, ignored, placed, placeAfter, Region.ofText]
    | false => simp [Token.isIgnored, ignored, placed, placeAfter, Region.ofText, after]

/-- The guarded scan of a text never fails a check, and it is the scan of the text. -/
theorem guarded?_eq (text : String) : guarded? text = some (ofText text) := by
  have place : Point.origin.index = "".utf8ByteSize := rfl
  have scanned := guardedIn?_of_munch (Lexeme.cut_munches text.toList) place (Nat.lt_succ_self _)
  rw [String.empty_append, String.ofList_toList] at scanned
  exact scanned

end Scan

end YeccDefr
