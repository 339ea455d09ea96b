import Mathlib.Data.List.DropRight
import YeccDefr.Proofs.Output.SymbolLists

/-!
# Quoted atoms in code

Code writes a quoted atom without quotes if what stands between them is a plain name (`plainNames`), and else in
double quotes, as it is written among the parameters. Whichever form it has, the colon and the double quotes around
it can be taken away (`shownName`), and what is left is what stood between the quotes of the atom
(`shownName_codeAtom`). So no two atoms are written alike (`quoted_atom_kept`).

Whether a name is plain can also be told by trimming, which looks at bytes instead of the number of marks
(`isPlainName_eq_trimmed`).
-/

namespace YeccDefr

/-! ## Plain names -/

/-- The names that need no quotes, `[a-z_][A-Za-z0-9_]*[?!]?`. -/
def plainNames : Language Char :=
  Token.Kind.names (fun c => c.isLower || c == '_') * (1 + {['?']} + {['!']})

/-- Whether a character can mark the end of a plain name. -/
def isNameMark (c : Char) : Bool := c == '?' || c == '!'

/-- A character of words is no mark at the end of a name. -/
lemma not_isNameMark {c : Char} (word : isWordChar c) : isNameMark c = false := by
  have question : isWordChar '?' = false := by decide
  have exclamation : isWordChar '!' = false := by decide
  rw [isNameMark, Bool.or_eq_false_iff, beq_eq_false_iff_ne, beq_eq_false_iff_ne]
  constructor
  · rintro rfl
    rw [question] at word
    cases word
  · rintro rfl
    rw [exclamation] at word
    cases word

/-- A character that can start a name belongs to words. -/
lemma isWordChar_of_first {c : Char} (first : (c.isLower || c == '_') = true) : isWordChar c := by
  rw [isWordChar, Bool.or_eq_true]
  rw [Bool.or_eq_true] at first
  refine first.imp_left fun lower => ?_
  show (c.isUpper || c.isLower || c.isDigit) = true
  rw [lower, Bool.or_true, Bool.true_or]

/-- A plain name is a first character, characters of words, and at most one mark at the end. -/
lemma mem_plainNames {cs : List Char} : cs ∈ plainNames ↔ ∃ c u marks, cs = c :: u ++ marks
    ∧ (c.isLower || c == '_') ∧ (∀ d ∈ u, isWordChar d)
    ∧ (marks = [] ∨ ∃ m, isNameMark m ∧ marks = [m]) := by
  rw [plainNames, Language.mem_mul]
  constructor
  · rintro ⟨_, ⟨c, u, rfl, first, words⟩, marks, ending, rfl⟩
    refine ⟨c, u, marks, rfl, first, words, ?_⟩
    rcases ending with (none | question) | exclamation
    · exact .inl none
    · exact .inr ⟨'?', rfl, question⟩
    · exact .inr ⟨'!', rfl, exclamation⟩
  · rintro ⟨c, u, marks, rfl, first, words, ending⟩
    refine ⟨c :: u, ⟨c, u, rfl, first, words⟩, marks, ?_, rfl⟩
    rcases ending with rfl | ⟨m, mark, rfl⟩
    · exact .inl (.inl rfl)
    · rw [isNameMark, Bool.or_eq_true, beq_iff_eq, beq_iff_eq] at mark
      rcases mark with rfl | rfl
      · exact .inl (.inr rfl)
      · exact .inr rfl

/-- The test for plain names decides their language. -/
lemma isPlainName_iff {cs : List Char} : isPlainName cs ↔ cs ∈ plainNames := by
  rw [mem_plainNames]
  constructor
  · intro plain
    cases cs with
    | nil => cases plain
    | cons c cs =>
      rw [isPlainName, Bool.and_eq_true] at plain
      obtain ⟨first, ending⟩ := plain
      have words : ∀ d ∈ cs.takeWhile isWordChar, isWordChar d := fun d => List.mem_takeWhile_imp
      refine ⟨c, cs.takeWhile isWordChar, cs.dropWhile isWordChar, ?_, first, words, ?_⟩
      · rw [List.cons_append, List.takeWhile_append_dropWhile]
      · split at ending
        case h_1 none => exact .inl none
        case h_2 m one => exact .inr ⟨m, ending, one⟩
        case h_3 => cases ending
  · rintro ⟨c, u, marks, rfl, first, words, ending⟩
    rw [List.cons_append, isPlainName, first, List.dropWhile_append_of_pos words, Bool.true_and]
    rcases ending with rfl | ⟨m, mark, rfl⟩
    · rfl
    · have stops : isWordChar m = false := by
        by_contra word
        rw [not_isNameMark (by simpa using word)] at mark
        cases mark
      rw [List.dropWhile_cons_of_neg (by simp [stops])]
      exact mark

/-- The test for plain names by trimming: all marks at the end are cut off, which may leave one byte less. -/
def isPlainTrimmed (text : String) : Bool :=
  match text.toList with
  | [] => false
  | c :: cs =>
    let rest := (c :: cs).rdropWhile isNameMark
    (c.isLower || c == '_') && decide (text.utf8ByteSize ≤ (String.ofList rest).utf8ByteSize + 1)
      && rest.all isWordChar

/-- Without the marks at its end a plain name has its words left. -/
lemma rdropWhile_name {c : Char} {u marks : List Char} (words : ∀ d ∈ c :: u, isWordChar d)
    (ending : marks = [] ∨ ∃ m, isNameMark m ∧ marks = [m]) :
    (c :: u ++ marks).rdropWhile isNameMark = c :: u := by
  have name : (c :: u).rdropWhile isNameMark = c :: u := by
    rw [List.rdropWhile_eq_self_iff]
    intro filled
    simp [not_isNameMark (words _ (List.getLast_mem filled))]
  rcases ending with rfl | ⟨m, mark, rfl⟩
  · rw [List.append_nil, name]
  · rw [List.rdropWhile_concat_pos _ _ _ mark, name]

/-- More than one character takes more than one byte. -/
lemma one_byte {cs : List Char} (small : (String.ofList cs).utf8ByteSize ≤ 1) : cs = [] ∨ ∃ c, cs = [c] := by
  cases cs with
  | nil => exact .inl rfl
  | cons c cs =>
    cases cs with
    | nil => exact .inr ⟨c, rfl⟩
    | cons d cs =>
      rw [String.ofList_cons, String.ofList_cons, String.utf8ByteSize_append, String.utf8ByteSize_append,
        String.utf8ByteSize_singleton, String.utf8ByteSize_singleton] at small
      have := c.utf8Size_pos
      have := d.utf8Size_pos
      omega

/-- The test that trims the marks decides the same language. -/
lemma isPlainTrimmed_iff {text : String} : isPlainTrimmed text ↔ text.toList ∈ plainNames := by
  rw [mem_plainNames, isPlainTrimmed]
  constructor
  · intro plain
    split at plain
    case h_1 => cases plain
    case h_2 c cs chars =>
      rw [Bool.and_eq_true, Bool.and_eq_true, decide_eq_true_eq, List.all_eq_true] at plain
      obtain ⟨⟨first, bytes⟩, words⟩ := plain
      have parts := List.rdropWhile_append_rtakeWhile (p := isNameMark) (l := c :: cs)
      have marks : ∀ m ∈ (c :: cs).rtakeWhile isNameMark, isNameMark m := fun m => List.mem_rtakeWhile_imp
      generalize (c :: cs).rdropWhile isNameMark = rest at bytes words parts
      generalize (c :: cs).rtakeWhile isNameMark = ending at marks parts
      have few : ending = [] ∨ ∃ m, ending = [m] := by
        apply one_byte
        have whole : text = String.ofList rest ++ String.ofList ending := by
          rw [← String.ofList_append, parts, ← chars, String.ofList_toList]
        rw [whole, String.utf8ByteSize_append] at bytes
        omega
      cases rest with
      | nil =>
        -- the first character would be a mark
        rw [List.nil_append] at parts
        have mark := marks c (parts ▸ List.mem_cons_self)
        rw [not_isNameMark (isWordChar_of_first first)] at mark
        cases mark
      | cons d u =>
        obtain ⟨rfl, rfl⟩ := List.cons.inj parts
        refine ⟨d, u, ending, chars, first, fun e mem => words e (List.mem_cons_of_mem _ mem), ?_⟩
        rcases few with none | ⟨m, rfl⟩
        · exact .inl none
        · exact .inr ⟨m, marks m (List.mem_singleton_self m), rfl⟩
  · rintro ⟨c, u, marks, chars, first, words, ending⟩
    have words : ∀ d ∈ c :: u, isWordChar d := List.forall_mem_cons.2 ⟨isWordChar_of_first first, words⟩
    have bytes : (String.ofList marks).utf8ByteSize ≤ 1 := by
      rcases ending with rfl | ⟨m, mark, rfl⟩
      · decide
      · rw [isNameMark, Bool.or_eq_true, beq_iff_eq, beq_iff_eq] at mark
        rcases mark with rfl | rfl
        · decide
        · decide
    have whole : text.utf8ByteSize =
        (String.ofList (c :: u)).utf8ByteSize + (String.ofList marks).utf8ByteSize := by
      rw [← String.utf8ByteSize_append, ← String.ofList_append, ← chars, String.ofList_toList]
    rw [chars]
    dsimp only [List.cons_append]
    rw [← List.cons_append, rdropWhile_name words ending, first, List.all_eq_true.2 words, Bool.true_and,
      Bool.and_true, decide_eq_true_eq, whole]
    omega

/-- Trimming tells the plain names. -/
theorem isPlainName_eq_trimmed (text : String) : isPlainName text.toList = isPlainTrimmed text := by
  rw [Bool.eq_iff_iff, isPlainName_iff, isPlainTrimmed_iff]

/-! ## Atoms in code and among the parameters -/

/-- What a written atom shows: the colon is taken away, and the double quotes around the rest if there are any. -/
def shownName (written : String) : String :=
  let name := written.toList.tail
  if 2 ≤ name.length ∧ name.head? = some '"' ∧ name.getLast? = some '"' then
    String.ofList name.tail.dropLast
  else String.ofList name

/-- Between the quotes of a quoted atom is its word. -/
lemma unquoted_quotedAtom (inner : String) : unquoted (quotedAtom inner) = inner.toList := by
  simp [unquoted, quotedAtom]

/-- A quoted atom is written in code as its word behind a colon, in quotes unless this is a plain name. -/
lemma codeAtom_quotedAtom (inner : String) : codeAtom (quotedAtom inner) =
    if isPlainName inner.toList then ":" ++ inner else ":\"" ++ inner ++ "\"" := by
  rw [codeAtom, unquoted_quotedAtom]
  split
  · apply String.toList_injective
    simp
  · apply String.toList_injective
    simp

/-- A quoted atom is listed as its word in double quotes. -/
lemma literal_quotedAtom {inner : String} (inside : '\'' ∉ inner.toList) :
    literal (quotedAtom inner) = ":\"" ++ inner ++ "\"" := by
  rw [literal, requoted_quotedAtom, requoted_of_notMem inside, ← String.append_assoc, ← String.append_assoc]
  rfl

/-- A plain name has no quotes that could be taken away. -/
lemma shownName_plain {inner : String} (plain : isPlainName inner.toList) : shownName (":" ++ inner) = inner := by
  have name : (":" ++ inner).toList.tail = inner.toList := by simp
  have bare : inner.toList.head? ≠ some '"' := by
    obtain ⟨c, u, marks, chars, first, -⟩ := mem_plainNames.1 (isPlainName_iff.1 plain)
    rw [chars]
    rintro e
    cases Option.some.inj e
    cases first
  rw [shownName, name, if_neg fun quotes => bare quotes.2.1, String.ofList_toList]

/-- The word can be read back from its quoted form. -/
lemma shownName_quoted (inner : String) : shownName (":\"" ++ inner ++ "\"") = inner := by
  have name : (":\"" ++ inner ++ "\"").toList.tail = '"' :: inner.toList ++ ['"'] := by simp
  rw [shownName, name, if_pos ⟨by simp, rfl, List.getLast?_concat⟩, List.cons_append, List.tail_cons,
    List.dropLast_concat, String.ofList_toList]

/-- Code shows of an atom what stands between its quotes. -/
lemma shownName_codeAtom (inner : String) : shownName (codeAtom (quotedAtom inner)) = inner := by
  rw [codeAtom_quotedAtom]
  split
  case isTrue plain => exact shownName_plain plain
  case isFalse => exact shownName_quoted inner

/-- The two forms of a word differ. -/
lemma bare_ne_quoted (inner : String) : ":" ++ inner ≠ ":\"" ++ inner ++ "\"" := by
  intro same
  have lengths := congrArg String.length same
  rw [String.length_append, String.length_append, String.length_append] at lengths
  have : ":".length = 1 ∧ ":\"".length = 2 := ⟨rfl, rfl⟩
  omega

/-- How the quoted atom of a word without quotes is written. -/
structure AtomKept (inner : String) : Prop where
  /-- In code it stands without quotes where it is a plain name as a whole. -/
  bare : codeAtom (quotedAtom inner) = ":" ++ inner ↔ inner.toList ∈ plainNames
  quoted : codeAtom (quotedAtom inner) = ":\"" ++ inner ++ "\"" ↔ inner.toList ∉ plainNames
  /-- Among the parameters it always stands in quotes. -/
  parameter : literal (quotedAtom inner) = ":\"" ++ inner ++ "\""
  /-- Both show the same name. -/
  shown : shownName (codeAtom (quotedAtom inner)) = inner ∧ shownName (literal (quotedAtom inner)) = inner
  /-- In code it is written like no other atom. -/
  own : ∀ other, codeAtom (quotedAtom other) = codeAtom (quotedAtom inner) → other = inner

/-- A quoted atom without a single quote inside can be told from how it is written, in code and among the
parameters. -/
theorem quoted_atom_kept {inner : String} (inside : '\'' ∉ inner.toList) : AtomKept inner where
  bare := by
    rw [codeAtom_quotedAtom, ← isPlainName_iff]
    split
    case isTrue plain => exact iff_of_true rfl plain
    case isFalse other => exact iff_of_false (bare_ne_quoted inner).symm other
  quoted := by
    rw [codeAtom_quotedAtom, ← isPlainName_iff]
    split
    case isTrue plain => exact iff_of_false (bare_ne_quoted inner) (not_not_intro plain)
    case isFalse other => exact iff_of_true rfl other
  parameter := literal_quotedAtom inside
  shown := by
    rw [literal_quotedAtom inside]
    exact ⟨shownName_codeAtom inner, shownName_quoted inner⟩
  own := by
    intro other same
    rw [← shownName_codeAtom other, same, shownName_codeAtom]

/-- A second mark makes a name one that needs quotes, and so does a letter that is not ASCII. -/
theorem quoted_atom_kept_marks :
    '\'' ∉ "ok?".toList ∧ '\'' ∉ "ok?!".toList ∧ '\'' ∉ "é".toList
      ∧ codeAtom "'ok?'" = ":ok?" ∧ codeAtom "'ok?!'" = ":\"ok?!\"" ∧ codeAtom "'é'" = ":\"é\"" := by
  have one : '\'' ∉ "ok?".toList := by decide +kernel
  have two : '\'' ∉ "ok?!".toList := by decide +kernel
  have accent : '\'' ∉ "é".toList := by decide +kernel
  refine ⟨one, two, accent, (quoted_atom_kept one).bare.2 ?_, (quoted_atom_kept two).quoted.2 ?_,
    (quoted_atom_kept accent).quoted.2 ?_⟩
  · rw [← isPlainName_iff]
    decide +kernel
  · rw [← isPlainName_iff]
    decide +kernel
  · rw [← isPlainName_iff]
    decide +kernel

end YeccDefr
