import YeccDefr.Proofs.Lexing.Lines
import YeccDefr.Proofs.Lexing.RuleTable

/-!
# Where the tokens of a text stand

The lexemes of a text, one after the other, are the text up to the place where the scan ends
(`MaximalMunch.eq_append`), and every token is placed behind the lexemes before it
(`Scan.eq_of_mem_placed`). The lexemes between two tokens are ignored ones (`Scan.split_of_mem_gapEnds`), and
cutting their text by itself gives the same lexemes again (`MaximalMunch.middle`). So a scan loses nothing
of its text (`Scan.exact_ofText`).
-/

namespace YeccDefr

namespace Point

/-- The place behind the part of a text in front of it: the line counts its line feeds, the column its
characters after the last of them, and the index its bytes. -/
def behind (before : String) : Point where
  line := 1 + before.toList.count '\n'
  column := 1 + (lastLine before.toList).length
  index := before.utf8ByteSize

/-- A text without a line feed is its last line. -/
lemma lastLine_of_notMem {cs : List Char} (h : '\n' ∉ cs) : lastLine cs = cs := by
  have whole := lastLine_append_of_notMem (a := []) h
  rwa [List.nil_append] at whole

/-- A text leads from the start to the place behind it. -/
lemma origin_advance (before : String) : origin.advance before = behind before := by
  simp only [advance, origin, behind, Point.mk.injEq]
  refine ⟨trivial, ?_, Nat.zero_add _⟩
  split
  · exact Nat.add_comm _ _
  · rename_i absent
    rw [lastLine_of_notMem absent]

/-- A text leads from behind one text to behind both. -/
lemma behind_advance (before text : String) :
    (behind before).advance text = behind (before ++ text) := by
  rw [← origin_advance, advance_append, origin_advance]

end Point

namespace Lexeme

/-- The text of lexemes one after the other. -/
def joined (ls : List Lexeme) : String := String.ofList (ls.flatMap (·.chars))

/-- No lexemes have no text. -/
@[simp]
lemma joined_nil : joined [] = "" := rfl

/-- The text of lexemes starts with that of the first one. -/
@[simp]
lemma joined_cons (l : Lexeme) (ls : List Lexeme) : joined (l :: ls) = l.text ++ joined ls := by
  rw [joined, List.flatMap_cons, String.ofList_append, text, joined]

/-- The text of two lists of lexemes is that of one and then of the other. -/
@[simp]
lemma joined_append (ls ls' : List Lexeme) : joined (ls ++ ls') = joined ls ++ joined ls' := by
  rw [joined, List.flatMap_append, String.ofList_append, joined, joined]

/-- The text of lexemes has their characters. -/
lemma toList_joined (ls : List Lexeme) : (joined ls).toList = ls.flatMap (·.chars) :=
  String.toList_ofList

/-- The longest word at the start of a text is that of each first part that it fits into. -/
lemma Longest.of_prefix {cs cs' l} (h : Longest cs l) (part : cs' <+: cs) (fits : l.chars <+: cs') :
    Longest cs' l where
  word := h.word
  starts := fits
  longest := fun word starts => h.longest word (starts.trans part)

/-- A longest lexeme is not empty. -/
lemma Longest.ne_nil {cs l} (h : Longest cs l) : l.chars ≠ [] := by
  intro e
  have word := h.word
  rw [e] at word
  exact Token.Kind.nil_notMem_words word

end Lexeme

namespace MaximalMunch
variable {cs rest : List Char} {u v w : List Lexeme}

/-- The lexemes and what is left are the whole text. -/
lemma eq_append (h : MaximalMunch cs u rest) : cs = u.flatMap (·.chars) ++ rest := by
  induction h with
  | stop => rfl
  | next _ _ ih => rw [List.flatMap_cons, List.append_assoc, ← ih]

/-- No lexeme that is taken is empty. -/
lemma ne_nil (h : MaximalMunch cs u rest) : ∀ l ∈ u, l.chars ≠ [] := by
  induction h with
  | stop => nofun
  | next longest _ ih => exact List.forall_mem_cons.2 ⟨longest.ne_nil, ih⟩

/-- Behind some lexemes the munch goes on by itself. -/
lemma drop (h : MaximalMunch cs (u ++ v) rest) :
    MaximalMunch (v.flatMap (·.chars) ++ rest) v rest := by
  induction u generalizing cs with
  | nil =>
    rw [List.nil_append] at h
    rwa [← h.eq_append]
  | cons l u ih =>
    cases h with
    | next _ munch => exact ih munch

/-- The text of some lexemes is munched into the same lexemes, whatever stood behind them. -/
lemma take (h : MaximalMunch cs (u ++ v) rest) : MaximalMunch (u.flatMap (·.chars)) u [] := by
  induction u generalizing cs with
  | nil => exact .stop Lexeme.noWord_nil
  | cons l u ih =>
    cases h with
    | @next _ _ cs _ longest munch =>
      change MaximalMunch cs (u ++ v) rest at munch
      have part : u.flatMap (·.chars) <+: cs := by
        rw [munch.eq_append, List.flatMap_append, List.append_assoc]
        exact List.prefix_append _ _
      refine .next ?_ (ih munch)
      exact longest.of_prefix ((List.prefix_append_right_inj _).2 part) (List.prefix_append _ _)

/-- Lexemes are cut off their own text as they were cut off the whole one. -/
lemma middle (h : MaximalMunch cs (u ++ v ++ w) rest) :
    MaximalMunch (v.flatMap (·.chars)) v [] := by
  rw [List.append_assoc] at h
  exact h.drop.take

end MaximalMunch

/-- The bytes of a text from one offset up to, and not including, another one. -/
def slice (text : String) (start stop : Nat) : ByteArray := text.toByteArray.extract start stop

/-- A slice between two offsets is the text between them. -/
lemma slice_middle (a b c : String) :
    slice (a ++ b ++ c) a.utf8ByteSize (a ++ b).utf8ByteSize = b.toByteArray := by
  have behind : (a.toByteArray ++ (b.toByteArray ++ c.toByteArray)).extract
      (a.toByteArray.size + 0) (a.toByteArray.size + b.toByteArray.size) =
        (b.toByteArray ++ c.toByteArray).extract 0 b.toByteArray.size :=
    ByteArray.extract_append_size_add
  rw [ByteArray.extract_append_eq_left rfl, Nat.add_zero, ← String.toByteArray_append,
    ← String.toByteArray_append, String.size_toByteArray, String.size_toByteArray] at behind
  rw [slice, String.append_assoc, String.utf8ByteSize_append]
  exact behind

namespace Scan

/-! ## Places -/

/-- All tokens of a text, the ignored ones among them. -/
def everyToken (text : String) : List Token := placed Point.origin (Lexeme.cut text.toList).1

/-- Later lexemes have their places behind the earlier ones. -/
lemma placed_append (p : Point) (u v : List Lexeme) :
    placed p (u ++ v) = placed p u ++ placed (p.advance (Lexeme.joined u)) v := by
  induction u generalizing p with
  | nil => rw [Lexeme.joined_nil, Point.advance_empty, placed, List.nil_append, List.nil_append]
  | cons l u ih =>
    simp only [List.cons_append, placed, ih, Region.ofText, Point.advance_append, Lexeme.joined_cons]

/-- The place behind lexemes is the one behind their text. -/
lemma placeAfter_eq (p : Point) (ls : List Lexeme) :
    placeAfter p ls = p.advance (Lexeme.joined ls) := by
  induction ls generalizing p with
  | nil => exact p.advance_empty.symm
  | cons l ls ih =>
    rw [Lexeme.joined_cons, ← Point.advance_append]
    exact ih _

/-- The lexemes of a text and the part that is left are the whole text. -/
lemma eq_joined_append (text : String) :
    text = Lexeme.joined (Lexeme.cut text.toList).1 ++ String.ofList (Lexeme.cut text.toList).2 := by
  rw [Lexeme.joined, ← String.ofList_append, ← (Lexeme.cut_munches text.toList).eq_append,
    String.ofList_toList]

/-- A token stands behind the lexemes before its own one. -/
lemma eq_of_mem_placed {before ls} {t : Token} (h : t ∈ placed (.behind before) ls) :
    ∃ u l v, ls = u ++ l :: v ∧ t = ⟨l.kind, l.text,
      .behind (before ++ Lexeme.joined u), .behind (before ++ Lexeme.joined u ++ l.text)⟩ := by
  induction ls generalizing before with
  | nil => cases h
  | cons l ls ih =>
    rw [placed, Region.ofText, Point.behind_advance] at h
    cases h with
    | head => exact ⟨[], l, ls, rfl, by simp⟩
    | tail _ h =>
      obtain ⟨u, l', v, rfl, e⟩ := ih h
      exact ⟨l :: u, l', v, rfl, by simpa [String.append_assoc] using e⟩

/-- The offsets where the gaps between tokens start and end, given where the first one starts and the last
one ends. -/
def gapEnds (start : Nat) : List Token → (stop : Nat) → List (Nat × Nat)
  | [], stop => [(start, stop)]
  | t :: ts, stop => (start, t.region.start.index) :: gapEnds t.region.stop.index ts stop

/-- A gap consists of the ignored lexemes between two others. -/
lemma split_of_mem_gapEnds {before gap ls whole : List Lexeme} {ends : Nat × Nat}
    (ignored : ∀ l ∈ gap, l.kind.isIgnored) (e : before ++ gap ++ ls = whole)
    (h : ends ∈ gapEnds (Lexeme.joined before).utf8ByteSize
      ((placed (.behind (Lexeme.joined (before ++ gap))) ls).filter fun token => !token.isIgnored)
      (Lexeme.joined whole).utf8ByteSize) :
    ∃ u v w, whole = u ++ v ++ w ∧ (∀ l ∈ v, l.kind.isIgnored)
      ∧ ends = ((Lexeme.joined u).utf8ByteSize, (Lexeme.joined (u ++ v)).utf8ByteSize) := by
  -- an ignored lexeme joins the gap at hand, any other one ends it and starts a new one
  induction ls generalizing before gap with
  | nil =>
    rw [List.append_nil] at e
    rw [placed, List.filter_nil, gapEnds, List.mem_singleton] at h
    exact ⟨before, gap, [], by rw [List.append_nil, e], ignored, by rw [h, e]⟩
  | cons l ls ih =>
    have next : Lexeme.joined (before ++ gap) ++ l.text = Lexeme.joined (before ++ gap ++ [l]) := by
      simp [String.append_assoc]
    rw [placed, Region.ofText, Point.behind_advance, next] at h
    by_cases skipped : l.kind.isIgnored
    · rw [List.filter_cons_of_neg (by simp [Token.isIgnored, skipped]), List.append_assoc] at h
      have ignored' : ∀ l' ∈ gap ++ [l], l'.kind.isIgnored :=
        List.forall_mem_append.2 ⟨ignored, List.forall_mem_singleton.2 skipped⟩
      exact ih ignored' (by rw [← e]; simp) h
    · rw [List.filter_cons_of_pos (by simp [Token.isIgnored, skipped]), gapEnds] at h
      rcases List.mem_cons.1 h with rfl | later
      · exact ⟨before, gap, l :: ls, e.symm, ignored, rfl⟩
      · have none_ignored : ∀ l' ∈ ([] : List Lexeme), l'.kind.isIgnored :=
          fun _ mem => absurd mem List.not_mem_nil
        refine @ih (before ++ gap ++ [l]) [] none_ignored (by rw [← e]; simp) ?_
        rw [List.append_nil]
        exact later

section
variable {text : String} {t : Token}

/-- Every token of a text is one of its lexemes, and stands behind the text of the lexemes before it. -/
lemma eq_of_mem_everyToken (h : t ∈ everyToken text) :
    ∃ u l v, (Lexeme.cut text.toList).1 = u ++ l :: v ∧ t = ⟨l.kind, l.text,
      .behind (Lexeme.joined u), .behind (Lexeme.joined u ++ l.text)⟩ := by
  obtain ⟨u, l, v, split, e⟩ := @eq_of_mem_placed "" _ _ h
  exact ⟨u, l, v, split, by simpa using e⟩

/-- Every lexeme is a token at the place behind those before it. -/
lemma mem_everyToken {u v : List Lexeme} {l : Lexeme}
    (h : (Lexeme.cut text.toList).1 = u ++ l :: v) :
    ⟨l.kind, l.text, .behind (Lexeme.joined u), .behind (Lexeme.joined u ++ l.text)⟩
      ∈ everyToken text := by
  rw [everyToken, h, placed_append, Point.origin_advance, placed, Region.ofText,
    Point.behind_advance]
  simp

/-- A token has its place in the text. -/
lemma place_of_mem (h : t ∈ everyToken text) :
    ∃ before after, text = before ++ t.text ++ after
      ∧ t.region = ⟨.behind before, .behind (before ++ t.text)⟩ := by
  obtain ⟨u, l, v, split, rfl⟩ := eq_of_mem_everyToken h
  refine ⟨Lexeme.joined u,
    Lexeme.joined v ++ String.ofList (Lexeme.cut text.toList).2, ?_, rfl⟩
  conv_lhs => rw [eq_joined_append text, split]
  simp [String.append_assoc]

/-- No token is empty. -/
lemma text_ne_empty (h : t ∈ everyToken text) : t.text ≠ "" := by
  obtain ⟨u, l, v, split, rfl⟩ := eq_of_mem_everyToken h
  have nonempty := (Lexeme.cut_munches text.toList).ne_nil l (by rw [split]; simp)
  intro empty
  have chars := congrArg String.toList empty
  rw [Lexeme.text, String.toList_ofList] at chars
  exact nonempty chars

/-- A token ends behind its start. -/
lemma start_lt_stop (h : t ∈ everyToken text) : t.region.start.index < t.region.stop.index := by
  obtain ⟨before, after, _, region⟩ := place_of_mem h
  have bytes : t.text.utf8ByteSize ≠ 0 := fun e =>
    text_ne_empty h (String.utf8ByteSize_eq_zero_iff.1 e)
  rw [region]
  simp only [Point.behind, String.utf8ByteSize_append]
  omega

/-- A token that is not ignored stands on one line. -/
lemma one_line (h : t ∈ everyToken text) (kept : ¬ t.isIgnored) :
    '\n' ∉ t.text.toList ∧ t.region.start.line = t.region.stop.line := by
  have absent : '\n' ∉ t.text.toList := by
    obtain ⟨u, l, v, split, rfl⟩ := eq_of_mem_everyToken h
    have word := (Lexeme.cut_munches text.toList).word l (by rw [split]; simp)
    intro inside
    rw [Lexeme.text, String.toList_ofList] at inside
    have space := Token.Kind.eq_whiteSpace_of_newline word inside
    exact kept (by rw [Token.isIgnored, space]; rfl)
  obtain ⟨before, after, _, region⟩ := place_of_mem h
  refine ⟨absent, ?_⟩
  rw [region]
  simp [Point.behind, List.count_eq_zero.2 absent]

end

/-- Tokens come one after the other. -/
lemma placed_pairwise (before : String) (ls : List Lexeme) :
    (placed (.behind before) ls).Pairwise fun t u => t.region.stop.index ≤ u.region.start.index := by
  induction ls generalizing before with
  | nil => exact .nil
  | cons l ls ih =>
    rw [placed, Region.ofText, Point.behind_advance]
    refine .cons (fun t later => ?_) (ih _)
    obtain ⟨u, l', v, _, rfl⟩ := eq_of_mem_placed later
    simp only [Point.behind, String.utf8ByteSize_append]
    omega

/-- Lexemes that their own text is cut into are placed from its start on. -/
lemma ofText_joined {ls : List Lexeme} (munch : MaximalMunch (ls.flatMap (·.chars)) ls []) :
    ofText (Lexeme.joined ls) =
      ⟨(placed Point.origin ls).filter fun token => !token.isIgnored, none⟩ := by
  have cut : Lexeme.cut (Lexeme.joined ls).toList = (ls, []) := by
    rw [Lexeme.toList_joined]
    exact Lexeme.cut_eq_iff.2 munch
  rw [ofText, cut]
  rfl

/-- A text of ignored lexemes has no tokens and no error. -/
lemma ofText_of_ignored {ls : List Lexeme} (munch : MaximalMunch (ls.flatMap (·.chars)) ls [])
    (ignored : ∀ l ∈ ls, l.kind.isIgnored) : ofText (Lexeme.joined ls) = ⟨[], none⟩ := by
  have none_kept : (placed Point.origin ls).filter (fun token => !token.isIgnored) = [] := by
    refine List.filter_eq_nil_iff.2 fun t mem => ?_
    obtain ⟨l, mem', kind, _⟩ := mem_placed mem
    simp [Token.isIgnored, kind, ignored l mem']
  rw [ofText_joined munch, none_kept]

/-! ## A scan loses nothing -/

/-- The offset where a scan ends: that of its error, or the end of the text. -/
def endIndex (text : String) (s : Scan) : Nat :=
  match s.error? with
  | some e => e.point.index
  | none => text.utf8ByteSize

/-- The error of a scan is behind all lexemes. -/
lemma error_point {text : String} {e : ScanError} (h : (ofText text).error? = some e) :
    e.point = .behind (Lexeme.joined (Lexeme.cut text.toList).1) := by
  rw [← Point.origin_advance, ← placeAfter_eq]
  simp only [ofText] at h
  split at h <;> cases h
  rfl

/-- A scan ends where its lexemes do. -/
lemma endIndex_ofText (text : String) :
    (ofText text).endIndex text = (Lexeme.joined (Lexeme.cut text.toList).1).utf8ByteSize := by
  rw [endIndex]
  cases h : (ofText text).error? with
  | some e => exact congrArg Point.index (error_point h)
  | none =>
    have all : (Lexeme.cut text.toList).2 = [] := by simpa [ofText] using h
    have whole := eq_joined_append text
    rw [all, String.ofList_nil, String.append_empty] at whole
    exact congrArg String.utf8ByteSize whole

/-- A scan of a text accounts for the whole text. -/
structure Exact (text : String) (s : Scan) : Prop where
  /-- The tokens stand one after the other. -/
  increasing : s.tokens.Pairwise fun t u => t.region.stop.index ≤ u.region.start.index
  nonempty : ∀ t ∈ s.tokens, t.region.start.index < t.region.stop.index
  /-- A token is the part of the text between its two offsets. -/
  slices : ∀ t ∈ s.tokens,
    slice text t.region.start.index t.region.stop.index = t.text.toByteArray
  /-- Each end of a token is the place behind all of the text before it. -/
  places : ∀ t ∈ s.tokens, ∃ before after, text = before ++ t.text ++ after
    ∧ t.region = ⟨.behind before, .behind (before ++ t.text)⟩
  oneLine : ∀ t ∈ s.tokens, '\n' ∉ t.text.toList ∧ t.region.start.line = t.region.stop.line
  /-- An error stands where the scan ends. -/
  errorPlace : ∀ e ∈ s.error?, ∃ before after, text = before ++ after ∧ e.point = .behind before
  /-- What stands between the tokens is no token and no error by itself. -/
  gaps : ∀ ends ∈ gapEnds 0 s.tokens (s.endIndex text), ends.1 ≤ ends.2
    ∧ ∃ gap, slice text ends.1 ends.2 = gap.toByteArray ∧ ofText gap = ⟨[], none⟩

/-- Between two tokens, and in front of the first and behind the last one, stand ignored lexemes. -/
lemma split_of_gap {text : String} {ends : Nat × Nat}
    (h : ends ∈ gapEnds 0 (ofText text).tokens ((ofText text).endIndex text)) :
    ∃ u v w, (Lexeme.cut text.toList).1 = u ++ v ++ w ∧ (∀ l ∈ v, l.kind.isIgnored)
      ∧ ends = ((Lexeme.joined u).utf8ByteSize, (Lexeme.joined (u ++ v)).utf8ByteSize) := by
  rw [endIndex_ofText] at h
  exact @split_of_mem_gapEnds [] [] _ _ _ nofun rfl h

/-- What lies in a gap has no tokens and no error by itself. -/
lemma gap_of_mem {text : String} {ends : Nat × Nat}
    (h : ends ∈ gapEnds 0 (ofText text).tokens ((ofText text).endIndex text)) : ends.1 ≤ ends.2
      ∧ ∃ gap, slice text ends.1 ends.2 = gap.toByteArray ∧ ofText gap = ⟨[], none⟩ := by
  obtain ⟨u, v, w, split, ignored, rfl⟩ := split_of_gap h
  have munch := Lexeme.cut_munches text.toList
  have whole := eq_joined_append text
  rw [split] at munch whole
  refine ⟨?_, Lexeme.joined v, ?_, ofText_of_ignored munch.middle ignored⟩
  · rw [Lexeme.joined_append, String.utf8ByteSize_append]
    exact Nat.le_add_right _ _
  · rw [whole, Lexeme.joined_append, Lexeme.joined_append, String.append_assoc]
    exact slice_middle _ _ _

/-- A scan accounts for the whole text, up to its error if there is one. -/
theorem exact_ofText (text : String) : (ofText text).Exact text where
  increasing := (placed_pairwise "" _).filter _
  nonempty := fun _ mem => start_lt_stop (List.mem_filter.1 mem).1
  slices := by
    intro t mem
    obtain ⟨before, after, whole, region⟩ := place_of_mem (List.mem_filter.1 mem).1
    rw [region, whole]
    exact slice_middle before t.text after
  places := fun _ mem => place_of_mem (List.mem_filter.1 mem).1
  oneLine := by
    intro t mem
    obtain ⟨placed, kept⟩ := List.mem_filter.1 mem
    exact one_line placed (by simpa using kept)
  errorPlace := fun _ failed => ⟨_, _, eq_joined_append text, error_point failed⟩
  gaps := fun _ => gap_of_mem

end Scan

end YeccDefr
