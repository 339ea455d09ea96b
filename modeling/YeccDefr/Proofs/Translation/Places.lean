import YeccDefr.Proofs.Grammar.Gaps
import YeccDefr.Proofs.Grammar.Unplaced
import YeccDefr.Proofs.Output.Parameters
import YeccDefr.Proofs.Translation.Separate

/-!
# Layout and comments

Places do not show in a translation, and of the gaps only those in front of attached code do. Two texts that
are scanned to the same lexemes are therefore grammars with the same tree, or fail at the same token; and
they have the same translation if their code has the same gaps (`translate_of_lexemes`).
-/

namespace YeccDefr

open Naming

/-! ## Gaps in front of code -/

/-- White space or a comment stands between a symbol of a text and the token before it. -/
def Symbol.SeparatedIn (text : String) (s : Symbol) : Prop :=
  ∃ k before token, (Scan.ofText text).tokens[k]? = some before
    ∧ (Scan.ofText text).tokens[k + 1]? = some token ∧ token.region = s.region
    ∧ Scan.Separated text before.region.stop.index token.region.start.index

/-- No two tokens of a text stand in one place. -/
lemma Scan.rank_unique {text : String} {i j : Nat} {t t' : Token}
    (h : (ofText text).tokens[i]? = some t) (h' : (ofText text).tokens[j]? = some t')
    (same : t.region = t'.region) : i = j := by
  obtain ⟨hi, rfl⟩ := List.getElem?_eq_some_iff.1 h
  obtain ⟨hj, rfl⟩ := List.getElem?_eq_some_iff.1 h'
  have exact_ := exact_ofText text
  have increasing := List.pairwise_iff_getElem.1 exact_.increasing
  have nonempty := exact_.nonempty _ (List.getElem_mem hi)
  rcases Nat.lt_trichotomy i j with lt | eq | gt
  · have later := increasing i j hi hj lt
    rw [← same] at later
    omega
  · exact eq
  · have later := increasing j i hj hi gt
    rw [← same] at later
    omega

namespace Grammar

/-- The symbols of attached code in order. -/
def codeSymbols (g : Grammar) : List Symbol := g.rules.flatMap (·.code)

/-- The code of the first rule comes first. -/
lemma codeSymbols_rule (r : Rule) (is : List Item) :
    codeSymbols ⟨.rule r :: is⟩ = r.code ++ codeSymbols ⟨is⟩ := rfl

/-- The symbols of code are among the pieces of the tree. -/
lemma mem_pieces_of_mem_codeSymbols {g : Grammar} {s : Symbol} (mem : s ∈ g.codeSymbols) :
    .symbol s ∈ g.pieces := by
  obtain ⟨r, isRule, inCode⟩ := List.mem_flatMap.1 mem
  exact (code_infix_pieces (mem_rules.1 isRule)).subset (List.mem_map_of_mem inCode)

/-- A symbol notes a gap exactly where it is separated from the token before it. -/
lemma spaced_iff_separatedIn {text : String} {g : Grammar} (h : (readGrammar text).value = .ok g)
    {s : Symbol} (mem : .symbol s ∈ g.pieces) : s.spaced ↔ s.SeparatedIn text := by
  obtain ⟨k, piece⟩ := List.mem_iff_getElem?.1 mem
  obtain ⟨t, token, _, region, gap⟩ := notesGaps_of_read h k s piece
  rw [gap]
  constructor
  · rintro ⟨j, before, rfl, found, separated⟩
    exact ⟨j, before, t, found, token, region.symm, separated⟩
  · rintro ⟨j, before, t', found, token', region', separated⟩
    cases Scan.rank_unique token token' (region.symm.trans region'.symm)
    rw [token] at token'
    cases token'
    exact ⟨j, before, rfl, found, separated⟩

/-- The code of two texts has the same gaps where the trees note the same ones. -/
lemma separatedIn_iff {A B : String} {g h : Grammar} (readA : (readGrammar A).value = .ok g)
    (readB : (readGrammar B).value = .ok h) :
    List.Forall₂ (fun s s' => s.SeparatedIn A ↔ s'.SeparatedIn B) g.codeSymbols h.codeSymbols ↔
      g.codeSymbols.map (·.spaced) = h.codeSymbols.map (·.spaced) := by
  rw [← List.forall₂_eq_eq_eq, List.forall₂_map_left_iff, List.forall₂_map_right_iff,
    List.forall₂_iff_get, List.forall₂_iff_get]
  refine and_congr_right fun _ => forall_congr' fun i => forall_congr' fun hi => forall_congr' fun hj => ?_
  rw [← spaced_iff_separatedIn readA (mem_pieces_of_mem_codeSymbols (List.get_mem _ _)),
    ← spaced_iff_separatedIn readB (mem_pieces_of_mem_codeSymbols (List.get_mem _ _)), Bool.coe_iff_coe]

end Grammar

/-! ## Trees without places -/

namespace Symbol
variable {s s' : Symbol} {ss ss' : List Symbol}

/-- Symbols that are the same without their places have the same class and text. -/
lemma unplaced_inj (h : s.unplaced = s'.unplaced) : s.kind = s'.kind ∧ s.text = s'.text := by
  injection h with kind text
  exact ⟨kind, text⟩

/-- Lists that are the same without places are so symbol by symbol. -/
lemma forall₂_of_unplaced (h : ss.map unplaced = ss'.map unplaced) :
    List.Forall₂ (fun s s' => s.unplaced = s'.unplaced) ss ss' := by
  rwa [← List.forall₂_eq_eq_eq, List.forall₂_map_left_iff, List.forall₂_map_right_iff] at h

/-- Symbols that are the same without their places have the same texts. -/
lemma sameTexts_of_unplaced (h : ss.map unplaced = ss'.map unplaced) : SameTexts ss ss' :=
  (forall₂_of_unplaced h).imp fun _ _ same => (unplaced_inj same).2

/-- Symbols that are the same without their places are alike if they have the same gaps. -/
lemma alike_of_unplaced (h : ss.map unplaced = ss'.map unplaced)
    (gaps : ss.map (·.spaced) = ss'.map (·.spaced)) : List.Forall₂ Alike ss ss' := by
  induction forall₂_of_unplaced h with
  | nil => exact .nil
  | cons first _ ih =>
    obtain ⟨kind, text⟩ := unplaced_inj first
    obtain ⟨gap, gaps⟩ := List.cons.inj gaps
    exact .cons ⟨kind, text, gap⟩ (ih (List.cons.inj h).2 gaps)

end Symbol

/-- Declarations that are the same without places are alike. -/
lemma Declaration.alike_of_unplaced {d d' : Declaration}
    (h : d.map Symbol.unplaced = d'.map Symbol.unplaced) : d.Alike d' := by
  injection h with head body
  obtain ⟨kind, text⟩ := Symbol.unplaced_inj head
  exact ⟨kind, text, Symbol.sameTexts_of_unplaced body⟩

/-- A change of symbols changes the code of a rule one by one. -/
lemma Rule.code_map (f : Symbol → Symbol) (r : Rule) : (r.map f).code = r.code.map f := by
  rw [code, code, map]
  cases r.code? <;> rfl

/-- Rules that are the same without places have the same code without places. -/
lemma Rule.code_unplaced {r r' : Rule} (h : r.map Symbol.unplaced = r'.map Symbol.unplaced) :
    r.code.map Symbol.unplaced = r'.code.map Symbol.unplaced := by
  rw [← code_map, ← code_map, h]

/-- Rules that are the same without places are alike if their code has the same gaps. -/
lemma Rule.alike_of_unplaced {r r' : Rule} (h : r.map Symbol.unplaced = r'.map Symbol.unplaced)
    (gaps : r.code.map (·.spaced) = r'.code.map (·.spaced)) : r.Alike r' := by
  have code := Symbol.alike_of_unplaced (code_unplaced h) gaps
  injection h with head symbols
  exact ⟨(Symbol.unplaced_inj head).2, Symbol.sameTexts_of_unplaced symbols, code⟩

/-- Items that are the same without places are alike if their code has the same gaps. -/
lemma Grammar.alike_of_unplaced {is js : List Item}
    (h : List.Forall₂ (fun i j => i.map Symbol.unplaced = j.map Symbol.unplaced) is js)
    (gaps : (codeSymbols ⟨is⟩).map (·.spaced) = (codeSymbols ⟨js⟩).map (·.spaced)) :
    List.Forall₂ Item.Alike is js := by
  induction h with
  | nil => exact .nil
  | @cons i j is js first _ ih =>
    cases i with
    | declaration d =>
      cases j with
      | declaration d' =>
        injection first with same
        exact .cons (.declaration (Declaration.alike_of_unplaced same)) (ih gaps)
      | rule r' => cases first
    | rule r =>
      cases j with
      | declaration d' => cases first
      | rule r' =>
        injection first with same
        rw [codeSymbols_rule, codeSymbols_rule, List.map_append, List.map_append] at gaps
        have length := congrArg List.length (Rule.code_unplaced same)
        simp only [List.length_map] at length
        obtain ⟨own, later⟩ := List.append_inj gaps (by simpa using length)
        exact .cons (.rule (Rule.alike_of_unplaced same own)) (ih later)

/-! ## The same lexemes -/

/-- Two texts are read alike up to places, and translated alike if the gaps in their code are the same. -/
structure SameUpToPlaces (A B : String) : Prop where
  succeed : (∃ g, (readGrammar A).value = .ok g) ↔ ∃ g, (readGrammar B).value = .ok g
  /-- Both fail at the token of the same rank, or at the end of both lists of tokens. -/
  fail : ∀ e, (readGrammar A).value = .error e → ∃ (k : Nat) (expected : Expected),
    e = .unexpected ⟨(Scan.ofText A).tokens[k]?, expected⟩
      ∧ (readGrammar B).value = .error (.unexpected ⟨(Scan.ofText B).tokens[k]?, expected⟩)
      ∧ ((Scan.ofText A).tokens[k]? = none ↔ (Scan.ofText B).tokens[k]? = none)
      ∧ Unexpected.found ⟨(Scan.ofText A).tokens[k]?, expected⟩ =
        Unexpected.found ⟨(Scan.ofText B).tokens[k]?, expected⟩
  trees : ∀ g h, (readGrammar A).value = .ok g → (readGrammar B).value = .ok h →
    g.unplaced = h.unplaced
  /-- The translations are the same, and so are the names in use after them. -/
  translations : ∀ g h, (readGrammar A).value = .ok g → (readGrammar B).value = .ok h →
    List.Forall₂ (fun s s' => s.SeparatedIn A ↔ s'.SeparatedIn B) g.codeSymbols h.codeSymbols →
    ∀ layout names, ∃ out names',
      ((translate layout A).run names).value = (.ok out, names')
        ∧ ((translate layout B).run names).value = (.ok out, names')

section
variable {A B : String}

/-- Texts with the same tree up to places have the same translation if their code has the same gaps. -/
lemma translate_of_unplaced {g h : Grammar} (readA : (readGrammar A).value = .ok g)
    (readB : (readGrammar B).value = .ok h) (same : g.unplaced = h.unplaced)
    (gaps : g.codeSymbols.map (·.spaced) = h.codeSymbols.map (·.spaced)) (layout : Layout)
    (names : Names) : ∃ out names', ((translate layout A).run names).value = (.ok out, names')
      ∧ ((translate layout B).run names).value = (.ok out, names') := by
  injection same with items
  rw [← List.forall₂_eq_eq_eq, List.forall₂_map_left_iff, List.forall₂_map_right_iff] at items
  have alike := Grammar.alike_of_unplaced items gaps
  have written : ((g.entries layout).run names).value = ((h.entries layout).run names).value :=
    Grammar.entriesFrom_agree layout none false alike names
  exact ⟨_, _, (HasEntries.of_grammar readA rfl).translated,
    (HasEntries.of_grammar readB written.symm).translated⟩

/-- Texts that are scanned to the same lexemes are read as the same tree up to places, or fail at the token
of the same rank with the same expectation. If moreover each symbol of their code is separated from the
token before it in one text exactly when it is in the other, they have the same translation. -/
theorem translate_of_lexemes (scannedA : (Scan.ofText A).error? = none)
    (scannedB : (Scan.ofText B).error? = none)
    (same : (Scan.ofText A).lexemes = (Scan.ofText B).lexemes) : SameUpToPlaces A B := by
  have readA : (readGrammar A).value = Grammar.ofTokens (Scan.ofText A).tokens := by
    rw [readGrammar_value, scannedA]
  have readB : (readGrammar B).value = Grammar.ofTokens (Scan.ofText B).tokens := by
    rw [readGrammar_value, scannedB]
  have trees {g h} (hg : (readGrammar A).value = .ok g) (hh : (readGrammar B).value = .ok h) :
      g.unplaced = h.unplaced :=
    Grammar.unplaced_eq_of_lexemes same (readA ▸ hg) (readB ▸ hh)
  refine ⟨?_, ?_, fun _ _ => trees, ?_⟩
  · rw [readA, readB]
    exact Grammar.ofTokens_ok_of_lexemes same
  · intro e failed
    obtain ⟨k, expected, rfl, failed'⟩ := Grammar.ofTokens_error_of_lexemes same (readA ▸ failed)
    have text := Grammar.getElem?_text_eq same k
    refine ⟨k, expected, rfl, readB.trans failed', ?_, Unexpected.found_eq text⟩
    rw [← Option.map_eq_none_iff, text, Option.map_eq_none_iff]
  · intro g h hg hh gaps
    exact translate_of_unplaced hg hh (trees hg hh) ((Grammar.separatedIn_iff hg hh).1 gaps)

/-- Comments and line ends, outside of the code and in the one gap inside, make no difference. -/
theorem translate_of_lexemes_comment :
    let A := "a->b:'$1' +c."
    let B := "a -> b % d\n:'$1'% e\n+c ."
    (Scan.ofText A).error? = none ∧ (Scan.ofText B).error? = none
      ∧ (Scan.ofText A).lexemes = (Scan.ofText B).lexemes ∧ SameUpToPlaces A B
      ∧ ∀ layout names,
        ((translate layout A).run names).value = ((translate layout B).run names).value := by
  intro A B
  let tree (text : String) : Grammar := (readGrammar text).value.toOption.getD ⟨[]⟩
  have scannedA : (Scan.ofText A).error? = none := by decide +kernel
  have scannedB : (Scan.ofText B).error? = none := by decide +kernel
  have same : (Scan.ofText A).lexemes = (Scan.ofText B).lexemes := by decide +kernel
  have readA : (readGrammar A).value = .ok (tree A) := by decide +kernel
  have readB : (readGrammar B).value = .ok (tree B) := by decide +kernel
  have gaps : (tree A).codeSymbols.map (·.spaced) = (tree B).codeSymbols.map (·.spaced) := by
    decide +kernel
  have upToPlaces := translate_of_lexemes scannedA scannedB same
  refine ⟨scannedA, scannedB, same, upToPlaces, fun layout names => ?_⟩
  obtain ⟨out, names', ofA, ofB⟩ := upToPlaces.translations _ _ readA readB
    ((Grammar.separatedIn_iff readA readB).2 gaps) layout names
  exact ofA.trans ofB.symm

end

end YeccDefr
