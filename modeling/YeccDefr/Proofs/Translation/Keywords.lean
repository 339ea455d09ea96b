import YeccDefr.Proofs.Output.SymbolLists
import YeccDefr.Proofs.Translation.Bindings

/-!
# Keywords as names

Six words of the target syntax cannot be bound. Their quoted atoms have fixed names instead, and no name that
is fixed or generated is one of these words. A bare symbol however is its own name, whatever it is, so a
definition binds a keyword exactly where the code of the rule uses a bare symbol that is spelled like it
(`Rule.keyword_bound_iff`).
-/

namespace YeccDefr

open Naming

/-- The words of the target syntax that have a meaning of their own. -/
def keywords : List String := ["true", "false", "nil", "end", "fn", "do"]

/-! ## Names that are no keywords -/

namespace Names

/-- No fixed name is a keyword. -/
lemma fixed_notMem_keywords {quoted name : String} (h : (quoted, name) ∈ wellKnownNames) :
    name ∉ keywords := by
  have apart : ∀ entry ∈ wellKnownNames, entry.2 ∉ keywords := by decide +kernel
  exact apart _ h

/-- No generated name is a keyword. -/
lemma numbered_notMem_keywords (k : Nat) : numbered k ∉ keywords := by
  have initial : ∀ word ∈ keywords, word.toList.head? ≠ some 'v' := by decide +kernel
  exact fun mem => initial _ mem (head?_numbered k)

section
variable (names : Names) {text : String}

/-- A bare symbol is named by itself. -/
lemma nameFor_of_bare (bare : ¬ Quoted (requoted text)) : names.nameFor text = requoted text :=
  nameFor_of_nameOf? (nameOf?_of_bare bare)

/-- A quoted symbol is given its fixed name or a generated one. -/
lemma nameFor_of_quoted (quoted : Quoted (requoted text)) :
    (requoted text, names.nameFor text) ∈ wellKnownNames ∨ ∃ k, names.nameFor text = numbered k := by
  cases h : names.nameOf? text with
  | none =>
    obtain ⟨_, _, given⟩ := bindingName_of_none h
    exact .inr ⟨_, congrArg Prod.fst given⟩
  | some name =>
    rw [nameFor_of_nameOf? h]
    rw [nameOf?_of_quoted quoted, find?_eq_some] at h
    refine h.imp_right ?_
    rintro ⟨_, k, _, e⟩
    exact ⟨k + 1, e⟩

/-- A symbol is named by a keyword if it is the bare keyword. -/
lemma nameFor_mem_keywords : names.nameFor text ∈ keywords ↔ text ∈ keywords := by
  have plain : ∀ word ∈ keywords, requoted word = word ∧ '"' ∉ word.toList ∧ ¬ Quoted word := by
    decide +kernel
  by_cases quoted : Quoted (requoted text)
  · refine iff_of_false ?_ ?_
    · intro mem
      rcases names.nameFor_of_quoted quoted with fixed | ⟨k, e⟩
      · exact fixed_notMem_keywords fixed mem
      · exact numbered_notMem_keywords k (e ▸ mem)
    · intro mem
      obtain ⟨same, _, bare⟩ := plain text mem
      exact bare (same ▸ quoted)
  · rw [names.nameFor_of_bare quoted]
    constructor
    · intro mem
      exact requoted_eq_self (plain _ mem).2.1 ▸ mem
    · intro mem
      rwa [(plain text mem).1]

/-- The quoted atom of a keyword has a fixed name. -/
lemma nameFor_quotedAtom {word : String} (keyword : word ∈ keywords) :
    names.nameFor (quotedAtom word) = "ex_" ++ word := by
  have fixed : ∀ word ∈ keywords, Quoted (requoted (quotedAtom word))
      ∧ (requoted (quotedAtom word), "ex_" ++ word) ∈ wellKnownNames := by decide +kernel
  obtain ⟨quoted, known⟩ := fixed word keyword
  refine nameFor_of_nameOf? ?_
  rw [nameOf?_of_quoted quoted, find?_eq_some]
  exact .inl known

end

end Names

/-! ## Keywords in definitions -/

namespace Rule

/-- The definition of a rule, written with the given names in use, binds symbols to keywords only where they
are bare keywords themselves. -/
structure BindsKeywords (r : Rule) (layout : Layout) (names : Names) : Prop where
  /-- The definition pairs each symbol that the code uses with its name after the definition. -/
  written : r.WrittenIn ((r.definition layout).run names).value.2 ((r.definition layout).run names).value.1
  keyword : ∀ s ∈ r.boundSymbols,
    ((r.definition layout).run names).value.2.nameFor s.text ∈ keywords ↔ s.text ∈ keywords
  /-- A bare symbol keeps its text, also where it is a keyword. -/
  bare : ∀ s ∈ r.boundSymbols, ¬ Quoted (requoted s.text) →
    ((r.definition layout).run names).value.2.nameFor s.text = requoted s.text
  /-- A quoted one has a fixed or a generated name, and the quoted keyword a fixed one. -/
  quoted : ∀ s ∈ r.boundSymbols, Quoted (requoted s.text) →
    (requoted s.text, ((r.definition layout).run names).value.2.nameFor s.text) ∈ wellKnownNames
      ∨ ∃ k, ((r.definition layout).run names).value.2.nameFor s.text = Names.numbered k
  quotedKeyword : ∀ s ∈ r.boundSymbols, ∀ word ∈ keywords, s.text = quotedAtom word →
    ((r.definition layout).run names).value.2.nameFor s.text = "ex_" ++ word

/-- Whatever names are in use, a definition binds a symbol to a keyword exactly where the symbol is that
keyword, bare. Quoted symbols are never bound to one. -/
theorem keyword_bound_iff (layout : Layout) (r : Rule) (names : Names) : r.BindsKeywords layout names where
  written := (r.definition_ensures layout).holds names _ .refl
  keyword := fun _ _ => Names.nameFor_mem_keywords _
  bare := fun _ _ => Names.nameFor_of_bare _
  quoted := fun _ _ => Names.nameFor_of_quoted _
  quotedKeyword := by
    rintro s _ word keyword text
    rw [text]
    exact Names.nameFor_quotedAtom _ keyword

/-- A bare atom that is a keyword is bound to itself. -/
theorem bound_to_keyword :
    translation "s -> end : '$1'." = .ok "defr s(\x7b:end, end\x7d), do: end"
      ∧ ¬ ∀ (steps : List Step) (layout : Layout) (text : String) (g : Grammar),
        (readGrammar text).value = .ok g → ∀ r ∈ g.rules, ∀ s ∈ r.boundSymbols, s.kind = .atom →
          ((r.definition layout).run (Names.empty.after steps)).value.2.nameFor s.text ∉ keywords := by
  refine ⟨by decide +kernel, fun apart => ?_⟩
  have read : (readGrammar "s -> end : '$1'.").value =
      .ok ((readGrammar "s -> end : '$1'.").value.toOption.getD ⟨[]⟩) := by decide +kernel
  have bound := apart [] {} _ _ read
  revert bound
  decide +kernel

end Rule

end YeccDefr
