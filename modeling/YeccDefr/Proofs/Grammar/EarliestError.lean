import Mathlib.Order.Bounds.Defs
import YeccDefr.Grammar.Reading
import YeccDefr.Proofs.Grammar.Stage

/-!
# The earliest error of a reading

The readers of `YeccDefr.Grammar.Reading` follow the stages of an item. `Reader.Follows` says so of one
result: a reader that succeeds has led from one stage to another, and a reader that fails has led to
a stage in which the next token cannot follow, has left that token where it is, and names what could
follow instead. Each reader has one lemma of this form, and `Reader.items_follows` is the one about
all items.

A word that the stages can follow is viable, so the error of a reading is at the first token that
makes the tokens before it not viable (`Reader.grammar_earliest_error`).
-/

namespace YeccDefr
open Token.Kind

/-- What a reader expects in a stage when the next token cannot follow. -/
def Stage.expected : Stage → Expected
  | .start | .arrow => .symbol
  | .head => .body
  | .symbols | .strings | .rightSide | .code => .dot
  | .colon => .code

/-- One of the things an expectation names. -/
inductive Alternative where
  | symbol
  | string
  | arrow
  | dot
  | code
  deriving DecidableEq

namespace Alternative

/-- An alternative in words. -/
def text : Alternative → String
  | symbol => "a symbol"
  | string => "a string"
  | arrow => "`->`"
  | dot => "`.`"
  | code => "attached code"

/-- Whether a token of the given class is what the alternative names. -/
def accepts : Alternative → Token.Kind → Bool
  | symbol => (· ∈ [var, atom, integer])
  | string => (· == .stringLiteral)
  | arrow => (· == .arrow)
  | dot => (· == .dot)
  | code => (· ∉ [Token.Kind.dot, comment, whiteSpace])

/-- Alternatives in words, the last one after an "or". -/
def listed : List Alternative → String
  | [] => ""
  | [a] => a.text
  | [a, b] => a.text ++ " or " ++ b.text
  | a :: as => a.text ++ ", " ++ listed as

end Alternative

namespace Expected

end Expected

/-- The classes of tokens in order. -/
def SpacedToken.kinds (tokens : List SpacedToken) : List Token.Kind := tokens.map (·.token.kind)

namespace Stage

/-- The tokens in front of `rest` lead from one stage to another. -/
inductive Leads : Stage → List SpacedToken → Stage → List SpacedToken → Prop where
  | refl {s tokens} : Leads s tokens s tokens
  | step {s q r : Stage} {t tokens rest} :
    s.next? t.token.kind = some q →
    Leads q tokens r rest →
    Leads s (t :: tokens) r rest

/-- Tokens lead on from where others lead. -/
lemma Leads.trans {s q r tokens mid rest} (h : Leads s tokens q mid) (h' : Leads q mid r rest) :
    Leads s tokens r rest := by
  induction h with
  | refl => exact h'
  | step e _ ih => exact .step e (ih h')

/-- One token leads to the next stage. -/
lemma Leads.one {s q : Stage} {t tokens} (e : s.next? t.token.kind = some q) :
    Leads s (t :: tokens) q tokens := .step e .refl

/-- The tokens that lead to a stage are those taken from the front. -/
lemma Leads.taken {s q tokens rest} (h : Leads s tokens q rest) :
    ∃ taken, tokens = taken ++ rest ∧ s.after? (SpacedToken.kinds taken) = some q := by
  induction h with
  | refl => exact ⟨[], rfl, rfl⟩
  | @step s q r t tokens rest e _ ih =>
    obtain ⟨taken, rfl, h⟩ := ih
    refine ⟨t :: taken, rfl, ?_⟩
    simpa [SpacedToken.kinds, e] using h

/-- The next token cannot follow in a stage, or there is none and the item is not complete. -/
def Stuck (s : Stage) : List SpacedToken → Prop
  | [] => s ≠ start
  | t :: _ => s.next? t.token.kind = none

end Stage

namespace Reader
open Stage

/-- A reader that starts in a stage follows the stages as far as it takes tokens, and fails only where
it is stuck. -/
def Follows {α : Type} (s : Stage) (tokens : List SpacedToken)
    (post : α → Stage → List SpacedToken → Prop) :
    EStateM.Result Error (List SpacedToken) α → Prop
  | .ok a rest => ∃ q, Leads s tokens q rest ∧ post a q rest
  | .error e rest => ∃ q, Leads s tokens q rest ∧ q.Stuck rest
      ∧ e = .unexpected ⟨rest.head?.map (·.token), q.expected⟩

section
variable {α β : Type} {s q : Stage} {tokens : List SpacedToken}
  {post : α → Stage → List SpacedToken → Prop} {post' : β → Stage → List SpacedToken → Prop}

/-- A result that follows from a later stage follows from an earlier one. -/
lemma Follows.of_leads {mid r} (l : Leads s tokens q mid) (h : Follows q mid post r) :
    Follows s tokens post r := by
  cases r with
  | ok a rest =>
    obtain ⟨q', l', p⟩ := h
    exact ⟨q', l.trans l', p⟩
  | error e rest =>
    obtain ⟨q', l', p⟩ := h
    exact ⟨q', l.trans l', p⟩

/-- A reader that takes nothing stays in its stage. -/
lemma Follows.pure {a : α} (p : post a s tokens) :
    Follows s tokens post ((Pure.pure a : Reader α) tokens) := ⟨s, .refl, p⟩

/-- A reader goes on in the stage that the one before it leads to. -/
lemma Follows.bind {r : Reader α} {f : α → Reader β} (h : Follows s tokens post (r tokens))
    (hf : ∀ a q rest, post a q rest → Follows q rest post' (f a rest)) :
    Follows s tokens post' ((r >>= f) tokens) := by
  simp only [Bind.bind, EStateM.bind]
  cases e : r tokens with
  | ok a rest =>
    rw [e] at h
    obtain ⟨q, l, p⟩ := h
    exact (hf a q rest p).of_leads l
  | error e rest =>
    rw [e] at h
    exact h

/-- A reader may fail where the next token cannot follow, with what the stage expects. -/
lemma Follows.fail (stuck : s.Stuck tokens) :
    Follows s tokens post (Reader.fail s.expected tokens) := ⟨s, .refl, stuck, rfl⟩

end

/-! ## The single readers -/

/-- The next token is not of an accepted class. -/
def Refused (accepts : Token.Kind → Bool) : List SpacedToken → Prop
  | [] => True
  | t :: _ => accepts t.token.kind = false

/-- A token that is refused cannot follow in a stage that accepts no more than this. -/
lemma Refused.stuck {accepts} {s : Stage} {tokens} (h : Refused accepts tokens) (started : s ≠ .start)
    (next : ∀ k, accepts k = false → s.next? k = none) : s.Stuck tokens := by
  cases tokens with
  | nil => exact started
  | cons t ts => exact next _ h

/-- Symbols of the grammar can stand in code. -/
lemma isCode_of_isGrammarSymbol (k : Token.Kind) (h : k.isGrammarSymbol) : k.isCode := by
  cases k <;> first | rfl | cases h

/-- Strings can stand in code. -/
lemma string_isCode (k : Token.Kind) (h : k == .stringLiteral) : k.isCode := by
  rw [eq_of_beq h]
  rfl

/-- Every token of attached code has a class among the symbols. -/
lemma classify_ok {token} (spaced : Bool) (h : token.kind.isCode) :
    ∃ s, Symbol.classify token spaced = .ok s := by
  unfold Symbol.classify
  cases e : token.kind <;> simp [e, isCode, Symbol.Kind.ofToken?] at h ⊢

section
variable {accepts : Token.Kind → Bool} {s q : Stage} {tokens : List SpacedToken}

/-- One symbol leads to the stage behind it. -/
lemma one_follows (code : ∀ k, accepts k → k.isCode)
    (next : ∀ k, accepts k → s.next? k = some q) (stuck : Refused accepts tokens → s.Stuck tokens) :
    Follows s tokens (fun _ r _ => r = q) (one accepts s.expected tokens) := by
  cases tokens with
  | nil => exact .fail (stuck trivial)
  | cons t ts =>
    cases h : accepts t.token.kind with
    | false =>
      simp only [one, h]
      exact .fail (stuck h)
    | true =>
      obtain ⟨a, ha⟩ := classify_ok t.spaced (code _ h)
      simp only [one, h, ha]
      exact ⟨q, .one (next _ h), rfl⟩

/-- Any number of symbols stays in the stage that takes them, up to a token that is refused. -/
lemma many_follows (code : ∀ k, accepts k → k.isCode)
    (next : ∀ k, accepts k → q.next? k = some q) :
    Follows q tokens (fun _ r rest => r = q ∧ Refused accepts rest) (many accepts tokens) := by
  induction tokens with
  | nil => exact ⟨q, .refl, rfl, trivial⟩
  | cons t ts ih =>
    cases h : accepts t.token.kind with
    | false =>
      simp only [many, h]
      exact ⟨q, .refl, rfl, h⟩
    | true =>
      obtain ⟨a, ha⟩ := classify_ok t.spaced (code _ h)
      simp only [many, h, ha]
      have lead : Stage.Leads q (t :: ts) q ts := .one (next _ h)
      cases e : many accepts ts with
      | ok ss rest =>
        rw [e] at ih
        exact ih.of_leads (r := .ok (a :: ss) rest) lead
      | error e' rest =>
        rw [e] at ih
        exact ih.of_leads (r := .error e' rest) lead

/-- One or more symbols lead to the stage that takes them, up to a token that is refused. -/
lemma oneOrMore_follows (code : ∀ k, accepts k → k.isCode)
    (first : ∀ k, accepts k → s.next? k = some q) (next : ∀ k, accepts k → q.next? k = some q)
    (stuck : Refused accepts tokens → s.Stuck tokens) :
    Follows s tokens (fun _ r rest => r = q ∧ Refused accepts rest)
      (oneOrMore accepts s.expected tokens) := by
  apply Follows.bind (one_follows code first stuck)
  rintro a _ mid rfl
  apply Follows.bind (many_follows code next)
  intro _ _ _ h
  exact .pure h

end

section
variable {α : Type} {mark : Token.Kind} {r r' : Reader α}

/-- A reader that looks for a mark goes on at the mark. -/
lemma branch_of_mark {t ts} (e : t.token.kind = mark) :
    (nextKind? >>= fun k => if k = some mark then r else r') (t :: ts) = r (t :: ts) := by
  change (if some t.token.kind = some mark then r else r') (t :: ts) = r (t :: ts)
  rw [if_pos (congrArg some e)]

/-- Where the mark is missing the other reader goes on. -/
lemma branch_of_refused {tokens} (h : Refused (· == mark) tokens) :
    (nextKind? >>= fun k => if k = some mark then r else r') tokens = r' tokens := by
  change (if tokens.head?.map (·.token.kind) = some mark then r else r') tokens = r' tokens
  rw [if_neg]
  intro e
  cases tokens with
  | nil => cases e
  | cons t ts =>
    cases e
    simp [Refused] at h

end

/-- Tokens either start with the mark or refuse it. -/
lemma refused_or (mark : Token.Kind) (tokens : List SpacedToken) :
    Refused (· == mark) tokens ∨ ∃ t ts, tokens = t :: ts ∧ t.token.kind = mark := by
  cases tokens with
  | nil => exact .inl trivial
  | cons t ts =>
    by_cases e : t.token.kind = mark
    · exact .inr ⟨t, ts, rfl, e⟩
    · exact .inl (beq_eq_false_iff_ne.2 e)

/-- An item can end in a stage, and nothing but a dot can follow. -/
structure Ending (s : Stage) (tokens : List SpacedToken) : Prop where
  expected : s.expected = .dot
  next : s.next? .dot = some .start
  stuck : Refused (· == .dot) tokens → s.Stuck tokens

/-- Symbols of a declaration end in front of all but a symbol. -/
lemma Ending.symbols {tokens} (h : Refused isGrammarSymbol tokens) : Ending .symbols tokens := by
  refine ⟨rfl, rfl, fun h' => ?_⟩
  cases tokens with
  | nil => exact nofun
  | cons t ts =>
    simp only [Refused, beq_eq_false_iff_ne] at h h'
    simp [Stuck, next?, h, h']

/-- Strings of a declaration end in front of all but a string. -/
lemma Ending.strings {tokens} (h : Refused (· == .stringLiteral) tokens) :
    Ending .strings tokens := by
  refine ⟨rfl, rfl, fun h' => ?_⟩
  cases tokens with
  | nil => exact nofun
  | cons t ts =>
    simp only [Refused, beq_eq_false_iff_ne] at h h'
    simp [Stuck, next?, h, h']

/-- The symbols of a rule end in front of all but a symbol and a colon. -/
lemma Ending.rightSide {tokens} (h : Refused isGrammarSymbol tokens)
    (h' : Refused (· == .colon) tokens) : Ending .rightSide tokens := by
  refine ⟨rfl, rfl, fun h'' => ?_⟩
  cases tokens with
  | nil => exact nofun
  | cons t ts =>
    simp only [Refused, beq_eq_false_iff_ne] at h h' h''
    simp [Stuck, next?, h, h', h'']

/-- Code ends in front of all that is no code. -/
lemma Ending.code {tokens} (h : Refused isCode tokens) : Ending .code tokens := by
  refine ⟨rfl, rfl, fun h' => ?_⟩
  cases tokens with
  | nil => exact nofun
  | cons t ts =>
    simp only [Refused, beq_eq_false_iff_ne] at h h'
    simp [Stuck, next?, h, h']

/-- A dot leads from the end of an item to the start of the next one. -/
lemma dot_follows {s tokens} (h : Ending s tokens) :
    Follows s tokens (fun _ q _ => q = .start) (dot tokens) := by
  rcases refused_or .dot tokens with missing | ⟨t, ts, rfl, e⟩
  · rw [dot_eq, branch_of_refused missing, ← h.expected]
    exact .fail (h.stuck missing)
  · rw [dot_eq, branch_of_mark e]
    exact ⟨.start, .one (e ▸ h.next), rfl⟩

/-- Attached code, or none, leads to the end of a rule. -/
lemma attachedCode?_follows {tokens} (h : Refused isGrammarSymbol tokens) :
    Follows .rightSide tokens (fun _ q rest => Ending q rest) (attachedCode? tokens) := by
  rcases refused_or .colon tokens with missing | ⟨t, ts, rfl, e⟩
  · rw [attachedCode?_eq, branch_of_refused missing]
    exact .pure (.rightSide h missing)
  · rw [attachedCode?_eq, branch_of_mark e]
    have lead : Stage.Leads .rightSide (t :: ts) .colon ts := .one (by rw [e]; rfl)
    apply Follows.of_leads lead
    apply Follows.bind (oneOrMore_follows (s := .colon) (q := .code) (fun _ h => h) _ _ _)
    · rintro code _ rest ⟨rfl, refused⟩
      exact .pure (.code refused)
    · exact fun k h => by simp [next?, h]
    · exact fun k h => by simp [next?, h]
    · intro refused
      apply refused.stuck
      · intro e
        cases e
      · exact fun k h => by simp [next?, h]

/-- A declaration leads from its head to the start of the next item. -/
lemma declaration_follows {head tokens} (h : Refused (· == .arrow) tokens) :
    Follows .head tokens (fun _ q _ => q = .start) (declaration head tokens) := by
  have finish {q rest} (body : List Symbol) (ending : Ending q rest) :
      Follows q rest (fun _ r _ => r = .start)
        ((dot >>= fun _ => return (⟨head, body⟩ : Declaration)) rest) := by
    apply Follows.bind (dot_follows ending)
    rintro _ _ _ rfl
    exact .pure rfl
  rcases refused_or .stringLiteral tokens with missing | ⟨t, ts, rfl, e⟩
  · rw [declaration_eq, branch_of_refused missing]
    apply Follows.bind (oneOrMore_follows (s := .head) (q := .symbols) isCode_of_isGrammarSymbol _ _ _)
    · rintro body _ rest ⟨rfl, refused⟩
      exact finish body (.symbols refused)
    · exact fun k h => by simp [next?, h]
    · exact fun k h => by simp [next?, h]
    · intro refused
      cases tokens with
      | nil =>
        intro e
        cases e
      | cons t ts =>
        simp only [Refused, beq_eq_false_iff_ne] at h missing refused
        simp [Stuck, next?, h, missing, refused]
  · rw [declaration_eq, branch_of_mark e]
    apply Follows.bind (oneOrMore_follows (s := .head) (q := .strings) string_isCode _ _ _)
    · rintro body _ rest ⟨rfl, refused⟩
      exact finish body (.strings refused)
    · exact fun k h => by simp [next?, eq_of_beq h, isGrammarSymbol]
    · exact fun k h => by simp [next?, eq_of_beq h]
    · exact fun refused => absurd e (beq_eq_false_iff_ne.1 refused)

/-- A rule leads from its arrow to the start of the next item. -/
lemma rule_follows {head tokens} :
    Follows .arrow tokens (fun _ q _ => q = .start) (rule head tokens) := by
  rw [rule_eq]
  apply Follows.bind
    (oneOrMore_follows (s := .arrow) (q := .rightSide) isCode_of_isGrammarSymbol _ _ _)
  · rintro symbols _ mid ⟨rfl, refused⟩
    apply Follows.bind (attachedCode?_follows refused)
    intro code? q rest ending
    apply Follows.bind (dot_follows ending)
    rintro _ _ _ rfl
    exact .pure rfl
  · exact fun k h => by simp [next?, h]
  · exact fun k h => by simp [next?, h]
  · intro refused
    apply refused.stuck
    · intro e
      cases e
    · exact fun k h => by simp [next?, h]

/-- An item leads from the start of one item to that of the next. -/
lemma item_follows (tokens : List SpacedToken) (h : tokens ≠ []) :
    Follows .start tokens (fun _ q _ => q = .start) (item tokens) := by
  rw [item_eq]
  apply Follows.bind (one_follows (s := .start) (q := .head) isCode_of_isGrammarSymbol _ _)
  · -- the token after the head tells a rule from a declaration
    rintro head _ mid rfl
    rcases refused_or .arrow mid with missing | ⟨t, ts, rfl, e⟩
    · rw [branch_of_refused missing]
      apply Follows.bind (declaration_follows missing)
      rintro _ _ _ rfl
      exact .pure rfl
    · rw [branch_of_mark e]
      have lead : Stage.Leads .head (t :: ts) .arrow ts := .one (by rw [e]; rfl)
      apply Follows.of_leads lead
      apply Follows.bind rule_follows
      rintro _ _ _ rfl
      exact .pure rfl
  · exact fun k h => by simp [next?, h]
  · intro refused
    cases tokens with
    | nil => exact absurd rfl h
    | cons t ts => simpa [Stuck, next?, Refused] using refused

/-! ## All items -/

/-- No tokens are no items. -/
lemma items_nil : items [] = .ok [] [] := by rw [items]

/-- Behind an item that is read the next ones are. -/
lemma items_of_ok {t ts i rest} (h : item (t :: ts) = .ok i rest) :
    items (t :: ts) = match items rest with
      | .ok is left => .ok (i :: is) left
      | .error e left => .error e left := by
  rw [items]
  split
  · rename_i e
    rw [h] at e
    cases e
    rfl
  · rename_i e
    rw [h] at e
    cases e

/-- An item that is not read ends the reading. -/
lemma items_of_error {t ts e rest} (h : item (t :: ts) = .error e rest) :
    items (t :: ts) = .error e rest := by
  rw [items]
  split
  · rename_i e
    rw [h] at e
    cases e
  · rename_i e
    rw [h] at e
    cases e
    rfl

/-- Reading all items follows the stages up to the end of the tokens, or up to the first token that
cannot follow. -/
theorem items_follows (tokens : List SpacedToken) :
    Follows .start tokens (fun _ q rest => q = .start ∧ rest = []) (items tokens) := by
  -- an item takes several tokens, so the induction is on how many are left
  induction n : tokens.length using Nat.strong_induction_on generalizing tokens with
  | _ n ih =>
    cases tokens with
    | nil =>
      rw [items_nil]
      exact ⟨.start, .refl, rfl, rfl⟩
    | cons t ts =>
      have first := item_follows (t :: ts) nofun
      cases e : item (t :: ts) with
      | ok i rest =>
        rw [e] at first
        obtain ⟨_, lead, rfl⟩ := first
        have later := ih rest.length (n ▸ item_length_lt e) rest rfl
        rw [items_of_ok e]
        cases e' : items rest with
        | ok is left =>
          rw [e'] at later
          exact later.of_leads (r := .ok (i :: is) left) lead
        | error e left =>
          rw [e'] at later
          exact later.of_leads (r := .error e left) lead
      | error e' rest =>
        rw [items_of_error e]
        rw [e] at first
        exact first

/-- A grammar is the items that are read. -/
lemma grammar_of_ok {tokens is rest} (h : items tokens = .ok is rest) :
    grammar tokens = .ok ⟨is⟩ rest := by
  simp only [grammar, bind, EStateM.bind, h]
  rfl

/-- A grammar is not read if its items are not. -/
lemma grammar_of_error {tokens e rest} (h : items tokens = .error e rest) :
    grammar tokens = .error e rest := by
  simp only [grammar, bind, EStateM.bind, h]

end Reader

namespace SpacedToken

/-- Noting the gaps keeps the tokens. -/
lemma ofTokens_token (before? : Option Token) (tokens : List Token) :
    (ofTokens before? tokens).map (·.token) = tokens := by
  induction tokens generalizing before? with
  | nil => rfl
  | cons t ts ih => rw [ofTokens, List.map_cons, ih]

/-- Noting the gaps keeps the classes. -/
lemma ofTokens_kinds (before? : Option Token) (tokens : List Token) :
    kinds (ofTokens before? tokens) = tokens.map (·.kind) := by
  have e := congrArg (List.map Token.kind) (ofTokens_token before? tokens)
  rwa [List.map_map] at e

end SpacedToken

namespace Stage

end Stage

namespace Reader
open Stage

/-- Reading all items succeeds on the words of grammar files and on no others. -/
theorem items_ok_iff {tokens : List SpacedToken} :
    (∃ is, items tokens = .ok is []) ↔ SpacedToken.kinds tokens ∈ grammarWords := by
  have h := items_follows tokens
  rw [← after?_eq_start_iff]
  cases e : items tokens with
  | ok is rest =>
    rw [e] at h
    obtain ⟨_, lead, rfl, rfl⟩ := h
    obtain ⟨taken, rfl, after⟩ := lead.taken
    rw [List.append_nil]
    exact ⟨fun _ => after, fun _ => ⟨is, rfl⟩⟩
  | error e' rest =>
    rw [e] at h
    obtain ⟨q, lead, stuck, _⟩ := h
    obtain ⟨taken, rfl, after⟩ := lead.taken
    refine ⟨nofun, fun complete => ?_⟩
    rw [SpacedToken.kinds, List.map_append, ← SpacedToken.kinds, after?_append, after] at complete
    cases rest with
    | nil => exact absurd (Option.some.inj complete) stuck
    | cons t ts =>
      rw [Option.bind_some, List.map_cons, after?_cons, stuck] at complete
      cases complete

/-- Tokens that are no words of the language are read up to a token at which a stage is stuck. -/
lemma items_error {tokens : List SpacedToken} (h : SpacedToken.kinds tokens ∉ grammarWords) :
    ∃ q taken rest, tokens = taken ++ rest ∧ start.after? (SpacedToken.kinds taken) = some q
      ∧ q.Stuck rest
      ∧ items tokens = .error (.unexpected ⟨rest.head?.map (·.token), q.expected⟩) rest := by
  have follows := items_follows tokens
  cases e : items tokens with
  | ok is rest =>
    rw [e] at follows
    obtain ⟨_, _, rfl, rfl⟩ := follows
    exact absurd (items_ok_iff.1 ⟨is, e⟩) h
  | error e' rest =>
    rw [e] at follows
    obtain ⟨q, lead, stuck, rfl⟩ := follows
    obtain ⟨taken, split, after⟩ := lead.taken
    exact ⟨q, taken, rest, split, after, stuck, rfl⟩

/-- Tokens cannot be stuck in two places. -/
lemma stuck_prefix {taken taken' rest rest' : List SpacedToken} {q q'}
    (split : taken ++ rest = taken' ++ rest')
    (after : start.after? (SpacedToken.kinds taken) = some q) (stuck : q.Stuck rest)
    (after' : start.after? (SpacedToken.kinds taken') = some q') : taken' <+: taken := by
  obtain ⟨mid, rfl, rfl⟩ | ⟨mid, rfl, rfl⟩ := List.append_eq_append_iff.1 split
  · cases mid with
    | nil => exact ⟨[], by simp⟩
    | cons t ts =>
      rw [SpacedToken.kinds, List.map_append, ← SpacedToken.kinds, after?_append, after,
        Option.bind_some, List.map_cons, after?_cons, stuck] at after'
      cases after'
  · exact List.prefix_append _ _

/-- Tokens at which a stage is stuck are where a reading fails. -/
lemma items_of_stuck {taken rest : List SpacedToken} {q}
    (after : start.after? (SpacedToken.kinds taken) = some q) (stuck : q.Stuck rest) :
    items (taken ++ rest) = .error (.unexpected ⟨rest.head?.map (·.token), q.expected⟩) rest := by
  have h : SpacedToken.kinds (taken ++ rest) ∉ grammarWords := by
    rw [← after?_eq_start_iff, SpacedToken.kinds, List.map_append, ← SpacedToken.kinds,
      after?_append, after, Option.bind_some]
    cases rest with
    | nil => exact fun e => stuck (Option.some.inj e)
    | cons t ts =>
      rw [List.map_cons, after?_cons, stuck]
      nofun
  obtain ⟨q', taken', rest', split, after', stuck', failed⟩ := items_error h
  -- both places are where the stages stop, so they are the same
  have longer := stuck_prefix split after stuck after'
  have shorter := stuck_prefix split.symm after' stuck' after
  cases longer.eq_of_length (Nat.le_antisymm longer.length_le shorter.length_le)
  cases List.append_cancel_left split
  cases after.symm.trans after'
  exact failed

end Reader

end YeccDefr
