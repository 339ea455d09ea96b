import YeccDefr.Error
import YeccDefr.Grammar.Basic

/-!
# Reading a grammar from tokens

The tokens of a grammar are read by one function for each production:

    grammar = item*
    item    = symbol (symbol+ | string+) "."
            | symbol "->" symbol+ [":" code+] "."

A symbol is a variable, an atom or an integer, a code token any token but the dot. One token of
look-ahead decides everywhere. The productions are read by a few steps in some monad (`Lector`). A
`Reader` takes tokens from the front of a list; when it fails, the tokens it has not taken are what a
later reader goes on with.
-/

namespace YeccDefr

/-- A token with whether something was skipped between it and the token before it. -/
structure SpacedToken where
  token : Token
  spaced : Bool
  deriving DecidableEq

/-- Notes for each token whether it starts after the end of the token before it. -/
def SpacedToken.ofTokens (before? : Option Token) : List Token → List SpacedToken
  | [] => []
  | t :: ts =>
    ⟨t, before?.any fun before => before.region.stop.index < t.region.start.index⟩
      :: ofTokens (some t) ts

/-- The steps by which items are read in a monad. -/
structure Lector (m : Type → Type) where
  /-- The class of the next token. -/
  nextKind? : m (Option Token.Kind)
  /-- Takes the next token. -/
  skip : m Unit
  /-- Fails at the next token. -/
  fail : Expected → m Unit
  /-- Takes the next token as a symbol where its class is accepted. -/
  one : (Token.Kind → Bool) → Expected → m Symbol
  /-- Takes tokens as symbols as long as their classes are accepted. -/
  many : (Token.Kind → Bool) → Expected → m (List Symbol)

namespace Lector
variable {m : Type → Type} [Monad m] (r : Lector m)

/-- Takes one symbol and all further ones of accepted classes. -/
def oneOrMore (accepts : Token.Kind → Bool) (expected : Expected) : m (List Symbol) := do
  let first ← r.one accepts expected
  let others ← r.many accepts expected
  return first :: others

/-- Takes the dot at the end of an item. -/
def dot : m Unit := do
  if (← r.nextKind?) = some .dot then r.skip else r.fail .dot

/-- The code attached to a rule, if a colon announces any. -/
def attachedCode? : m (Option (List Symbol)) := do
  if (← r.nextKind?) = some .colon then
    r.skip
    return some (← r.oneOrMore Token.Kind.isCode .code)
  else
    return none

/-- A declaration after its head. -/
def declaration (head : Symbol) : m Declaration := do
  let body ←
    if (← r.nextKind?) = some .stringLiteral then r.oneOrMore (· == .stringLiteral) .body
    else r.oneOrMore Token.Kind.isGrammarSymbol .body
  r.dot
  return ⟨head, body⟩

/-- A rule after its head and the arrow. -/
def rule (head : Symbol) : m Rule := do
  let symbols ← r.oneOrMore Token.Kind.isGrammarSymbol .symbol
  let code? ← r.attachedCode?
  r.dot
  return ⟨head, symbols, code?⟩

/-- An item after its head. The next token tells rules from declarations. -/
def afterHead (head : Symbol) : m Item := do
  if (← r.nextKind?) = some .arrow then
    r.skip
    return .rule (← r.rule head)
  else
    return .declaration (← r.declaration head)

/-- One item. -/
def item : m Item := do
  let head ← r.one Token.Kind.isGrammarSymbol .symbol
  r.afterHead head

/-! ## Related lectors -/

variable {n : Type → Type} [Monad n]

/-- The steps of two lectors are related, by a relation that sequencing preserves. -/
structure Matches (R : (α : Type) → m α → n α → Prop) (a : Lector m) (b : Lector n) : Prop where
  pure {α : Type} (v : α) : R α (pure v) (pure v)
  bind {α β : Type} {x : m α} {y : n α} {f : α → m β} {g : α → n β} :
    R α x y → (∀ v, R β (f v) (g v)) → R β (x >>= f) (y >>= g)
  nextKind? : R _ a.nextKind? b.nextKind?
  skip : R _ a.skip b.skip
  fail (expected : Expected) : R _ (a.fail expected) (b.fail expected)
  one (accepts : Token.Kind → Bool) (expected : Expected) : R _ (a.one accepts expected) (b.one accepts expected)
  many (accepts : Token.Kind → Bool) (expected : Expected) :
    R _ (a.many accepts expected) (b.many accepts expected)

section
variable {R : (α : Type) → m α → n α → Prop} {a : Lector m} {b : Lector n} (h : Matches R a b)
include h

/-- Matching lectors read one or more symbols alike. -/
theorem oneOrMore_matches (accepts : Token.Kind → Bool) (expected : Expected) :
    R _ (a.oneOrMore accepts expected) (b.oneOrMore accepts expected) :=
  h.bind (h.one _ _) fun _ => h.bind (h.many _ _) fun _ => h.pure _

/-- Matching lectors read a dot alike. -/
theorem dot_matches : R _ a.dot b.dot := by
  refine h.bind h.nextKind? fun _ => ?_
  split
  · exact h.skip
  · exact h.fail _

/-- Matching lectors read attached code alike. -/
theorem attachedCode?_matches : R _ a.attachedCode? b.attachedCode? := by
  refine h.bind h.nextKind? fun _ => ?_
  split
  · exact h.bind h.skip fun _ => h.bind (oneOrMore_matches h _ _) fun _ => h.pure _
  · exact h.pure _

/-- Matching lectors read a declaration alike. -/
theorem declaration_matches (head : Symbol) : R _ (a.declaration head) (b.declaration head) := by
  refine h.bind h.nextKind? fun _ => ?_
  split
  · exact h.bind (oneOrMore_matches h _ _) fun _ => h.bind (dot_matches h) fun _ => h.pure _
  · exact h.bind (oneOrMore_matches h _ _) fun _ => h.bind (dot_matches h) fun _ => h.pure _

/-- Matching lectors read a rule alike. -/
theorem rule_matches (head : Symbol) : R _ (a.rule head) (b.rule head) := by
  refine h.bind (oneOrMore_matches h _ _) fun _ => h.bind (attachedCode?_matches h) fun _ => ?_
  exact h.bind (dot_matches h) fun _ => h.pure _

/-- Behind its head matching lectors read an item alike. -/
theorem afterHead_matches (head : Symbol) : R _ (a.afterHead head) (b.afterHead head) := by
  refine h.bind h.nextKind? fun _ => ?_
  split
  · exact h.bind h.skip fun _ => h.bind (rule_matches h head) fun _ => h.pure _
  · exact h.bind (declaration_matches h head) fun _ => h.pure _

/-- Matching lectors read an item alike. -/
theorem item_matches : R _ a.item b.item :=
  h.bind (h.one _ _) fun head => afterHead_matches h head

end

end Lector

/-- A reader of tokens. -/
abbrev Reader := EStateM Error (List SpacedToken)

namespace Reader

/-- The class of the next token. -/
def nextKind? : Reader (Option Token.Kind) := fun tokens =>
  .ok (tokens.head?.map (·.token.kind)) tokens

/-- Fails at the next token. -/
def fail {α : Type} (expected : Expected) : Reader α := fun tokens =>
  .error (.unexpected ⟨tokens.head?.map (·.token), expected⟩) tokens

/-- Takes the next token. -/
def skip : Reader Unit := fun tokens => .ok () tokens.tail

/-- Takes the next token as a symbol where its class is accepted. -/
def one (accepts : Token.Kind → Bool) (expected : Expected) : Reader Symbol := fun tokens =>
  match tokens with
  | [] => fail expected []
  | t :: ts =>
    if accepts t.token.kind then
      match Symbol.classify t.token t.spaced with
      | .ok s => .ok s ts
      | .error e => .error (.unclassified e) (t :: ts)
    else fail expected (t :: ts)

/-- Takes tokens as symbols as long as their classes are accepted. -/
def many (accepts : Token.Kind → Bool) : Reader (List Symbol)
  | [] => .ok [] []
  | t :: ts =>
    if accepts t.token.kind then
      match Symbol.classify t.token t.spaced with
      | .ok s =>
        match many accepts ts with
        | .ok ss rest => .ok (s :: ss) rest
        | .error e rest => .error e rest
      | .error e => .error (.unclassified e) (t :: ts)
    else .ok [] (t :: ts)

/-- Reading from a list of the tokens that are left. -/
def lector : Lector Reader where
  nextKind? := nextKind?
  skip := skip
  fail := fail
  one := one
  many accepts _ := many accepts

/-- Takes one symbol and all further ones of accepted classes. -/
def oneOrMore (accepts : Token.Kind → Bool) (expected : Expected) : Reader (List Symbol) :=
  lector.oneOrMore accepts expected

/-- Takes the dot at the end of an item. -/
def dot : Reader Unit := lector.dot

/-- The code attached to a rule, if a colon announces any. -/
def attachedCode? : Reader (Option (List Symbol)) := lector.attachedCode?

/-- A declaration after its head. -/
def declaration (head : Symbol) : Reader Declaration := lector.declaration head

/-- A rule after its head and the arrow. -/
def rule (head : Symbol) : Reader Rule := lector.rule head

/-- One item. The token after its head tells rules from declarations. -/
def item : Reader Item := lector.item

/-! ## The readers by their steps -/

/-- One symbol is taken, and then all further ones. -/
theorem oneOrMore_eq (accepts : Token.Kind → Bool) (expected : Expected) :
    oneOrMore accepts expected = (do
      let first ← one accepts expected
      let others ← many accepts
      return first :: others) := rfl

/-- A dot is skipped, and anything else is an error. -/
theorem dot_eq : dot = (do if (← nextKind?) = some .dot then skip else fail .dot) := rfl

/-- A colon is skipped, and code taken behind it. -/
theorem attachedCode?_eq : attachedCode? = (do
    if (← nextKind?) = some .colon then
      skip
      return some (← oneOrMore Token.Kind.isCode .code)
    else
      return none) := rfl

/-- The first token of its body tells strings from symbols. -/
theorem declaration_eq (head : Symbol) : declaration head = (do
    let body ←
      if (← nextKind?) = some .stringLiteral then oneOrMore (· == .stringLiteral) .body
      else oneOrMore Token.Kind.isGrammarSymbol .body
    dot
    return ⟨head, body⟩) := rfl

/-- Symbols, code if there is any, and a dot make a rule. -/
theorem rule_eq (head : Symbol) : rule head = (do
    let symbols ← oneOrMore Token.Kind.isGrammarSymbol .symbol
    let code? ← attachedCode?
    dot
    return ⟨head, symbols, code?⟩) := rfl

/-- An arrow behind the head is skipped, and makes the item a rule. -/
theorem item_eq : item = (do
    let head ← one Token.Kind.isGrammarSymbol .symbol
    if (← nextKind?) = some .arrow then
      skip
      return .rule (← rule head)
    else
      return .declaration (← declaration head)) := rfl

/-! ## An item takes at least one token -/

/-- A reader that leaves at most the tokens it was given. -/
def Keeps {α : Type} (r : Reader α) : Prop :=
  ∀ tokens a rest, r tokens = .ok a rest → rest.length ≤ tokens.length

/-- A reader that takes nothing keeps all tokens. -/
theorem Keeps.pure {α : Type} {a : α} : Keeps (Pure.pure a : Reader α) := by
  intro tokens b rest h
  cases h
  exact Nat.le_refl _

/-- Two readers keep the bound if each of them does. -/
theorem Keeps.bind {α β : Type} {r : Reader α} {f : α → Reader β} (hr : Keeps r)
    (hf : ∀ a, Keeps (f a)) : Keeps (r >>= f) := by
  intro tokens b rest h
  simp only [Bind.bind, EStateM.bind] at h
  split at h
  · rename_i a left eq
    exact Nat.le_trans (hf a left b rest h) (hr tokens a left eq)
  · cases h

/-- A look at the next token takes nothing. -/
theorem nextKind?_keeps : Keeps nextKind? := by
  intro tokens a rest h
  cases h
  exact Nat.le_refl _

/-- A reader that fails leaves nothing. -/
theorem fail_keeps {α : Type} {expected : Expected} : Keeps (fail expected : Reader α) := nofun

/-- Skipping leaves no more tokens. -/
theorem skip_keeps : Keeps skip := by
  intro tokens a rest h
  cases h
  simp

/-- A symbol that is taken is one token. -/
theorem one_length {accepts expected tokens s rest} (h : one accepts expected tokens = .ok s rest) :
    rest.length + 1 = tokens.length := by
  cases tokens with
  | nil => cases h
  | cons t ts =>
    simp only [one] at h
    split at h
    · split at h <;> cases h
      rfl
    · cases h

/-- Taking a symbol leaves no more tokens. -/
theorem one_keeps {accepts expected} : Keeps (one accepts expected) :=
  fun _ _ _ h => Nat.le_of_succ_le (Nat.le_of_eq (one_length h))

/-- Taking symbols leaves no more tokens. -/
theorem many_keeps {accepts} : Keeps (many accepts) := by
  intro tokens ss rest h
  induction tokens generalizing ss rest with
  | nil =>
    cases h
    exact Nat.le_refl _
  | cons t ts ih =>
    simp only [many] at h
    split at h
    · split at h
      · split at h
        · rename_i eq
          cases h
          exact Nat.le_succ_of_le (ih _ _ eq)
        · cases h
      · cases h
    · cases h
      exact Nat.le_refl _

/-- No step of reading leaves more tokens. -/
theorem lector_keeps : Lector.Matches (fun _ r _ => Keeps r) lector lector where
  pure _ := .pure
  bind h h' := h.bind h'
  nextKind? := nextKind?_keeps
  skip := skip_keeps
  fail _ := fail_keeps
  one _ _ := one_keeps
  many _ _ := many_keeps

/-- An item that is read leaves fewer tokens. -/
theorem item_length_lt {tokens i rest} (h : item tokens = .ok i rest) :
    rest.length < tokens.length := by
  simp only [item, Lector.item, Bind.bind, EStateM.bind] at h
  split at h
  · rename_i head left eq
    have taken := one_length eq
    have later : Keeps (lector.afterHead head) := Lector.afterHead_matches lector_keeps head
    have := later left i rest h
    omega
  · cases h

/-- All items up to the end of the tokens. -/
def items (tokens : List SpacedToken) :
    EStateM.Result Error (List SpacedToken) (List Item) :=
  match tokens with
  | [] => .ok [] []
  | t :: ts =>
    match _ : item (t :: ts) with
    | .ok i rest =>
      match items rest with
      | .ok is left => .ok (i :: is) left
      | .error e left => .error e left
    | .error e rest => .error e rest
  termination_by tokens.length
  decreasing_by exact item_length_lt ‹_›

/-- A grammar: the tokens up to their end. -/
def grammar : Reader Grammar := do
  return ⟨← items⟩

end Reader

namespace Grammar

/-- The grammar that a list of tokens forms. -/
def ofTokens (tokens : List Token) : Except Error Grammar :=
  match Reader.grammar (SpacedToken.ofTokens none tokens) with
  | .ok g _ => .ok g
  | .error e _ => .error e

end Grammar

end YeccDefr
