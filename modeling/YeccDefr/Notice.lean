import YeccDefr.Source.Point
import YeccDefr.Grammar.Directive

/-!
# Notices

A translation tells what it did and what it could not make sense of. It does so in notices, each
with a level of severity, which never change its result. `Logged` is the monad of values that come
with the notices made on the way, in order.
-/

namespace YeccDefr

/-- How severe a notice is. -/
inductive Level where
  | error
  | warn
  | info
  | debug
  | trace
  deriving DecidableEq

namespace Level

/-- The name of a level. -/
def name : Level → String
  | error => "ERROR"
  | warn => "WARN"
  | info => "INFO"
  | debug => "DEBUG"
  | trace => "TRACE"

/-- Levels in order, the most severe first. -/
def rank : Level → Nat
  | error => 0
  | warn => 1
  | info => 2
  | debug => 3
  | trace => 4

end Level

/-- What a translation has to tell. -/
inductive Notice where
  /-- A text was scanned to the given number of tokens. -/
  | scanned (tokens : Nat)
  /-- Tokens were read as a grammar of the given number of items. -/
  | parsed (items : Nat)
  /-- A quoted literal got a name. -/
  | named (literal name : String)
  /-- A grammar was written. -/
  | rendered (items names : Nat)
  /-- The head of a declaration is not a variable. -/
  | headNotVariable (place : Point) (head : String)
  /-- The head of a declaration has no meaning. -/
  | unknownHead (place : Point) (head : String)
  /-- A declaration lacks symbols. -/
  | tooFewSymbols (place : Point) (directive : Directive)
  /-- A placeholder in the code of a rule stands for no symbol of the rule. -/
  | pastSymbols (place : Point) (placeholder : String) (symbols : Nat) (head : String)
  /-- A rule takes more than one line. -/
  | usingBlock (place : Point)
  /-- A file was written. -/
  | wrote (path : String)
  deriving DecidableEq

namespace Notice

/-- The level of a notice. -/
def level : Notice → Level
  | headNotVariable .. | unknownHead .. | tooFewSymbols .. | pastSymbols .. => .warn
  | wrote _ => .info
  | scanned _ | parsed _ | named .. | rendered .. => .debug
  | usingBlock _ => .trace

/-- A notice in words. -/
def message : Notice → String
  | scanned tokens => s!"scanned {tokens} tokens"
  | parsed items => s!"parsed {items} grammar items"
  | named literal name => s!"naming {literal} as {name}"
  | rendered items names => s!"rendered {items} items, {names} generated names so far"
  | headNotVariable place head => s!"{place}: declaration head {head} is not a variable"
  | unknownHead place head => s!"{place}: unknown declaration head {head}"
  | tooFewSymbols place directive => s!"{place}: {directive.head} declaration has too few symbols"
  | pastSymbols place placeholder symbols head =>
    s!"{place}: {placeholder} refers past the {symbols} symbols of {head}"
  | usingBlock place => s!"{place}: using a do block"
  | wrote path => s!"wrote {path}"

/-- The notices that are at least as severe as a threshold. -/
def shown (threshold : Level) (notices : List Notice) : List Notice :=
  notices.filter fun n => n.level.rank ≤ threshold.rank

end Notice

/-- A value with the notices made on the way to it. -/
structure Logged (α : Type) where
  value : α
  notices : List Notice

namespace Logged

instance : Monad Logged where
  pure a := ⟨a, []⟩
  bind x f := ⟨(f x.value).value, x.notices ++ (f x.value).notices⟩

/-- Makes a notice. -/
def report (n : Notice) : Logged Unit := ⟨(), [n]⟩

/-- The value of two steps is that of the second one. -/
@[simp]
theorem bind_value {α β : Type} (x : Logged α) (f : α → Logged β) :
    (x >>= f).value = (f x.value).value := rfl

instance : LawfulMonad Logged :=
  LawfulMonad.mk' Logged
    (fun x => by
      cases x
      simp [Functor.map])
    (fun _ _ => rfl)
    (fun x f g => by simp [bind, List.append_assoc])

end Logged

end YeccDefr
