import Hashlang.Decimal.Numeral
import Hashlang.Text.Span

namespace Hashlang

structure NumberText where
  text : String
  value : Numeral
  reads : Numeral.read? text = some value
deriving DecidableEq

theorem NumberText.eq_of_text {a b : NumberText} (same : a.text = b.text) : a = b := by
  obtain ⟨text, value, reads⟩ := a
  obtain ⟨text', value', reads'⟩ := b
  dsimp only at same
  subst same
  rw [reads] at reads'
  cases reads'
  rfl

inductive Expr where
  | number (literal : NumberText) (span : Span)
  | string (text : String) (span : Span)
  | identifier (name : String) (span : Span)
  | application (procedure : Expr) (arguments : List Expr) (span : Span)
deriving Inhabited

/-- Two numbers are alike if their texts agree and they are equal as numbers. A text that is not a
number is like nothing, itself included. -/
def NumberText.alike (a b : NumberText) : Bool := a.text == b.text && !a.value.isNaN

namespace Expr

def span : Expr → Span
  | number _ s | string _ s | identifier _ s | application _ _ s => s

mutual

def render : Expr → String
  | number literal _ => literal.text
  | string text _ => "\"" ++ text ++ "\""
  | identifier name _ => name
  | application procedure arguments _ => "(" ++ procedure.render ++ renderEach arguments ++ ")"

def renderEach : List Expr → String
  | [] => ""
  | e :: rest => " " ++ e.render ++ renderEach rest

end

mutual

def alike : Expr → Expr → Bool
  | number a _, number b _ => a.alike b
  | string a _, string b _ => a == b
  | identifier a _, identifier b _ => a == b
  | application p as _, application q bs _ => p.alike q && alikeEach as bs
  | _, _ => false

def alikeEach : List Expr → List Expr → Bool
  | [], [] => true
  | a :: as, b :: bs => a.alike b && alikeEach as bs
  | _, _ => false

end

mutual

def nodes (depth : Nat) : Expr → List (Nat × Expr)
  | application procedure arguments s =>
    (depth, application procedure arguments s) ::
      (procedure.nodes (depth + 1) ++ nodesOfEach (depth + 1) arguments)
  | e => [(depth, e)]

def nodesOfEach (depth : Nat) : List Expr → List (Nat × Expr)
  | [] => []
  | e :: rest => e.nodes depth ++ nodesOfEach depth rest

end

mutual

def shift (n : Nat) : Expr → Expr
  | number literal s => number literal (s.shift n)
  | string text s => string text (s.shift n)
  | identifier name s => identifier name (s.shift n)
  | application procedure arguments s =>
    application (procedure.shift n) (shiftEach n arguments) (s.shift n)

def shiftEach (n : Nat) : List Expr → List Expr
  | [] => []
  | e :: rest => e.shift n :: shiftEach n rest

end

end Expr

end Hashlang
