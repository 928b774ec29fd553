import Hashlang.Decimal.Notation
import Hashlang.Text.Quoted

namespace Hashlang

structure Primitive (φ : Type) where
  name : String
  arity : Option Nat := none
  body : φ
deriving DecidableEq

inductive Value (φ : Type) where
  | number (x : Float)
  | string (text : String)
  | procedure (primitive : Primitive φ)
deriving DecidableEq

inductive EvalError (φ : Type) where
  | unbound (name : String)
  | notCallable (value : Value φ)
  | arity (name : String) (expected received : Nat)
  | wrongType (expected : String) (received : Value φ)
  | custom (message : String)
deriving DecidableEq

variable {φ : Type}

/-- Whether two primitives have the same name and arity; what they do is not compared. -/
def Primitive.alike (p q : Primitive φ) : Bool := p.name == q.name && p.arity == q.arity

namespace Value

def typeName : Value φ → String
  | number _ => "number"
  | string _ => "string"
  | procedure _ => "procedure"

def number? : Value φ → Option Float
  | number x => some x
  | _ => none

def string? : Value φ → Option String
  | string text => some text
  | _ => none

def expectNumber (v : Value φ) : Except (EvalError φ) Float :=
  match v.number? with
  | some x => .ok x
  | none => .error (.wrongType "number" v)

def alike : Value φ → Value φ → Bool
  | number x, number y => x == y
  | string s, string t => s == t
  | procedure p, procedure q => p.alike q
  | _, _ => false

def render : Value φ → String
  | number x => Notation.positional.write x
  | string text => "\"" ++ text ++ "\""
  | procedure p => s!"#<procedure:{p.name}>"

def describe : Value φ → String
  | number x => s!"Number({Notation.scientific.write x})"
  | string text => s!"String({quoted text})"
  | procedure p =>
    let arity := match p.arity with
      | none => "None"
      | some n => s!"Some({n})"
    s!"Primitive(Primitive \x7b name: {quoted p.name}, arity: {arity}, .. \x7d)"

end Value

namespace EvalError

def message : EvalError φ → String
  | unbound name => s!"{quoted name} is not bound in any enclosing scope"
  | notCallable v => s!"{v.render} can not be applied as a procedure"
  | arity name expected received =>
    s!"{name} expects {expected} arguments, but received {received}"
  | wrongType expected received => s!"expected a {expected}, but received {received.render}"
  | custom message => message

def describe : EvalError φ → String
  | unbound name => s!"UnboundIdentifier({quoted name})"
  | notCallable v => s!"NotCallable({v.describe})"
  | arity name expected received =>
    s!"ArityMismatch \x7b name: {quoted name}, expected: {expected}, received: {received} \x7d"
  | wrongType expected received =>
    s!"TypeError \x7b expected: {quoted expected}, received: {received.describe} \x7d"
  | custom message => s!"Custom({quoted message})"

end EvalError

class Bodies (φ : Type) where
  run : φ → List (Value φ) → Except (EvalError φ) (Value φ)

instance : Bodies Empty := ⟨fun code _ => nomatch code⟩

def Primitive.call [Bodies φ] (p : Primitive φ) (arguments : List (Value φ)) :
    Except (EvalError φ) (Value φ) :=
  match p.arity with
  | none => Bodies.run p.body arguments
  | some expected =>
    if expected = arguments.length then Bodies.run p.body arguments
    else .error (.arity p.name expected arguments.length)

end Hashlang
