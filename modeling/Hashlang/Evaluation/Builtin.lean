import Hashlang.Evaluation.Value

namespace Hashlang

inductive Builtin where
  | add
  | multiply
  | divide
  | negate
  | stringAppend
  | first
  | last
  | count
  | present
  | typeOf
  | fail
deriving DecidableEq

namespace Builtin

def all : List Builtin :=
  [add, multiply, divide, negate, stringAppend, first, last, count, present, typeOf, fail]

def name : Builtin → String
  | add => "add"
  | multiply => "multiply"
  | divide => "divide"
  | negate => "negate"
  | stringAppend => "string-append"
  | first => "first"
  | last => "last"
  | count => "count"
  | present => "show"
  | typeOf => "type-of"
  | fail => "fail"

def ofName? (text : String) : Option Builtin := all.find? fun b => b.name = text

def renderAll {φ : Type} (values : List (Value φ)) : String :=
  " ".intercalate (values.map Value.render)

def foldNumbers {φ : Type} (combine : Float → Float → Float) (start : Float)
    (values : List (Value φ)) : Except (EvalError φ) (Value φ) := do
  let total ← values.foldlM (fun acc v => do return combine acc (← v.expectNumber)) start
  return .number total

def join {φ : Type} (values : List (Value φ)) : Except (EvalError φ) (Value φ) := do
  let texts ← values.mapM fun v =>
    match v.string? with
    | some text => .ok text
    | none => .error (.wrongType "string" v)
  return .string (String.join texts)

def orNothing {φ : Type} (b : Builtin) (v : Option (Value φ)) : Except (EvalError φ) (Value φ) :=
  match v with
  | some v => .ok v
  | none => .error (.custom s!"{b.name} of nothing")

def run (b : Builtin) (values : List (Value Builtin)) :
    Except (EvalError Builtin) (Value Builtin) :=
  match b with
  | add => foldNumbers (· + ·) 0 values
  | multiply => foldNumbers (· * ·) 1 values
  | divide =>
    match values with
    | [x, y] => do return .number ((← x.expectNumber) / (← y.expectNumber))
    | _ => .error (.custom "divide needs two numbers")
  | negate => do return .number (-(← (← orNothing b values.head?).expectNumber))
  | stringAppend => join values
  | first => orNothing b values.head?
  | last => orNothing b values.getLast?
  | count => .ok (.number (Float.ofNat values.length))
  | present => .ok (.string (renderAll values))
  | typeOf => do return .string (← orNothing b values.head?).typeName
  | fail => .error (.custom s!"failed: {renderAll values}")

instance : Bodies Builtin := ⟨run⟩

end Builtin

end Hashlang
