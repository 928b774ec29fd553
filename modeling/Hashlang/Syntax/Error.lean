import Hashlang.Syntax.Program
import Hashlang.Token.Basic

namespace Hashlang

inductive SyntaxError.Cause where
  | missingHeader
  | unexpected (expected : String) (received : Option Token.Kind)
  | wrongKind (expected : String) (found : Token.Kind)
  | malformedNumber (text : String)
deriving DecidableEq

structure SyntaxError where
  cause : SyntaxError.Cause
  location : Option Span := none
deriving DecidableEq

namespace SyntaxError

def Cause.message : Cause → String
  | missingHeader => "the first statement must set the language with \"#lang <languagename>\""
  | unexpected expected none => s!"expected \"{expected}\", but received nothing"
  | unexpected expected (some kind) => s!"expected \"{expected}\", but received \"{kind.name}\""
  | wrongKind expected found => s!"a {found.name} token can not be used as {expected}"
  | malformedNumber text => s!"{quoted text} is not a number"

def message (e : SyntaxError) : String :=
  match e.location with
  | none => s!"syntax error: {e.cause.message}"
  | some location => s!"syntax error: {e.cause.message} (at {location})"

/-- Another token than the expected one was found. The end of the file counts as nothing. -/
def unexpectedToken (expected : String) (received : Option Token) : SyntaxError :=
  match received.filter fun t => t.kind ≠ .endOfFile with
  | some t => ⟨.unexpected expected (some t.kind), some t.span⟩
  | none => ⟨.unexpected expected none, none⟩

end SyntaxError

def Expr.ofLiteral (t : Token) : Except SyntaxError.Cause Expr :=
  match t.kind with
  | .string => .ok (.string t.value t.span)
  | .number =>
    match h : Numeral.read? t.value with
    | some value => .ok (.number ⟨t.value, value, h⟩ t.span)
    | none => .error (.malformedNumber t.value)
  | found => .error (.wrongKind "a literal" found)

def Expr.ofIdentifier (t : Token) : Except SyntaxError.Cause Expr :=
  match t.kind with
  | .identifier => .ok (.identifier t.value t.span)
  | found => .error (.wrongKind "an identifier" found)

def Header.ofToken (t : Token) : Except SyntaxError.Cause Header :=
  match t.kind with
  | .identifier => .ok ⟨t.value, t.span⟩
  | found => .error (.wrongKind "a language name" found)

end Hashlang
