import Hashlang.Decimal.Numeral
import Hashlang.Text.Quoted
import Hashlang.Text.Span

namespace Hashlang

inductive Token.Kind where
  | openParen
  | closeParen
  | openBracket
  | closeBracket
  | quote
  | directive
  | identifier
  | string
  | number
  | comment
  | endOfFile
  | illegal
deriving DecidableEq, Inhabited

namespace Token.Kind

def all : List Kind :=
  [openParen, closeParen, openBracket, closeBracket, quote, directive, identifier, string, number,
    comment, endOfFile, illegal]

def name : Kind → String
  | openParen => "OpenParen"
  | closeParen => "CloseParen"
  | openBracket => "OpenBracket"
  | closeBracket => "CloseBracket"
  | quote => "Quote"
  | directive => "Macro"
  | identifier => "Identifier"
  | string => "StringLiteral"
  | number => "NumberLiteral"
  | comment => "Comment"
  | endOfFile => "EndOfFile"
  | illegal => "Illegal"

def ofName? (text : String) : Option Kind := all.find? fun kind => kind.name = text

def fixedText? : Kind → Option String
  | openParen => some "("
  | closeParen => some ")"
  | openBracket => some "["
  | closeBracket => some "]"
  | quote => some "'"
  | endOfFile => some ""
  | _ => none

/-- Kinds that mean nothing where an expression is expected and are passed over. -/
def isNoise : Kind → Bool
  | comment | quote | openBracket | closeBracket | directive => true
  | _ => false

end Token.Kind

/-- A piece of a text. For strings and comments `value` leaves the delimiters out, for every other
kind it is the text as written. -/
structure Token where
  kind : Token.Kind
  value : String
  span : Span
deriving DecidableEq, Inhabited

namespace Token

def fixed (kind : Kind) (span : Span) : Token where
  kind := kind
  value := kind.fixedText?.getD ""
  span := span

def alike (s t : Token) : Bool := s.kind == t.kind && s.value == t.value

def numeral? (t : Token) : Option Numeral :=
  if t.kind = .number then Numeral.read? t.value else none

def describe (t : Token) : String := s!"{t.kind.name}({quoted t.value})"

def shift (n : Nat) (t : Token) : Token := { t with span := t.span.shift n }

end Token

end Hashlang
