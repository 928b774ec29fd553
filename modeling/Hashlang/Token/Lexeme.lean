import Hashlang.Reading.Tape
import Hashlang.Token.Basic

namespace Hashlang

namespace Lexeme

def isBlank (c : Char) : Bool := c = ' ' || c = '\t' || c = '\r' || c = '\n'

def delimiters : List Char :=
  ['(', ')', '[', ']', '\x7b', '\x7d', '"', ',', '\'', '\x60', ';', '#', '|', '\\']

def isNameChar (c : Char) : Bool := !isBlank c && !delimiters.contains c

/-- Whether a character may stand at the start of an identifier. The three exceptions are allowed
behind the start, so `equal?` is an identifier and a stray `?` is not. -/
def isNameStart (c : Char) : Bool := isNameChar c && !(c = '.' || c = '?' || c = '!')

def nameStep (_ : Unit) (c : Char) : Option Unit := if isNameChar c then some () else none

def numberStep (pointSeen : Bool) (c : Char) : Option Bool :=
  if c.isDigit then some pointSeen
  else if c = '.' && !pointSeen then some true
  else none

end Lexeme

inductive Lexeme where
  | token (kind : Token.Kind) (value : List Char)
  | stray (text : List Char)
deriving DecidableEq

namespace Lexeme

variable {κ : Type} [Tape κ Char]

def readName (c : Char) (k : κ) : List Char × κ :=
  let (rest, k) := Tape.readWhile nameStep (Tape.remaining k + 1) () k
  (c :: rest, k)

def readNumber (c : Char) (k : κ) : List Char × κ :=
  let (rest, k) := Tape.readWhile numberStep (Tape.remaining k + 1) false k
  (c :: rest, k)

def startsNumber (c : Char) (k : κ) : Bool :=
  c.isDigit || (c = '-' && (Tape.peek k).any Char.isDigit)

/-- Reads the lexeme that begins with the character `c`, which is no blank and was taken from the
tape last. -/
def read (c : Char) (k : κ) : Lexeme × κ :=
  if c = '(' then (.token .openParen [c], k)
  else if c = ')' then (.token .closeParen [c], k)
  else if c = '[' then (.token .openBracket [c], k)
  else if c = ']' then (.token .closeBracket [c], k)
  else if c = ';' then
    let (comment, k) := Tape.readUntil (· = '\n') (Tape.remaining k + 1) k
    (.token .comment comment, k)
  else if c = '\'' then
    if (Tape.peek k).any isNameStart then
      let (name, k) := readName c k
      (.token .identifier name, k)
    else (.token .quote [c], k)
  else if c = '"' then
    match Tape.readThrough? (· = '"') (Tape.remaining k + 1) k with
    | (some string, k) => (.token .string string, k)
    | (none, k) => (.stray [c], k)
  else if c = '#' then
    let (name, k) := readName c k
    if name = [c] then (.stray [c], k) else (.token .directive name, k)
  else if startsNumber c k then
    let (number, k) := readNumber c k
    (.token .number number, k)
  else if isNameStart c then
    let (name, k) := readName c k
    (.token .identifier name, k)
  else (.stray [c], k)

end Lexeme

end Hashlang
