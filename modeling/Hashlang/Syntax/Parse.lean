import Hashlang.Log
import Hashlang.Reading.Cursor
import Hashlang.Syntax.Error
import Hashlang.Token.Scan

namespace Hashlang

namespace Parse

inductive Event where
  | consumed (index : Nat) (token : Token)
  | skipped (token : Token)
  | header (name : String)
  | parsed (e : Expr)
  /-- The program ends at a closing parenthesis that closes nothing. -/
  | unmatchedClose

def Event.entry (event : Event) : Log.Entry :=
  let (level, message) : Log.Level × String :=
    match event with
    | consumed _ token => (.trace, s!"consumed {token.describe}")
    | skipped token =>
      (.trace, s!"skipping {token.describe}, it has no meaning as an expression")
    | header name => (.debug, s!"parsing program in language {quoted name}")
    | parsed e => (.trace, s!"parsed statement {e.render}")
    | unmatchedClose => (.debug, "unmatched ) ends the program, ignoring the tokens after it")
  { level, component := .parser, message }

end Parse

structure Parsed (κ β : Type) where
  events : List Parse.Event
  result : Except SyntaxError β
  tape : κ

def Parser (κ β : Type) : Type := κ → Parsed κ β

namespace Parser

variable {κ β γ : Type}

instance : Monad (Parser κ) where
  pure b := fun k => { events := [], result := .ok b, tape := k }
  bind x f := fun k =>
    let first := x k
    match first.result with
    | .error e => { first with result := .error e }
    | .ok b =>
      let second := f b first.tape
      { second with events := first.events ++ second.events }

def fail (e : SyntaxError) : Parser κ β := fun k => { events := [], result := .error e, tape := k }

def note (event : Parse.Event) : Parser κ Unit :=
  fun k => { events := [event], result := .ok (), tape := k }

def ofCause : Except SyntaxError.Cause β → Parser κ β
  | .ok b => pure b
  | .error cause => fail { cause }

def unexpected (expected : String) (received : Option Token) : Parser κ β :=
  fail (.unexpectedToken expected received)

variable [Tape κ Token]

def peek : Parser κ (Option Token) :=
  fun k => { events := [], result := .ok (Tape.peek k), tape := k }

def read : Parser κ (Option Token) := fun k =>
  let (token, k) := Tape.read k
  { events := [], result := .ok token, tape := k }

def rollback : Parser κ Unit :=
  fun k => { events := [], result := .ok (), tape := Tape.rollback k }

def position : Parser κ Nat :=
  fun k => { events := [], result := .ok (Tape.position k), tape := k }

end Parser

namespace Parse

variable {κ : Type} [Tape κ Token]

open Hashlang.Parser (fail note ofCause unexpected peek read rollback position)

def consume : (fuel : Nat) → Parser κ (Option Token)
  | 0 => pure none
  | fuel + 1 => do
    let index ← position
    match ← read with
    | none => pure none
    | some token =>
      if token.kind = .comment then consume fuel
      else do
        note (.consumed index token)
        pure (some token)

def header (fuel : Nat) : Parser κ Header := do
  match ← consume fuel with
  | none => fail { cause := .missingHeader }
  | some token =>
    if token.kind = .directive && token.value = "#lang" then
      match ← consume fuel with
      | none => unexpected "identifier" none
      | some name =>
        if name.kind = .identifier then ofCause (Header.ofToken name)
        else unexpected "identifier" (some name)
    else fail { cause := .missingHeader, location := some token.span }

mutual

/-- The next expression. There is none at a closing parenthesis or at the end of the file, which
stay on the tape, nor where the tokens run out. -/
def expression : (fuel : Nat) → Parser κ (Option Expr)
  | 0 => pure none
  | fuel + 1 => do
    match ← consume (fuel + 1) with
    | none => pure none
    | some token =>
      match token.kind with
      | .string | .number => some <$> ofCause (Expr.ofLiteral token)
      | .identifier => some <$> ofCause (Expr.ofIdentifier token)
      | .openParen => do
        match ← expression fuel with
        | none => unexpected "expression" (← peek)
        | some procedure => do
          let (arguments, close) ← arguments fuel
          pure (some (.application procedure arguments (token.span.join close.span)))
      | .closeParen | .endOfFile => do
        rollback
        pure none
      | .illegal => unexpected "expression" (some token)
      | .comment | .quote | .openBracket | .closeBracket | .directive => do
        note (.skipped token)
        expression fuel

/-- The arguments of an application and the parenthesis that closes it. A token that does not close
it is put back for the argument that it begins. -/
def arguments : (fuel : Nat) → Parser κ (List Expr × Token)
  | 0 => unexpected ")" none
  | fuel + 1 => do
    match ← consume (fuel + 1) with
    | none => unexpected ")" none
    | some token =>
      if token.kind = .closeParen then pure ([], token)
      else if token.kind = .endOfFile then unexpected ")" (some token)
      else do
        rollback
        let argument ← expression fuel
        let (rest, close) ← arguments fuel
        pure (argument.toList ++ rest, close)

end

def expressions : (fuel : Nat) → Parser κ (List Expr)
  | 0 => pure []
  | fuel + 1 => do
    match ← expression fuel with
    | none => pure []
    | some e => do
      note (.parsed e)
      let rest ← expressions fuel
      pure (e :: rest)

def program (fuel : Nat) : Parser κ Program := do
  let header ← header fuel
  note (.header header.name)
  let expressions ← expressions fuel
  let next ← peek
  if next.any fun token => token.kind = .closeParen then note .unmatchedClose
  pure { header, expressions }

end Parse

def parseTape {κ : Type} [Tape κ Token] (k : κ) : Parsed κ Program :=
  Parse.program (2 * Tape.remaining k + 2) k

def parse (tokens : List Token) : Except SyntaxError Program :=
  (parseTape (Cursor.ofList tokens)).result

def parseSource (source : String) : Except SyntaxError Program := parse (scan source)

end Hashlang
