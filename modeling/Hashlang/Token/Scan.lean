import Hashlang.Reading.Cursor
import Hashlang.Token.Lexeme

namespace Hashlang

namespace Scan

structure Stray where
  text : List Char
  start : Nat
  stop : Nat
deriving DecidableEq

namespace Stray

def extend (pending : Option Stray) (text : List Char) (start stop : Nat) : Stray :=
  match pending with
  | none => { text, start, stop }
  | some stray => { stray with text := stray.text ++ text, stop }

def token (stray : Stray) : Token where
  kind := .illegal
  value := String.ofList stray.text
  span := Span.ofBounds stray.start stray.stop

def flush (pending : Option Stray) : List Token := (pending.map token).toList

end Stray

variable {κ : Type} [Tape κ Char]

/-- Scans the rest of a tape behind the illegal text `pending`. A blank or a lexeme ends that text.
At most `fuel` lexemes and blanks are read. -/
def scanFrom : (fuel : Nat) → κ → (pending : Option Stray) → List Token × κ
  | 0, k, pending => (Stray.flush pending, k)
  | fuel + 1, k, pending =>
    let start := Tape.position k
    match Tape.read k with
    | (none, k) => (Stray.flush pending ++ [.fixed .endOfFile { offset := Tape.position k }], k)
    | (some c, k) =>
      if Lexeme.isBlank c then
        let (tokens, k) := scanFrom fuel k none
        (Stray.flush pending ++ tokens, k)
      else
        match Lexeme.read c k with
        | (.token kind value, k) =>
          let token : Token :=
            { kind, value := String.ofList value, span := Span.ofBounds start (Tape.position k) }
          let (tokens, k) := scanFrom fuel k none
          (Stray.flush pending ++ token :: tokens, k)
        | (.stray text, k) =>
          scanFrom fuel k (some (Stray.extend pending text start (Tape.position k)))

def scanTape (k : κ) : List Token × κ := scanFrom (Tape.remaining k + 1) k none

end Scan

def scan (source : String) : List Token := (Scan.scanTape (Cursor.ofText source)).1

end Hashlang
