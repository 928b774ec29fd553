import Hashlang.CommandLine.Arguments
import Hashlang.CommandLine.Refusal

namespace Hashlang

namespace CommandLine

/-- The part of a command line that has been read and not been checked. It is checked when the next option or
file name is accepted, or at the end. -/
inductive Pending where
  | nothing
  | file (name : String)
  | setting (s : Setting) (value : Option String)
deriving DecidableEq

structure Reading where
  verbose : Nat := 0
  quiet : Nat := 0
  file : Option String := none
  source : Option String := none
  emit : Option Emit := none
  pending : Pending := .nothing
deriving DecidableEq

namespace Reading

def set (r : Reading) : Setting → String → Except Refusal Reading
  | .source, text =>
    if r.source.isSome then .error (.repeated .source) else .ok { r with source := some text }
  | .emit, text =>
    if r.emit.isSome then .error (.repeated .emit)
    else
      match Emit.ofWord? text with
      | some emit => .ok { r with emit := some emit }
      | none => .error (.invalidEmit text)

def settle (r : Reading) : Except Refusal Reading :=
  let settled := { r with pending := .nothing }
  match r.pending with
  | .nothing => .ok settled
  | .file name => if name = "" then .error .emptyFileName else .ok { settled with file := some name }
  | .setting s none => .error (.missingValue s)
  | .setting s (some text) => settled.set s text

def count (s : Switch) (n : Nat) : Except Refusal Nat :=
  if n < 2 then .ok (n + 1) else .error (.tooOften s)

def switch (r : Reading) (s : Switch) : Except Refusal Reading := do
  let r ← r.settle
  match s with
  | .help => .error .help
  | .version => .error .version
  | .verbose => return { r with verbose := ← count s r.verbose }
  | .quiet => return { r with quiet := ← count s r.quiet }

def setting (r : Reading) (s : Setting) (value : Option String) : Except Refusal Reading := do
  let r ← r.settle
  match value with
  | none => return { r with pending := .setting s none }
  | some text => r.set s text

/-- Reads the letters behind a dash. Where one of them has a value, the rest is that value, without
one leading equals sign. -/
def letters (r : Reading) : List Char → Except Refusal Reading
  | [] => .ok r
  | c :: rest =>
    match CommandOption.ofLetter? c with
    | none => .error (.unknownOption s!"-{c}")
    | some (.switch s) => do letters (← r.switch s) rest
    | some (.setting s) =>
      r.setting s <|
        match rest with
        | [] => none
        | '=' :: value => some (.ofList value)
        | value => some (.ofList value)

def named (r : Reading) (name : String) (value : Option String) : Except Refusal Reading :=
  match CommandOption.ofName? name, value with
  | none, _ => .error (.unknownOption s!"--{name}")
  | some (.switch s), none => r.switch s
  | some (.switch s), some _ => .error (.unwantedValue s)
  | some (.setting s), value => r.setting s value

def hasFile (r : Reading) : Bool :=
  match r.pending with
  | .file _ => true
  | _ => r.file.isSome

def positional (r : Reading) (text : String) : Except Refusal Reading := do
  if r.hasFile then .error (.secondFile text)
  let r ← r.settle
  return { r with pending := .file text }

def plain (r : Reading) (text : String) : Except Refusal Reading :=
  match r.pending with
  | .setting s none => .ok { r with pending := .setting s (some text) }
  | _ => r.positional text

def words (r : Reading) : List String → Except Refusal Reading
  | [] => .ok r
  | word :: rest =>
    match Word.ofString word with
    | .separator => rest.foldlM positional r
    | .named name value => do words (← r.named name value) rest
    | .letters letters => do words (← r.letters letters) rest
    | .plain text => do words (← r.plain text) rest

def finish (r : Reading) : Except Refusal Arguments := do
  let r ← r.settle
  if r.verbose ≠ 0 ∧ r.quiet ≠ 0 then .error .opposed
  if r.file.isSome ∧ r.source.isSome then .error .fileAndSource
  return {
    verbose := r.verbose
    quiet := r.quiet
    file := r.file
    source := r.source
    emit := r.emit.getD .value }

end Reading

end CommandLine

def Arguments.ofWords (words : List String) : Except CommandLine.Refusal Arguments := do
  let reading ← CommandLine.Reading.words {} words
  reading.finish

end Hashlang
