import Hashlang.Host.Execution
import Hashlang.Host.Input

namespace Hashlang

structure Arguments where
  verbose : Nat := 0
  quiet : Nat := 0
  file : Option String := none
  source : Option String := none
  emit : Emit := .value
deriving DecidableEq

namespace Arguments

def verbosity (a : Arguments) : Int := a.verbose - a.quiet

def level (a : Arguments) : Log.Level :=
  if a.verbosity ≤ -2 then .off
  else if a.verbosity = -1 then .error
  else if a.verbosity = 0 then .warn
  else if a.verbosity = 1 then .debug
  else .trace

def input (a : Arguments) : Input :=
  match a.source, a.file with
  | some source, _ => .inline source
  | none, some path => .file path
  | none, none => .standardInput

def describeOption : Option String → String
  | none => "None"
  | some text => s!"Some({quoted text})"

def describe (a : Arguments) : String :=
  let logging :=
    s!"LoggingArgs \x7b verbose: {a.verbose}, quiet: {a.quiet} \x7d"
  let file := describeOption a.file
  let source := describeOption a.source
  s!"Args \x7b logging: {logging}, file: {file}, eval: {source}, emit: {a.emit.name} \x7d"

end Arguments

end Hashlang
