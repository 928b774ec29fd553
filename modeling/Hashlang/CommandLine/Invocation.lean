import Hashlang.CommandLine.Reading

namespace Hashlang

namespace CommandLine

def programName : String := "lisai"

def programVersion : String := "0.0.0"

def usage : String :=
  s!"Usage: {programName} [OPTIONS] [source file]

Options:
  -v, --verbose        Log more, -vv for everything
  -q, --quiet          Log less, -qq for nothing at all
  -e, --eval <source>  Run this source text instead of a file
      --emit <what>    What to print: tokens, ast or value
  -h, --help           Print help
  -V, --version        Print version
"

structure Conclusion where
  written : String := ""
  complaint : String := ""
  code : UInt32 := 0
deriving DecidableEq

namespace Conclusion

def ofRefusal : Refusal → Conclusion
  | .help => { written := usage }
  | .version => { written := s!"{programName} {programVersion}\n" }
  | refusal => { complaint := s!"error: {refusal.message}\n\n{usage}", code := 2 }

def report (failure : Failure) : String :=
  "Error:\n" ++
    String.join (failure.chain.zipIdx.map fun (message, i) => s!"   {i}: {message}\n")

def ofExecution (level : Log.Level) (e : Execution) : Conclusion :=
  let written := Log.render Log.Component.target level e.log ++ e.written
  match e.result with
  | .ok () => { written }
  | .error failure => { written, complaint := report failure, code := 1 }

end Conclusion

def opening (a : Arguments) : List Log.Entry :=
  [⟨.trace, .program, s!"starting {programName} with args: {a.describe}"⟩,
    ⟨.debug, .program, s!"{programName} version: {programVersion}"⟩]

def executeInput (s : Surroundings) (a : Arguments) : Execution :=
  let log := opening a ++ a.input.entries
  match a.input.read s with
  | .error failure => .failing log failure
  | .ok source =>
    let execution := execute a.emit false source
    { execution with log := log ++ execution.log }

def invoke (s : Surroundings) (words : List String) : Conclusion :=
  match Arguments.ofWords words with
  | .error refusal => .ofRefusal refusal
  | .ok a => .ofExecution a.level (executeInput s a)

end CommandLine

end Hashlang
