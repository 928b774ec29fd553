import Hashlang.CommandLine.Word

namespace Hashlang

namespace CommandLine

inductive Refusal where
  | help
  | version
  | unknownOption (name : String)
  | secondFile (text : String)
  | unwantedValue (s : Switch)
  | missingValue (s : Setting)
  | invalidEmit (text : String)
  | emptyFileName
  | tooOften (s : Switch)
  | repeated (s : Setting)
  | opposed
  | fileAndSource
deriving DecidableEq

def Refusal.message : Refusal → String
  | .help => "help was asked for"
  | .version => "the version was asked for"
  | .unknownOption name => s!"unexpected argument '{name}'"
  | .secondFile text => s!"unexpected argument '{text}'"
  | .unwantedValue s => s!"'{s.name}' takes no value"
  | .missingValue s => s!"'{s.name}' needs a value"
  | .invalidEmit text => s!"invalid value '{text}' for '--emit'"
  | .emptyFileName => "the name of the source file is empty"
  | .tooOften s => s!"'{s.name}' can be given twice at most"
  | .repeated s => s!"'{s.name}' can not be given more than once"
  | .opposed => "'--verbose' can not be used with '--quiet'"
  | .fileAndSource => "a source file can not be used with '--eval'"

end CommandLine

end Hashlang
