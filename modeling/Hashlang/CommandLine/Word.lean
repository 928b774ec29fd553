namespace Hashlang

namespace CommandLine

inductive Switch where
  | verbose
  | quiet
  | help
  | version
deriving DecidableEq

inductive Setting where
  | source
  | emit
deriving DecidableEq

inductive CommandOption where
  | switch (s : Switch)
  | setting (s : Setting)
deriving DecidableEq

namespace CommandOption

def ofLetter? : Char → Option CommandOption
  | 'v' => some (.switch .verbose)
  | 'q' => some (.switch .quiet)
  | 'h' => some (.switch .help)
  | 'V' => some (.switch .version)
  | 'e' => some (.setting .source)
  | _ => none

def ofName? : String → Option CommandOption
  | "verbose" => some (.switch .verbose)
  | "quiet" => some (.switch .quiet)
  | "help" => some (.switch .help)
  | "version" => some (.switch .version)
  | "eval" => some (.setting .source)
  | "emit" => some (.setting .emit)
  | _ => none

end CommandOption

def Switch.name : Switch → String
  | verbose => "--verbose"
  | quiet => "--quiet"
  | help => "--help"
  | version => "--version"

def Setting.name : Setting → String
  | source => "--eval"
  | emit => "--emit"

inductive Word where
  | separator
  | named (name : String) (value : Option String)
  | letters (letters : List Char)
  | plain (text : String)
deriving DecidableEq

def valueBehind (text : List Char) : Option String :=
  match text.dropWhile (· ≠ '=') with
  | [] => none
  | _ :: value => some (.ofList value)

def Word.ofString (word : String) : Word :=
  match word.toList with
  | ['-', '-'] => .separator
  | '-' :: '-' :: text => .named (.ofList (text.takeWhile (· ≠ '='))) (valueBehind text)
  | '-' :: c :: rest => .letters (c :: rest)
  | _ => .plain word

end CommandLine

end Hashlang
