import Hashlang.Text.Quoted

namespace Hashlang

namespace Log

inductive Level where
  | off
  | error
  | warn
  | info
  | debug
  | trace
deriving DecidableEq, Inhabited

namespace Level

def rank : Level → Nat
  | off => 0
  | error => 1
  | warn => 2
  | info => 3
  | debug => 4
  | trace => 5

def name : Level → String
  | off => "off"
  | error => "error"
  | warn => "warn"
  | info => "info"
  | debug => "debug"
  | trace => "trace"

def label (level : Level) : String := .ofList (level.name.toUpper.toList.leftpad 5 ' ')

end Level

inductive Component where
  | scanner
  | parser
  | scope
  | evaluator
  | host
  | program
deriving DecidableEq

def Component.target : Component → String
  | scanner => "lisa_ast_parsing::lexer"
  | parser => "lisa_ast_parsing::parser"
  | scope => "lisa_eval::scope"
  | evaluator => "lisa_eval::evaluator"
  | host => "lisai::run"
  | program => "lisai"

structure Entry where
  level : Level
  component : Component
  message : String
deriving DecidableEq

/-- How a character of a message is shown: those that begin a control sequence of a terminal or
act on one by themselves are replaced by their codes. -/
def disarm (c : Char) : List Char :=
  if c.toNat ∈ [0x07, 0x08, 0x0c, 0x1b, 0x7f] then
    "\\x".toList ++ (Nat.toDigits 16 c.toNat).leftpad 2 '0'
  else if 0x80 ≤ c.toNat ∧ c.toNat ≤ 0x9f then Quoted.codePoint c
  else [c]

def Entry.text (target : Component → String) (entry : Entry) : String :=
  let message := String.ofList (entry.message.toList.flatMap disarm)
  s!"{entry.level.label} {target entry.component}: {message}\n"

def visible (level : Level) (entries : List Entry) : List Entry :=
  entries.filter fun entry => entry.level.rank ≤ level.rank

def render (target : Component → String) (level : Level) (entries : List Entry) : String :=
  String.join ((visible level entries).map (Entry.text target))

end Log

end Hashlang
