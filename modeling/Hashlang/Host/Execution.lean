import Hashlang.Evaluation.Evaluate
import Hashlang.Host.Failure
import Hashlang.Syntax.Read
import Hashlang.Token.Listing

namespace Hashlang

inductive Emit where
  | tokens
  | tree
  | value
deriving DecidableEq, Inhabited

namespace Emit

def all : List Emit := [tokens, tree, value]

def word : Emit → String
  | tokens => "tokens"
  | tree => "ast"
  | value => "value"

def ofWord? (text : String) : Option Emit := all.find? fun emit => emit.word = text

def name : Emit → String
  | tokens => "Tokens"
  | tree => "Ast"
  | value => "Value"

end Emit

structure Execution where
  log : List Log.Entry := []
  written : String := ""
  result : Except Failure Unit := .ok ()

namespace Execution

def writing (log : List Log.Entry) (text : String) : Execution := { log, written := text }

def failing (log : List Log.Entry) (failure : Failure) : Execution :=
  { log, result := .error failure }

def withProgram (source : String) (next : List Log.Entry → Program → Execution) : Execution :=
  match readSource source with
  | (log, .ok p) => next log p
  | (log, .error e) => failing log (.ofSyntaxError source e)

def valueOf (log : List Log.Entry) (p : Program) : Execution :=
  let run := p.evaluate (φ := Empty) {} {}
  let log := log ++ run.events.map Evaluation.Event.entry
  match run.result with
  | .ok none => writing log ""
  | .ok (some value) => writing log (value.render ++ "\n")
  | .error e => failing log (.evaluation e)

def upTo (emit : Emit) (colored : Bool) (source : String) : Execution :=
  match emit with
  | .tokens =>
    let tokens := scan source
    writing (scanEntries tokens) (Token.listing colored tokens)
  | .tree => withProgram source fun log p => writing log p.render
  | .value => withProgram source valueOf

end Execution

def execute (emit : Emit) (colored : Bool) (source : String) : Execution :=
  let opening : Log.Entry :=
    ⟨.trace, .host, s!"running {source.length} chars of source, emitting {emit.name}"⟩
  let execution := Execution.upTo emit colored source
  { execution with log := opening :: execution.log }

end Hashlang
