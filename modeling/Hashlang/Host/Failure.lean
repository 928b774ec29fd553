import Hashlang.Evaluation.Value
import Hashlang.Syntax.Error

namespace Hashlang

inductive ReadFailure where
  | missing
  | notText
  | other (message : String)
deriving DecidableEq

def ReadFailure.message : ReadFailure → String
  | missing => "No such file or directory (os error 2)"
  | notText => "stream did not contain valid UTF-8"
  | other message => message

/-- Why a source was not run. No primitive can be reached by a program that is run on its own. -/
inductive Failure where
  | unreadableFile (path : String) (reason : ReadFailure)
  | unreadableStandardInput (reason : ReadFailure)
  | invalid (error : SyntaxError) (place : Option Place)
  | evaluation (error : EvalError Empty)
deriving DecidableEq

namespace Failure

def ofSyntaxError (source : String) (error : SyntaxError) : Failure :=
  .invalid error (error.location.map fun location => location.place source)

def chain : Failure → List String
  | unreadableFile path reason =>
    [s!"could not read source file {quoted path}", reason.message]
  | unreadableStandardInput reason => ["could not read source from stdin", reason.message]
  | invalid error none => ["invalid source", error.message]
  | invalid error (some place) =>
    [s!"invalid source at line {place.line}, column {place.column}", error.message]
  | evaluation error => [error.message]

end Failure

end Hashlang
