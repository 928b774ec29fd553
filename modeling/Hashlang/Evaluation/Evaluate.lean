import Hashlang.Evaluation.Language
import Hashlang.Log
import Hashlang.Syntax.Program

namespace Hashlang

variable {φ : Type}

inductive Evaluation.Event (φ : Type) where
  | bound (name : String) (value : Value φ)
  | loading (name : String)
  | unknownLanguage (name : String)
  | applying (name : String) (arguments : Nat) (span : Span)
  | finished (value : Option (Value φ))

def Evaluation.Event.entry : Evaluation.Event φ → Log.Entry
  | bound name value => ⟨.trace, .scope, s!"binding {quoted name} to {value.render}"⟩
  | loading name => ⟨.debug, .evaluator, s!"loading language {quoted name}"⟩
  | unknownLanguage name =>
    ⟨.debug, .evaluator,
      s!"no language named {quoted name} is registered, nothing is loaded"⟩
  | applying name arguments span =>
    ⟨.trace, .evaluator, s!"applying {name} to {arguments} arguments at {span}"⟩
  | finished none => ⟨.debug, .evaluator, "program evaluated to nothing"⟩
  | finished (some value) => ⟨.debug, .evaluator, s!"program evaluated to {value.render}"⟩

structure Evaluation (φ α : Type) where
  events : List (Evaluation.Event φ)
  result : Except (EvalError φ) α

namespace Evaluation

variable {α β : Type}

instance : Monad (Evaluation φ) where
  pure a := { events := [], result := .ok a }
  bind x f :=
    match x.result with
    | .error e => { events := x.events, result := .error e }
    | .ok a =>
      let second := f a
      { second with events := x.events ++ second.events }

def of (result : Except (EvalError φ) α) : Evaluation φ α := { events := [], result }

def note (event : Event φ) : Evaluation φ Unit := { events := [event], result := .ok () }

@[simp] theorem result_pure (a : α) : (pure a : Evaluation φ α).result = .ok a := rfl

@[simp] theorem result_of (r : Except (EvalError φ) α) : (of r).result = r := rfl

theorem result_bind (x : Evaluation φ α) (f : α → Evaluation φ β) :
    (x >>= f).result = x.result.bind fun a => (f a).result := by
  simp only [Bind.bind]
  cases x.result <;> rfl

end Evaluation

variable [Bodies φ]

mutual

def Expr.evaluate (s : Scope φ) : Expr → Evaluation φ (Value φ)
  | .number literal _ => pure (.number literal.value.toFloat)
  | .string text _ => pure (.string text)
  | .identifier name _ => .of (s.lookup name)
  | .application procedure arguments span => do
    match ← procedure.evaluate s with
    | .procedure primitive => do
      let values ← Expr.evaluateEach s arguments
      Evaluation.note (.applying primitive.name values.length span)
      .of (primitive.call values)
    | other => .of (.error (.notCallable other))

def Expr.evaluateEach (s : Scope φ) : List Expr → Evaluation φ (List (Value φ))
  | [] => pure []
  | e :: rest => do
    let value ← e.evaluate s
    let values ← Expr.evaluateEach s rest
    pure (value :: values)

end

structure Run (φ α : Type) where
  scope : Scope φ
  events : List (Evaluation.Event φ)
  result : Except (EvalError φ) α

def Language.load (l : Language φ) (s : Scope φ) : Run φ Unit where
  scope := s.bindAll l.bindings
  events := l.bindings.map fun binding => .bound binding.1 binding.2
  result := l.outcome

/-- Loads the language that a header names. A name that is not registered loads nothing. -/
def Header.load (h : Header) (r : Registry φ) (s : Scope φ) : Run φ Unit :=
  match r.find? h.name with
  | none => { scope := s, events := [.unknownLanguage h.name], result := .ok () }
  | some l =>
    let run := l.load s
    { run with events := .loading h.name :: run.events }

def Statement.evaluate (r : Registry φ) (s : Scope φ) : Statement → Run φ (Option (Value φ))
  | .header h =>
    let run := h.load r s
    { scope := run.scope, events := run.events, result := run.result.map fun _ => none }
  | .expression e =>
    let evaluation := e.evaluate s
    { scope := s, events := evaluation.events, result := evaluation.result.map some }

/-- Evaluates statements in order up to the first error; `last` is the value so far. -/
def Statement.evaluateEach (r : Registry φ) (s : Scope φ) (last : Option (Value φ)) :
    List Statement → Run φ (Option (Value φ))
  | [] => { scope := s, events := [.finished last], result := .ok last }
  | statement :: rest =>
    let first := statement.evaluate r s
    match first.result with
    | .error _ => first
    | .ok value =>
      let run := evaluateEach r first.scope value rest
      { run with events := first.events ++ run.events }

def Program.evaluate (p : Program) (r : Registry φ) (s : Scope φ) : Run φ (Option (Value φ)) :=
  Statement.evaluateEach r s none p.statements

end Hashlang
