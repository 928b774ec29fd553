import Hashlang.Evaluation.Evaluate

namespace Hashlang

variable {φ : Type} [Bodies φ]

def Value.apply (v : Value φ) (arguments : Except (EvalError φ) (List (Value φ))) :
    Except (EvalError φ) (Value φ) :=
  match v with
  | .procedure primitive => arguments.bind primitive.call
  | other => .error (.notCallable other)

namespace Expr

variable (s : Scope φ)

@[simp] theorem result_number (literal : NumberText) (place : Span) :
    ((number literal place).evaluate s).result = .ok (.number literal.value.toFloat) := by
  rw [evaluate, Evaluation.result_pure]

@[simp] theorem result_string (text : String) (place : Span) :
    ((string text place).evaluate s).result = .ok (.string text) := by
  rw [evaluate, Evaluation.result_pure]

@[simp] theorem result_identifier (name : String) (place : Span) :
    ((identifier name place).evaluate s).result = s.lookup name := by
  rw [evaluate, Evaluation.result_of]

theorem result_application (procedure : Expr) (arguments : List Expr) (place : Span) :
    ((application procedure arguments place).evaluate s).result =
      (procedure.evaluate s).result.bind fun v => v.apply (evaluateEach s arguments).result := by
  rw [evaluate, Evaluation.result_bind]
  congr 1
  funext v
  cases v with
  | procedure primitive =>
    rw [Evaluation.result_bind, Value.apply]
    rfl
  | _ => rfl

@[simp] theorem result_nil : (evaluateEach s []).result = .ok [] := by
  rw [evaluateEach, Evaluation.result_pure]

theorem result_cons (e : Expr) (rest : List Expr) :
    (evaluateEach s (e :: rest)).result =
      (e.evaluate s).result.bind fun v => (evaluateEach s rest).result.map (v :: ·) := by
  rw [evaluateEach, Evaluation.result_bind]
  congr 1
  funext v
  rw [Evaluation.result_bind]
  cases (evaluateEach s rest).result <;> rfl

theorem length_of_evaluateEach {s : Scope φ} {es : List Expr} {values : List (Value φ)}
    (evaluated : (evaluateEach s es).result = .ok values) : values.length = es.length := by
  induction es generalizing values with
  | nil =>
    rw [result_nil] at evaluated
    cases evaluated
    rfl
  | cons e rest ih =>
    rw [result_cons] at evaluated
    cases first : (e.evaluate s).result with
    | error failure =>
      rw [first] at evaluated
      cases evaluated
    | ok v =>
      cases others : (evaluateEach s rest).result with
      | error failure =>
        rw [first, others] at evaluated
        cases evaluated
      | ok vs =>
        rw [first, others] at evaluated
        cases evaluated
        rw [List.length_cons, List.length_cons, ih others]

end Expr

end Hashlang
