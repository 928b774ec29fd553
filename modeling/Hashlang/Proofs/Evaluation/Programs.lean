import Hashlang.Evaluation.Session
import Hashlang.Proofs.Evaluation.Results

namespace Hashlang

variable {φ : Type}

namespace Registry

def bindings (r : Registry φ) (name : String) : List (String × Value φ) :=
  ((r.find? name).map Language.bindings).getD []

def outcome (r : Registry φ) (name : String) : Except (EvalError φ) Unit :=
  ((r.find? name).map Language.outcome).getD (.ok ())

end Registry

section

variable (r : Registry φ) (s : Scope φ) (h : Header)

theorem Header.scope_load : (h.load r s).scope = s.bindAll (r.bindings h.name) := by
  unfold load Registry.bindings
  cases r.find? h.name <;> rfl

theorem Header.result_load : (h.load r s).result = r.outcome h.name := by
  unfold load Registry.outcome
  cases r.find? h.name <;> rfl

end

variable [Bodies φ] (r : Registry φ) (s : Scope φ)

namespace Statement

theorem result_evaluateEach (last : Option (Value φ)) (first : Statement) (rest : List Statement) :
    (evaluateEach r s last (first :: rest)).result = (first.evaluate r s).result.bind fun value =>
      (evaluateEach r (first.evaluate r s).scope value rest).result := by
  rw [evaluateEach]
  cases outcome : (first.evaluate r s).result with
  | error failure => exact outcome
  | ok value => rfl

theorem scope_expressions (es : List Expr) (last : Option (Value φ)) :
    (evaluateEach r s last (es.map expression)).scope = s := by
  induction es generalizing last with
  | nil => rfl
  | cons e rest ih =>
    rw [List.map_cons, evaluateEach]
    cases (evaluate r s (expression e)).result with
    | error failure => rfl
    | ok value => exact ih value

theorem result_expressions (es : List Expr) (last : Option (Value φ)) :
    (evaluateEach r s last (es.map expression)).result =
      (Expr.evaluateEach s es).result.map fun values => values.getLast?.or last := by
  induction es generalizing last with
  | nil => rfl
  | cons e rest ih =>
    have first : (evaluate r s (expression e)).result = (e.evaluate s).result.map some := rfl
    rw [List.map_cons, result_evaluateEach, first, Expr.result_cons]
    cases (e.evaluate s).result with
    | error failure => rfl
    | ok value =>
      show (evaluateEach r s (some value) (rest.map expression)).result = _
      rw [ih]
      cases (Expr.evaluateEach s rest).result with
      | error failure => rfl
      | ok values =>
        have same : (value :: values).getLast?.or last = values.getLast?.or (some value) := by
          cases values <;> simp [List.getLast?_cons]
        exact congrArg Except.ok same.symm

end Statement

namespace Program

variable (p : Program)

theorem scope_evaluate : (p.evaluate r s).scope = s.bindAll (r.bindings p.header.name) := by
  have loaded : (Statement.evaluate r s (.header p.header)).scope = s.bindAll _ :=
    Header.scope_load r s p.header
  rw [evaluate, statements, Statement.evaluateEach]
  cases (Statement.evaluate r s (.header p.header)).result with
  | error failure => exact loaded
  | ok value =>
    show (Statement.evaluateEach r _ value _).scope = _
    rw [Statement.scope_expressions, loaded]

theorem result_evaluate : (p.evaluate r s).result = (r.outcome p.header.name).bind fun _ =>
    (Expr.evaluateEach (s.bindAll (r.bindings p.header.name)) p.expressions).result.map List.getLast? := by
  have loaded : (Statement.evaluate r s (.header p.header)).scope = s.bindAll _ :=
    Header.scope_load r s p.header
  have ended : (Statement.evaluate r s (.header p.header)).result =
      (r.outcome p.header.name).map fun _ => none := by
    rw [← Header.result_load r s]
    rfl
  rw [evaluate, statements, Statement.result_evaluateEach, ended, loaded]
  cases r.outcome p.header.name with
  | error failure => rfl
  | ok =>
    show (Statement.evaluateEach r _ none _).result = _
    rw [Statement.result_expressions]
    simp only [Option.or_none]
    rfl

end Program

namespace Session

theorem scope_expressions (es : List Expr) : (evaluateAll r s (es.map Statement.expression)).1 = s := by
  induction es with
  | nil => rfl
  | cons e rest ih => exact ih

theorem results_expressions (es : List Expr) : (evaluateAll r s (es.map Statement.expression)).2.2 =
    es.map fun e => (e.evaluate s).result.map some := by
  induction es with
  | nil => rfl
  | cons e rest ih => exact congrArg _ ih

variable (p : Program)

theorem scope_evaluateAll : (evaluateAll r s p.statements).1 = s.bindAll (r.bindings p.header.name) := by
  rw [← Header.scope_load r s p.header]
  exact scope_expressions r _ p.expressions

theorem results_evaluateAll : (evaluateAll r s p.statements).2.2 =
    ((r.outcome p.header.name).map fun _ => none) :: p.expressions.map fun e =>
      (e.evaluate (s.bindAll (r.bindings p.header.name))).result.map some := by
  rw [← Header.scope_load r s p.header, ← Header.result_load r s p.header]
  exact congrArg _ (results_expressions r _ p.expressions)

end Session

end Hashlang
