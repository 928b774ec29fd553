import Hashlang.Proofs.Evaluation.Programs

namespace Hashlang

variable {φ : Type}

def resolve (names : String → Option (Value φ)) (name : String) : Except (EvalError φ) (Value φ) :=
  match names name with
  | some value => .ok value
  | none => .error (.unbound name)

theorem Scope.lookup_eq_resolve (s : Scope φ) (name : String) : s.lookup name = resolve s.find? name :=
  rfl

variable [Bodies φ]

mutual

/-- The value of an expression where names mean what `names` says. -/
def Expr.denote (names : String → Option (Value φ)) : Expr → Except (EvalError φ) (Value φ)
  | .number literal _ => .ok (.number literal.value.toFloat)
  | .string text _ => .ok (.string text)
  | .identifier name _ => resolve names name
  | .application procedure arguments _ =>
    (procedure.denote names).bind fun v => v.apply (denoteEach names arguments)

def Expr.denoteEach (names : String → Option (Value φ)) :
    List Expr → Except (EvalError φ) (List (Value φ))
  | [] => .ok []
  | e :: rest => (e.denote names).bind fun v => (denoteEach names rest).map (v :: ·)

end

def Program.denote (p : Program) (r : Registry φ) (names : String → Option (Value φ)) :
    Except (EvalError φ) (Option (Value φ)) :=
  (r.outcome p.header.name).bind fun _ => (Expr.denoteEach names p.expressions).map List.getLast?

namespace Expr

variable (s : Scope φ)

mutual

theorem result_eq_denote : ∀ e : Expr, (e.evaluate s).result = e.denote s.find?
  | number .. => by rw [result_number, denote]
  | string .. => by rw [result_string, denote]
  | identifier name _ => by rw [result_identifier, denote, Scope.lookup_eq_resolve]
  | application procedure arguments _ => by
    rw [result_application, denote, result_eq_denote procedure, result_eq_denoteEach arguments]

theorem result_eq_denoteEach : ∀ es : List Expr, (evaluateEach s es).result = denoteEach s.find? es
  | [] => by rw [result_nil, denoteEach]
  | e :: rest => by rw [result_cons, denoteEach, result_eq_denote e, result_eq_denoteEach rest]

end

end Expr

theorem Program.result_eq_denote (p : Program) (r : Registry φ) (s : Scope φ) :
    (p.evaluate r s).result = p.denote r (s.bindAll (r.bindings p.header.name)).find? := by
  rw [result_evaluate, Expr.result_eq_denoteEach]
  rfl

end Hashlang
