import Hashlang.Host.Execution

namespace Hashlang

namespace Execution

variable {source : String} {p : Program} {e : SyntaxError}

theorem withProgram_ok (next : List Log.Entry → Program → Execution)
    (parsed : parseSource source = .ok p) : withProgram source next = next (readSource source).1 p := by
  have read : readSource source = ((readSource source).1, .ok p) := Prod.ext rfl parsed
  unfold withProgram
  rw [read]

theorem withProgram_error (next : List Log.Entry → Program → Execution)
    (failed : parseSource source = .error e) :
    withProgram source next = failing (readSource source).1 (.ofSyntaxError source e) := by
  have read : readSource source = ((readSource source).1, .error e) := Prod.ext rfl failed
  unfold withProgram
  rw [read]

def shown : Except (EvalError Empty) (Option (Value Empty)) → String
  | .ok (some value) => value.render ++ "\n"
  | _ => ""

def ending : Except (EvalError Empty) (Option (Value Empty)) → Except Failure Unit
  | .ok _ => .ok ()
  | .error e => .error (.evaluation e)

theorem valueOf_shown (log : List Log.Entry) (p : Program) :
    (valueOf log p).written = shown (p.evaluate {} {}).result ∧
      (valueOf log p).result = ending (p.evaluate {} {}).result := by
  cases outcome : (p.evaluate (φ := Empty) {} {}).result with
  | error e =>
    simp only [valueOf, outcome]
    exact ⟨rfl, rfl⟩
  | ok value =>
    cases value <;> simp only [valueOf, outcome] <;> exact ⟨rfl, rfl⟩

end Execution

open Execution

variable {source : String} {p : Program} {e : SyntaxError} (colored : Bool)

theorem execute_tree (parsed : parseSource source = .ok p) :
    (execute .tree colored source).written = p.render ∧ (execute .tree colored source).result = .ok () := by
  simp only [execute, upTo, withProgram_ok _ parsed]
  exact ⟨rfl, rfl⟩

theorem execute_value (parsed : parseSource source = .ok p) :
    (execute .value colored source).written = shown (p.evaluate {} {}).result ∧
      (execute .value colored source).result = ending (p.evaluate {} {}).result := by
  simp only [execute, upTo, withProgram_ok _ parsed]
  exact valueOf_shown _ p

theorem execute_error {emit : Emit} (reads : emit ≠ .tokens) (failed : parseSource source = .error e) :
    (execute emit colored source).written = "" ∧
      (execute emit colored source).result = .error (.ofSyntaxError source e) := by
  cases emit with
  | tokens => exact absurd rfl reads
  | _ =>
    simp only [execute, upTo, withProgram_error _ failed]
    exact ⟨rfl, rfl⟩

end Hashlang
