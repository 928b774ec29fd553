import Hashlang.Proofs.Evaluation.Results

namespace Hashlang

namespace Machine

inductive Instruction (φ : Type) where
  | push (value : Value φ)
  | load (name : String)
  | check
  | call (count : Nat)

inductive Halt (φ : Type) where
  | failed (error : EvalError φ)
  | stuck

variable {φ : Type}

def mismatch? (p : Primitive φ) (count : Nat) : Option (EvalError φ) :=
  match p.arity with
  | none => none
  | some expected => if expected = count then none else some (.arity p.name expected count)

def deliver {α : Type} (place : α → List (Value φ)) (result : Except (EvalError φ) α) :
    Except (Halt φ) (List (Value φ)) :=
  match result with
  | .ok a => .ok (place a)
  | .error e => .error (.failed e)

mutual

def code : Expr → List (Instruction φ)
  | .number literal _ => [.push (.number literal.value.toFloat)]
  | .string text _ => [.push (.string text)]
  | .identifier name _ => [.load name]
  | .application procedure arguments _ =>
    code procedure ++ .check :: (codeEach arguments ++ [.call arguments.length])

def codeEach : List Expr → List (Instruction φ)
  | [] => []
  | e :: rest => code e ++ codeEach rest

end

/-- The value of the first entry for a name in all tables, from the nearest one outwards. -/
def search (s : Scope φ) (name : String) : Option (Value φ) :=
  ((s.tables.flatMap Table.entries).find? fun entry => entry.1 = name).map Prod.snd

theorem find?_entries (name : String) (entries : List (String × Value φ)) :
    (entries.find? fun entry => entry.1 = name).map Prod.snd = entries.lookup name := by
  induction entries with
  | nil => rfl
  | cons entry rest ih =>
    rw [List.find?_cons, List.lookup_cons, ← ih]
    by_cases here : entry.1 = name
    · simp [here]
    · simp [here, beq_eq_false_iff_ne.mpr (Ne.symm here)]

theorem search_eq_find? (s : Scope φ) (name : String) : search s name = s.find? name := by
  rw [search, List.find?_flatMap, List.map_findSome?, Scope.find?]
  congr 1
  exact funext fun table => find?_entries name table.entries

variable [Bodies φ]

def step (s : Scope φ) (stack : List (Value φ)) : Instruction φ → Except (Halt φ) (List (Value φ))
  | .push value => .ok (value :: stack)
  | .load name =>
    match search s name with
    | some value => .ok (value :: stack)
    | none => .error (.failed (.unbound name))
  | .check =>
    match stack with
    | .procedure _ :: _ => .ok stack
    | value :: _ => .error (.failed (.notCallable value))
    | [] => .error .stuck
  | .call count =>
    -- The arguments lie in reverse order on top of what is called.
    match stack.drop count with
    | .procedure p :: below =>
      match mismatch? p count with
      | some e => .error (.failed e)
      | none =>
        match Bodies.run p.body (stack.take count).reverse with
        | .ok value => .ok (value :: below)
        | .error e => .error (.failed e)
    | _ => .error .stuck

def run (s : Scope φ) (instructions : List (Instruction φ)) (stack : List (Value φ)) :
    Except (Halt φ) (List (Value φ)) :=
  instructions.foldlM (step s) stack

variable (s : Scope φ) (stack : List (Value φ))

theorem run_append (first second : List (Instruction φ)) :
    run s (first ++ second) stack = run s first stack >>= run s second :=
  List.foldlM_append

theorem run_single (i : Instruction φ) : run s [i] stack = step s stack i := by
  unfold run
  rw [List.foldlM_cons]
  cases step s stack i <;> rfl

theorem step_load (name : String) :
    step s stack (.load name) = deliver (· :: stack) (s.lookup name) := by
  simp only [step, search_eq_find?, Scope.lookup]
  cases s.find? name <;> rfl

theorem step_call (p : Primitive φ) (values : List (Value φ)) :
    step s (values.reverse ++ .procedure p :: stack) (.call values.length) =
      deliver (· :: stack) (p.call values) := by
  have under : (values.reverse ++ .procedure p :: stack).drop values.length = .procedure p :: stack := by
    rw [← List.length_reverse, List.drop_left]
  have above : ((values.reverse ++ .procedure p :: stack).take values.length).reverse = values := by
    rw [← List.length_reverse, List.take_left, List.reverse_reverse]
  simp only [step, under, above, mismatch?, Primitive.call]
  cases p.arity with
  | none => cases Bodies.run p.body values <;> rfl
  | some expected =>
    by_cases fits : expected = values.length
    · simp only [fits, if_true]
      cases Bodies.run p.body values <;> rfl
    · simp only [fits, if_false]
      rfl

mutual

theorem run_code_deliver : ∀ (e : Expr) (stack : List (Value φ)),
    run s (code e) stack = deliver (· :: stack) (e.evaluate s).result
  | .number literal _, stack => by
    rw [Expr.result_number]
    rfl
  | .string text _, stack => by
    rw [Expr.result_string]
    rfl
  | .identifier name _, stack => by
    rw [Expr.result_identifier, code, run_single, step_load]
  | .application procedure arguments _, stack => by
    rw [code, run_append, run_code_deliver procedure, Expr.result_application]
    cases (procedure.evaluate s).result with
    | error e => rfl
    | ok v =>
      cases v with
      | procedure p =>
        -- `check` leaves the procedure under the arguments.
        show run s (codeEach arguments ++ [.call arguments.length]) (.procedure p :: stack) = _
        rw [run_append, run_codeEach arguments]
        cases evaluated : (Expr.evaluateEach s arguments).result with
        | error e => rfl
        | ok values =>
          have length := Expr.length_of_evaluateEach evaluated
          show run s [.call arguments.length] (values.reverse ++ .procedure p :: stack) = _
          rw [run_single, ← length]
          exact step_call s stack p values
      | _ => rfl

theorem run_codeEach : ∀ (es : List Expr) (stack : List (Value φ)),
    run s (codeEach es) stack =
      deliver (fun values => values.reverse ++ stack) (Expr.evaluateEach s es).result
  | [], stack => by
    rw [Expr.result_nil]
    rfl
  | e :: rest, stack => by
    rw [codeEach, run_append, run_code_deliver e, Expr.result_cons]
    cases (e.evaluate s).result with
    | error failure => rfl
    | ok v =>
      show run s (codeEach rest) (v :: stack) = _
      rw [run_codeEach rest]
      cases (Expr.evaluateEach s rest).result with
      | error failure => rfl
      | ok values =>
        show Except.ok (values.reverse ++ v :: stack) = Except.ok ((v :: values).reverse ++ stack)
        rw [List.reverse_cons, List.append_assoc]
        rfl

end

end Machine

/-- The machine evaluates every expression in every scope, whatever lies on its stack. -/
theorem Machine.run_code {φ : Type} [Bodies φ] (s : Scope φ) (e : Expr) (stack : List (Value φ)) :
    Machine.run s (Machine.code e) stack =
      match (e.evaluate s).result with
      | .ok value => .ok (value :: stack)
      | .error failure => .error (.failed failure) := by
  rw [run_code_deliver]
  cases (e.evaluate s).result <;> rfl

end Hashlang
