import Hashlang.Proofs.Evaluation.Programs
import Hashlang.Proofs.Host.Execution

namespace Hashlang

namespace Expr

variable {φ : Type}

def literal? : Expr → Option (Value φ)
  | number literal _ => some (.number literal.value.toFloat)
  | string text _ => some (.string text)
  | identifier .. | application .. => none

def head : Expr → Expr
  | application procedure _ _ => procedure.head
  | e => e

/-- Why an expression has no value where no name is bound. -/
inductive FailsAlone (e : Expr) : EvalError φ → Prop where
  | unbound {name : String} {place : Span} : e.head = identifier name place → FailsAlone e (.unbound name)
  | notCallable {value : Value φ} : e.head.literal? = some value → FailsAlone e (.notCallable value)

theorem head_of_literal {e : Expr} {value : Value φ} (literal : e.literal? = some value) : e.head = e := by
  cases e with
  | application => cases literal
  | _ => rfl

variable [Bodies φ]

theorem result_literal (s : Scope φ) {e : Expr} {value : Value φ} (literal : e.literal? = some value) :
    (e.evaluate s).result = .ok value := by
  cases e with
  | number =>
    cases literal
    exact result_number ..
  | string =>
    cases literal
    exact result_string ..
  | _ => cases literal

theorem apply_literal {e : Expr} {value : Value φ} (literal : e.literal? = some value)
    (arguments : Except (EvalError φ) (List (Value φ))) :
    value.apply arguments = .error (.notCallable value) := by
  cases e <;> cases literal <;> rfl

theorem exists_failure : ∀ {e : Expr}, (e.literal? : Option (Value φ)) = none →
    ∃ failure, e.FailsAlone failure ∧ (e.evaluate ({} : Scope φ)).result = .error failure
  | identifier name place, _ => ⟨.unbound name, .unbound rfl, result_identifier ..⟩
  | application procedure arguments place, _ => by
    rw [result_application]
    cases literal : (procedure.literal? : Option (Value φ)) with
    | some value =>
      have same : (application procedure arguments place).head = procedure := head_of_literal literal
      refine ⟨.notCallable value, .notCallable (by rw [same, literal]), ?_⟩
      rw [result_literal _ literal]
      exact apply_literal literal _
    | none =>
      obtain ⟨failure, fails, failed⟩ := exists_failure literal
      refine ⟨failure, ?_, by rw [failed]; rfl⟩
      cases fails with
      | unbound name => exact .unbound name
      | notCallable value => exact .notCallable value

theorem exists_values (s : Scope φ) {es : List Expr}
    (literals : ∀ e ∈ es, (e.literal? : Option (Value φ)).isSome) :
    ∃ values, (evaluateEach s es).result = .ok values ∧ es.map literal? = values.map some := by
  induction es with
  | nil => exact ⟨[], result_nil _, rfl⟩
  | cons e rest ih =>
    obtain ⟨first, others⟩ := List.forall_mem_cons.mp literals
    obtain ⟨value, literal⟩ := Option.isSome_iff_exists.mp first
    obtain ⟨values, evaluated, same⟩ := ih others
    refine ⟨value :: values, ?_, by rw [List.map_cons, literal, same, List.map_cons]⟩
    rw [result_cons, result_literal s literal, evaluated]
    rfl

theorem resultEach_failure {before after : List Expr} {e : Expr} {failure : EvalError φ} (s : Scope φ)
    (literals : ∀ e ∈ before, (e.literal? : Option (Value φ)).isSome)
    (failed : (e.evaluate s).result = .error failure) :
    (evaluateEach s (before ++ e :: after)).result = .error failure := by
  induction before with
  | nil =>
    rw [List.nil_append, result_cons, failed]
    rfl
  | cons first before ih =>
    obtain ⟨literal, others⟩ := List.forall_mem_cons.mp literals
    obtain ⟨value, literal⟩ := Option.isSome_iff_exists.mp literal
    rw [List.cons_append, result_cons, result_literal s literal, ih others]
    rfl

end Expr

namespace Program

variable {φ : Type} [Bodies φ] {p : Program}

theorem result_alone : (p.evaluate (φ := φ) {} {}).result =
    (Expr.evaluateEach {} p.expressions).result.map List.getLast? :=
  result_evaluate {} {} p

theorem result_literals (literals : ∀ e ∈ p.expressions, (e.literal? : Option (Value φ)).isSome) :
    (p.evaluate (φ := φ) {} {}).result = .ok (p.expressions.getLast?.bind Expr.literal?) := by
  obtain ⟨values, evaluated, same⟩ := Expr.exists_values {} literals
  have last : values.getLast? = p.expressions.getLast?.bind Expr.literal? := by
    calc values.getLast? = (values.map some).getLast?.join := by cases h : values.getLast? <;> simp [h]
      _ = (p.expressions.map Expr.literal?).getLast?.join := by rw [same]
      _ = _ := by cases h : p.expressions.getLast? <;> simp [h]
  rw [result_alone, evaluated, ← last]
  rfl

theorem exists_failure {e : Expr}
    (first : (p.expressions.find? fun e => (e.literal? : Option (Value φ)).isNone) = some e) :
    ∃ failure, e.FailsAlone failure ∧ (p.evaluate (φ := φ) {} {}).result = .error failure := by
  obtain ⟨noLiteral, before, after, whole, literals⟩ := List.find?_eq_some_iff_append.mp first
  obtain ⟨failure, fails, failed⟩ := Expr.exists_failure (Option.isNone_iff_eq_none.mp noLiteral)
  have evaluated : (Expr.evaluateEach {} (before ++ e :: after)).result = .error failure :=
    Expr.resultEach_failure {} (by simpa using literals) failed
  refine ⟨failure, fails, ?_⟩
  rw [result_alone, whole, evaluated]
  rfl

end Program

open Execution

variable {source : String} {colored : Bool}

theorem Failure.ofSyntaxError_inj {d e : SyntaxError}
    (same : ofSyntaxError source d = ofSyntaxError source e) : d = e :=
  (Failure.invalid.inj same).1

theorem execute_value_error_iff {e : SyntaxError} :
    (execute .value colored source).result = .error (.ofSyntaxError source e) ↔
      parseSource source = .error e := by
  constructor
  · intro failed
    cases parsed : parseSource source with
    | ok p =>
      obtain ⟨-, ended⟩ := execute_value colored parsed
      rw [failed] at ended
      cases outcome : (p.evaluate (φ := Empty) {} {}).result <;> rw [outcome] at ended <;> cases ended
    | error d =>
      obtain ⟨-, ended⟩ := execute_error colored (by decide : Emit.value ≠ .tokens) parsed
      rw [failed] at ended
      rw [Failure.ofSyntaxError_inj (Except.error.inj ended)]
  · intro failed
    exact (execute_error colored (by decide) failed).2

theorem written_of_failed {emit : Emit} {failure : Failure} (reads : emit ≠ .tokens)
    (failed : (execute emit colored source).result = .error failure) :
    (execute emit colored source).written = "" := by
  cases parsed : parseSource source with
  | error e => exact (execute_error colored reads parsed).1
  | ok p =>
    cases emit with
    | tokens => exact absurd rfl reads
    | tree =>
      rw [(execute_tree colored parsed).2] at failed
      cases failed
    | value =>
      obtain ⟨written, ended⟩ := execute_value colored parsed
      rw [ended] at failed
      cases outcome : (p.evaluate (φ := Empty) {} {}).result with
      | ok value =>
        rw [outcome] at failed
        cases failed
      | error e =>
        rw [written, outcome]
        rfl

/-- How an execution ends that shows the value of a program: it writes the last literal, or fails for the
first expression that is none. -/
def Program.EndsAlone (p : Program) (execution : Execution) : Prop :=
  match p.expressions.find? fun e => (e.literal? (φ := Empty)).isNone with
  | none =>
    execution.result = .ok () ∧
      execution.written =
        match p.expressions.getLast?.bind (Expr.literal? (φ := Empty)) with
        | none => ""
        | some value => value.render ++ "\n"
  | some e => ∃ failure, e.FailsAlone failure ∧ execution.result = .error (.evaluation failure)

theorem execute_value_ends {p : Program} (parsed : parseSource source = .ok p) :
    p.EndsAlone (execute .value colored source) := by
  obtain ⟨written, ended⟩ := execute_value colored parsed
  unfold Program.EndsAlone
  split
  case h_1 allLiteral =>
    have literals : ∀ e ∈ p.expressions, (e.literal? (φ := Empty)).isSome := by
      simpa [Option.isSome_iff_ne_none] using allLiteral
    rw [Program.result_literals literals] at written ended
    refine ⟨ended, written.trans ?_⟩
    cases p.expressions.getLast?.bind (Expr.literal? (φ := Empty)) <;> rfl
  case h_2 e first =>
    obtain ⟨failure, fails, failed⟩ := Program.exists_failure first
    rw [failed] at ended
    exact ⟨failure, fails, ended⟩

theorem evaluation_failure_cases {failure : EvalError Empty}
    (failed : (execute .value colored source).result = .error (.evaluation failure)) :
    (∃ name, failure = .unbound name) ∨ ∃ value, failure = .notCallable value := by
  cases parsed : parseSource source with
  | error e =>
    rw [(execute_error colored (by decide) parsed).2] at failed
    cases failed
  | ok p =>
    have ends : p.EndsAlone (execute .value colored source) := execute_value_ends parsed
    unfold Program.EndsAlone at ends
    split at ends
    · rw [ends.1] at failed
      cases failed
    · obtain ⟨failure', fails, failed'⟩ := ends
      rw [failed'] at failed
      cases failed
      cases fails with
      | @unbound name => exact .inl ⟨name, rfl⟩
      | @notCallable value => exact .inr ⟨value, rfl⟩

/-- A source whose value is asked for fails for its syntax, or ends as its program does on its own. Nothing
else can go wrong, and nothing is written by an execution that fails. -/
theorem execute_value_alone (colored : Bool) (source : String) :
    (∀ e, (execute .value colored source).result = .error (.ofSyntaxError source e) ↔
      parseSource source = .error e) ∧
    (∀ p, parseSource source = .ok p → p.EndsAlone (execute .value colored source)) ∧
    (∀ failure, (execute .value colored source).result = .error (.evaluation failure) →
      (∃ name, failure = .unbound name) ∨ ∃ value, failure = .notCallable value) ∧
    ∀ emit failure, emit ≠ .tokens → (execute emit colored source).result = .error failure →
      (execute emit colored source).written = "" :=
  ⟨fun _ => execute_value_error_iff, fun _ parsed => execute_value_ends parsed,
    fun _ failed => evaluation_failure_cases failed,
    fun _ _ reads failed => written_of_failed reads failed⟩

theorem execute_value_alone_literals :
    (execute .value false "#lang a \"1\" \"2\"").result = .ok () ∧
      (execute .value false "#lang a \"1\" \"2\"").written = "\"2\"\n" ∧
      (execute .value false "#lang a \"1\" 2.50").written = "2.5\n" ∧
      (execute .value false "#lang a \"1\" ((\"s\" x) y)").result =
        .error (.evaluation (.notCallable (.string "s"))) ∧
      (execute .value false "#lang a \"1\" ((\"s\" x) y)").written = "" := by
  have shown : scan "#lang a \"1\" \"2\"" = [⟨.directive, "#lang", ⟨0, 5⟩⟩,
      ⟨.identifier, "a", ⟨6, 1⟩⟩, ⟨.string, "1", ⟨8, 3⟩⟩, ⟨.string, "2", ⟨12, 3⟩⟩,
      .fixed .endOfFile ⟨15, 0⟩] := by decide +kernel
  have counted : scan "#lang a \"1\" 2.50" = [⟨.directive, "#lang", ⟨0, 5⟩⟩,
      ⟨.identifier, "a", ⟨6, 1⟩⟩, ⟨.string, "1", ⟨8, 3⟩⟩, ⟨.number, "2.50", ⟨12, 4⟩⟩,
      .fixed .endOfFile ⟨16, 0⟩] := by decide +kernel
  have called : scan "#lang a \"1\" ((\"s\" x) y)" = [⟨.directive, "#lang", ⟨0, 5⟩⟩,
      ⟨.identifier, "a", ⟨6, 1⟩⟩, ⟨.string, "1", ⟨8, 3⟩⟩, ⟨.openParen, "(", ⟨12, 1⟩⟩,
      ⟨.openParen, "(", ⟨13, 1⟩⟩, ⟨.string, "s", ⟨14, 3⟩⟩, ⟨.identifier, "x", ⟨18, 1⟩⟩,
      ⟨.closeParen, ")", ⟨19, 1⟩⟩, ⟨.identifier, "y", ⟨21, 1⟩⟩, ⟨.closeParen, ")", ⟨22, 1⟩⟩,
      .fixed .endOfFile ⟨23, 0⟩] := by decide +kernel
  have first : parseSource "#lang a \"1\" \"2\"" =
      .ok ⟨⟨"a", ⟨6, 1⟩⟩, [.string "1" ⟨8, 3⟩, .string "2" ⟨12, 3⟩]⟩ := by
    rw [parseSource, shown]
    rfl
  let amount : NumberText := ⟨"2.50", .decimal false 250 (-2), by decide +kernel⟩
  have second : parseSource "#lang a \"1\" 2.50" =
      .ok ⟨⟨"a", ⟨6, 1⟩⟩, [.string "1" ⟨8, 3⟩, .number amount ⟨12, 4⟩]⟩ := by
    rw [parseSource, counted]
    rfl
  have third : parseSource "#lang a \"1\" ((\"s\" x) y)" =
      .ok ⟨⟨"a", ⟨6, 1⟩⟩, [.string "1" ⟨8, 3⟩, .application (.application (.string "s" ⟨14, 3⟩)
        [.identifier "x" ⟨18, 1⟩] ⟨13, 7⟩) [.identifier "y" ⟨21, 1⟩] ⟨12, 11⟩]⟩ := by
    rw [parseSource, called]
    rfl
  obtain ⟨-, ends, -, -⟩ := execute_value_alone false "#lang a \"1\" \"2\""
  obtain ⟨result, written⟩ := ends _ first
  obtain ⟨-, ends, -, -⟩ := execute_value_alone false "#lang a \"1\" 2.50"
  obtain ⟨-, number⟩ := ends _ second
  obtain ⟨-, ends, -, silent⟩ := execute_value_alone false "#lang a \"1\" ((\"s\" x) y)"
  obtain ⟨failure, fails, failed⟩ := ends _ third
  have digits : (Value.number amount.value.toFloat : Value Empty).render ++ "\n" = "2.5\n" := by
    decide +kernel +zetaReduce
  have blamed : failure = .notCallable (.string "s") := by
    cases fails with
    | unbound other => cases other
    | notCallable literal =>
      cases literal
      rfl
  subst blamed
  exact ⟨result, written, number.trans digits, failed, silent .value _ (by decide) failed⟩

end Hashlang
