import Hashlang.Evaluation.Builtin
import Hashlang.Proofs.Evaluation.Programs

namespace Hashlang

open Session (Outcome evaluateAll)

variable {φ : Type}

namespace Session

/-- The first failure, or the last of the results where none of them is one. -/
def verdict (results : List (Outcome φ)) : Option (Outcome φ) :=
  (results.find? fun result => !result.isOk).or results.getLast?

theorem verdict_error (e : EvalError φ) (rest : List (Outcome φ)) :
    verdict (.error e :: rest) = some (.error e) := rfl

theorem verdict_ok (value : Option (Value φ)) (next : Outcome φ) (rest : List (Outcome φ)) :
    verdict (.ok value :: next :: rest) = verdict (next :: rest) := by
  unfold verdict
  rw [List.getLast?_cons_cons]
  rfl

theorem verdict_eq_ok_iff {results : List (Outcome φ)} {value : Option (Value φ)} :
    verdict results = some (.ok value) ↔
      (∀ result ∈ results, result.isOk) ∧ results.getLast? = some (.ok value) := by
  unfold verdict
  cases found : results.find? fun result => !result.isOk with
  | none =>
    have all : ∀ result ∈ results, result.isOk := by simpa using found
    rw [Option.none_or]
    exact ⟨fun last => ⟨all, last⟩, And.right⟩
  | some failure =>
    have failed : failure.isOk = false := by simpa using List.find?_some found
    have member : failure ∈ results := List.mem_of_find?_eq_some found
    constructor
    · intro same
      cases same
      cases failed
    · rintro ⟨all, -⟩
      rw [all failure member] at failed
      cases failed

end Session

open Session

variable [Bodies φ] (r : Registry φ) (s : Scope φ)

theorem Statement.verdict_evaluateAll (last : Option (Value φ)) (first : Statement)
    (rest : List Statement) :
    verdict (evaluateAll r s (first :: rest)).2.2 =
      some (evaluateEach r s last (first :: rest)).result := by
  -- Both go on in the same scope as long as nothing fails. What is met behind a failure is of no account,
  -- whatever scope it is evaluated in.
  induction rest generalizing s last first with
  | nil =>
    rw [result_evaluateEach, evaluateAll]
    cases (first.evaluate r s).result <;> rfl
  | cons second rest ih =>
    rw [result_evaluateEach, evaluateAll]
    cases (first.evaluate r s).result with
    | error e => exact verdict_error e _
    | ok value => exact (verdict_ok value _ _).trans (ih _ value second)

namespace Program

variable (p : Program)

def loaded : Scope φ := (Statement.evaluate r s (.header p.header)).scope

def outcomes : List (Outcome φ) := (evaluateAll r s p.statements).2.2

theorem outcomes_eq : p.outcomes r s = (Statement.evaluate r s (.header p.header)).result ::
    p.expressions.map fun e => (e.evaluate (p.loaded r s)).result.map some :=
  congrArg _ (results_expressions r _ p.expressions)

theorem verdict_outcomes : verdict (p.outcomes r s) = some (p.evaluate r s).result :=
  Statement.verdict_evaluateAll r s none _ _

end Program

/-- Other expressions in front of the last one: in another order, with one of them once more, or without
one that has a value. -/
inductive Rearranged (s : Scope φ) : List Expr → List Expr → Prop where
  | reorder {front other : List Expr} : front.Perm other → Rearranged s front other
  | duplicate {before behind : List Expr} {e : Expr} : e ∈ before ++ behind →
    Rearranged s (before ++ behind) (before ++ e :: behind)
  | delete {before behind : List Expr} {e : Expr} : (e.evaluate s).result.isOk →
    Rearranged s (before ++ e :: behind) (before ++ behind)
  | trans {front middle other : List Expr} : Rearranged s front middle → Rearranged s middle other →
    Rearranged s front other

variable {r s}

theorem Rearranged.forall_iff {front other : List Expr} (rearranged : Rearranged s front other) :
    (∀ e ∈ front, (e.evaluate s).result.isOk) ↔ ∀ e ∈ other, (e.evaluate s).result.isOk := by
  induction rearranged with
  | reorder perm => simp only [perm.mem_iff]
  | duplicate member =>
    simp only [List.perm_middle.mem_iff, List.mem_cons, forall_eq_or_imp]
    exact ⟨fun all => ⟨all _ member, all⟩, And.right⟩
  | delete succeeds =>
    simp only [List.perm_middle.mem_iff, List.mem_cons, forall_eq_or_imp]
    exact ⟨And.right, fun all => ⟨succeeds, all⟩⟩
  | trans _ _ first second => exact first.trans second

theorem isOk_map {ε α β : Type} (f : α → β) (result : Except ε α) : (result.map f).isOk = result.isOk := by
  cases result <;> rfl

theorem Program.result_eq_ok_iff {p : Program} {front : List Expr} {last : Expr}
    {value : Option (Value φ)} (split : p.expressions = front ++ [last]) :
    (p.evaluate r s).result = .ok value ↔
      (Statement.evaluate r s (.header p.header)).result.isOk ∧
        (∀ e ∈ front, (e.evaluate (p.loaded r s)).result.isOk) ∧
          (last.evaluate (p.loaded r s)).result.map some = .ok value := by
  let outcome (e : Expr) : Outcome φ := (e.evaluate (p.loaded r s)).result.map some
  have outcomes : p.outcomes r s =
      ((Statement.evaluate r s (.header p.header)).result :: front.map outcome) ++ [outcome last] := by
    rw [outcomes_eq, split, List.map_append]
    rfl
  have ended : verdict (p.outcomes r s) = some (.ok value) ↔ (p.evaluate r s).result = .ok value := by
    rw [verdict_outcomes, Option.some_inj]
  rw [← ended, verdict_eq_ok_iff, outcomes, List.getLast?_concat, Option.some_inj,
    List.forall_mem_append, List.forall_mem_singleton, List.forall_mem_cons, List.forall_mem_map]
  simp only [outcome, isOk_map]
  constructor
  · rintro ⟨⟨⟨header, others⟩, -⟩, value⟩
    exact ⟨header, others, value⟩
  · rintro ⟨header, others, value⟩
    have final : (last.evaluate (p.loaded r s)).result.isOk := by
      rw [← isOk_map some, value]
      rfl
    exact ⟨⟨⟨header, others⟩, final⟩, value⟩

/-- A program ends with the first failure of its statements one by one, or with what the last of them gives,
and its expressions give what they give on their own in the scope right behind the header. So the
expressions in front of the last one can be rearranged: this changes neither whether the program has a value
nor the value. -/
theorem Program.result_statementwise (p : Program) (r : Registry φ) (s : Scope φ) :
    verdict (p.outcomes r s) = some (p.evaluate r s).result ∧
    p.outcomes r s = (Statement.evaluate r s (.header p.header)).result ::
      p.expressions.map (fun e => (e.evaluate (p.loaded r s)).result.map some) ∧
    ∀ front other last, p.expressions = front ++ [last] → Rearranged (p.loaded r s) front other →
      ∀ value, (evaluate { p with expressions := other ++ [last] } r s).result = .ok value ↔
        (p.evaluate r s).result = .ok value := by
  refine ⟨p.verdict_outcomes r s, p.outcomes_eq r s, ?_⟩
  intro front other last split rearranged value
  have same := rearranged.forall_iff
  rw [result_eq_ok_iff split, result_eq_ok_iff (Eq.refl (other ++ [last]))]
  exact and_congr_right fun _ => and_congr_left fun _ => same.symm

theorem Program.result_statementwise_twice :
    let names : Language Builtin :=
      ⟨"names", [("x", .string "old"), ("f", .procedure ⟨"f", none, .last⟩), ("x", .string "new")], none⟩
    let x : Expr := .identifier "x" {}
    let call : Expr := .application (.identifier "f" {}) [.string "a" {}, x] {}
    let p : Program := ⟨⟨"names", {}⟩, [.string "b" {}, x, call]⟩
    Rearranged (p.loaded (.ofList [names]) {}) [.string "b" {}, x] [x, x] ∧
      (Program.evaluate ⟨⟨"names", {}⟩, [x, x, call]⟩ (.ofList [names]) {}).result =
        .ok (some (.string "new")) := by
  intro names x call p
  let scope := p.loaded (.ofList [names]) {}
  have shorter : Rearranged scope ([] ++ .string "b" {} :: [x]) ([] ++ [x]) := .delete rfl
  have longer : Rearranged scope ([] ++ [x]) ([] ++ x :: [x]) := .duplicate List.mem_cons_self
  have rearranged := shorter.trans longer
  obtain ⟨-, -, rearrange⟩ := p.result_statementwise (.ofList [names]) {}
  exact ⟨rearranged, (rearrange _ _ call rfl rearranged _).mpr rfl⟩

end Hashlang
