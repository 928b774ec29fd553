import Hashlang.Proofs.Evaluation.Results

namespace Hashlang

structure Run.Agrees {φ α : Type} (a b : Run φ α) : Prop where
  scope : a.scope = b.scope
  result : a.result = b.result

variable {φ : Type} [Bodies φ]

namespace Expr

variable (s : Scope φ)

mutual

theorem result_of_alike : ∀ {e f : Expr}, e.alike f = true → (e.evaluate s).result = (f.evaluate s).result
  | .number a _, f, same => by
    cases f <;> simp only [alike, Bool.false_eq_true] at same
    rename_i b _
    have text : a.text = b.text := by
      rw [NumberText.alike, Bool.and_eq_true] at same
      exact eq_of_beq same.1
    rw [result_number, result_number, NumberText.eq_of_text text]
  | .string a _, f, same => by
    cases f <;> simp only [alike, Bool.false_eq_true] at same
    rw [result_string, result_string, eq_of_beq same]
  | .identifier a _, f, same => by
    cases f <;> simp only [alike, Bool.false_eq_true] at same
    rw [result_identifier, result_identifier, eq_of_beq same]
  | .application procedure arguments _, f, same => by
    cases f <;> simp only [alike, Bool.false_eq_true, Bool.and_eq_true] at same
    rw [result_application, result_application, result_of_alike same.1, resultEach_of_alike same.2]

theorem resultEach_of_alike : ∀ {es fs : List Expr}, alikeEach es fs = true →
    (evaluateEach s es).result = (evaluateEach s fs).result
  | [], fs, same => by
    cases fs with
    | nil => rfl
    | cons f fs => cases same
  | e :: es, fs, same => by
    cases fs with
    | nil => cases same
    | cons f fs =>
      rw [alikeEach, Bool.and_eq_true] at same
      rw [result_cons, result_cons, result_of_alike same.1, resultEach_of_alike same.2]

end

end Expr

namespace Statement

variable {r : Registry φ} {s : Scope φ}

theorem agrees_of_alike {a b : Statement} (same : a.alike b = true) :
    (a.evaluate r s).Agrees (b.evaluate r s) := by
  cases a with
  | header h =>
    cases b with
    | expression => cases same
    | header g =>
      have name : h.name = g.name := eq_of_beq same
      simp only [evaluate, Header.load, name]
      exact ⟨rfl, rfl⟩
  | expression e =>
    cases b with
    | header => cases same
    | expression f =>
      refine ⟨rfl, ?_⟩
      simp only [evaluate, Expr.result_of_alike s same]

theorem agrees_cons {a b : Statement} {as bs : List Statement} (last : Option (Value φ))
    (first : (a.evaluate r s).Agrees (b.evaluate r s))
    (others : ∀ s last, (evaluateEach r s last as).Agrees (evaluateEach r s last bs)) :
    (evaluateEach r s last (a :: as)).Agrees (evaluateEach r s last (b :: bs)) := by
  simp only [evaluateEach, ← first.scope, ← first.result]
  cases failed : (a.evaluate r s).result with
  | error e => exact first
  | ok value =>
    have rest := others (a.evaluate r s).scope value
    exact ⟨rest.scope, rest.result⟩

theorem agrees_of_alikeEach {es fs : List Expr} (same : Expr.alikeEach es fs = true) (s : Scope φ)
    (last : Option (Value φ)) : (evaluateEach r s last (es.map expression)).Agrees
      (evaluateEach r s last (fs.map expression)) := by
  induction es generalizing fs s last with
  | nil =>
    cases fs with
    | nil => exact ⟨rfl, rfl⟩
    | cons f fs => cases same
  | cons e es ih =>
    cases fs with
    | nil => cases same
    | cons f fs =>
      rw [Expr.alikeEach, Bool.and_eq_true] at same
      have first : alike (expression e) (expression f) = true := same.1
      exact agrees_cons last (agrees_of_alike first) (ih same.2)

end Statement

theorem Program.agrees_of_alike {p q : Program} (same : p.alike q = true) (r : Registry φ) (s : Scope φ) :
    (p.evaluate r s).Agrees (q.evaluate r s) := by
  rw [alike, Bool.and_eq_true] at same
  have header : Statement.alike (.header p.header) (.header q.header) = true := same.1
  exact Statement.agrees_cons none (Statement.agrees_of_alike header)
    (Statement.agrees_of_alikeEach same.2)

end Hashlang
