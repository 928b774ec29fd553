import Hashlang.Proofs.Evaluation.Effect
import Hashlang.Proofs.Evaluation.Identifiers

namespace Hashlang

variable {φ α β : Type}

/-- Every identifier that is reported as unbound satisfies `P`. -/
def Reports (P : String → Prop) (result : Except (EvalError φ) α) : Prop :=
  ∀ name, result = .error (.unbound name) → P name

namespace Reports

variable {P Q : String → Prop}

theorem ok (a : α) : Reports P (.ok a : Except (EvalError φ) α) := by
  rintro name ⟨⟩

theorem mono {result : Except (EvalError φ) α} (reports : Reports P result)
    (weaker : ∀ name, P name → Q name) : Reports Q result :=
  fun name failed => weaker name (reports name failed)

theorem of_ne {result : Except (EvalError φ) α} (never : ∀ name, result ≠ .error (.unbound name)) :
    Reports P result :=
  fun name failed => absurd failed (never name)

theorem bind {result : Except (EvalError φ) α} {f : α → Except (EvalError φ) β}
    (first : Reports P result) (later : ∀ a, Reports P (f a)) : Reports P (result.bind f) := by
  cases result with
  | ok a => exact later a
  | error e =>
    rintro name ⟨⟩
    exact first name rfl

theorem map {result : Except (EvalError φ) α} (reports : Reports P result) (f : α → β) :
    Reports P (result.map f) := by
  cases result with
  | ok a => exact ok (f a)
  | error e =>
    rintro name ⟨⟩
    exact reports name rfl

theorem foldlM {f : β → α → Except (EvalError φ) β} (each : ∀ b a, Reports P (f b a)) (b : β)
    (l : List α) : Reports P (l.foldlM f b) := by
  induction l generalizing b with
  | nil => exact ok b
  | cons a l ih =>
    rw [List.foldlM_cons]
    exact bind (each b a) ih

theorem mapM {f : α → Except (EvalError φ) β} (each : ∀ a, Reports P (f a)) (l : List α) :
    Reports P (l.mapM f) := by
  induction l with
  | nil => exact ok []
  | cons a l ih =>
    rw [List.mapM_cons]
    exact bind (each a) fun b => bind ih fun bs => ok (b :: bs)

end Reports

namespace Builtin

variable {P : String → Prop}

theorem reports_expectNumber (v : Value φ) : Reports P v.expectNumber := by
  cases v <;> rintro name ⟨⟩

theorem reports_orNothing (b : Builtin) (v : Option (Value φ)) : Reports P (b.orNothing v) := by
  cases v <;> rintro name ⟨⟩

theorem reports_foldNumbers (combine : Float → Float → Float) (start : Float) (values : List (Value φ)) :
    Reports P (foldNumbers combine start values) :=
  .bind (.foldlM (fun _ v => .bind (reports_expectNumber v) fun _ => .ok _) start values) fun _ => .ok _

theorem reports_join (values : List (Value φ)) : Reports P (join values) := by
  refine .bind (.mapM (fun v => ?_) values) fun _ => .ok _
  cases v <;> rintro name ⟨⟩

theorem reports_run (b : Builtin) (values : List (Value Builtin)) : Reports P (b.run values) := by
  cases b with
  | add => exact reports_foldNumbers _ _ values
  | multiply => exact reports_foldNumbers _ _ values
  | divide =>
    match values with
    | [x, y] =>
      exact .bind (reports_expectNumber x) fun _ => .bind (reports_expectNumber y) fun _ => .ok _
    | [] | [_] | _ :: _ :: _ :: _ => rintro name ⟨⟩
  | negate =>
    exact .bind (reports_orNothing _ _) fun v => .bind (reports_expectNumber v) fun _ => .ok _
  | stringAppend => exact reports_join values
  | first => exact reports_orNothing _ _
  | last => exact reports_orNothing _ _
  | count => exact .ok _
  | present => exact .ok _
  | typeOf => exact .bind (reports_orNothing _ _) fun _ => .ok _
  | fail => rintro name ⟨⟩

end Builtin

section

variable [Bodies φ] {P : String → Prop}

theorem Primitive.reports_call
    (bodies : ∀ (code : φ) values name, Bodies.run code values ≠ .error (.unbound name))
    (p : Primitive φ) (values : List (Value φ)) : Reports P (p.call values) := by
  unfold call
  split
  · exact .of_ne (bodies _ _)
  · split
    · exact .of_ne (bodies _ _)
    · rintro name ⟨⟩

theorem Value.reports_apply
    (bodies : ∀ (code : φ) values name, Bodies.run code values ≠ .error (.unbound name)) (v : Value φ)
    {arguments : Except (EvalError φ) (List (Value φ))} (reports : Reports P arguments) :
    Reports P (v.apply arguments) := by
  cases v with
  | procedure p => exact reports.bind (p.reports_call bodies)
  | number => rintro name ⟨⟩
  | string => rintro name ⟨⟩

namespace Expr

mutual

theorem reports_evaluate
    (bodies : ∀ (code : φ) values name, Bodies.run code values ≠ .error (.unbound name)) (s : Scope φ) :
    ∀ e : Expr, Reports (fun name => name ∈ e.identifiers ∧ s.find? name = none) (e.evaluate s).result
  | number .. => by
    rw [result_number]
    exact .ok _
  | string .. => by
    rw [result_string]
    exact .ok _
  | identifier name _ => by
    rw [result_identifier, Scope.lookup]
    split
    case h_1 => exact .ok _
    case h_2 missing =>
      rintro other ⟨⟩
      exact ⟨List.mem_singleton_self name, missing⟩
  | application procedure arguments _ => by
    have first := reports_evaluate bodies s procedure
    have others := reports_evaluateEach bodies s arguments
    rw [result_application]
    refine (first.mono fun name reported => ?_).bind fun v =>
      v.reports_apply bodies (others.mono fun name reported => ?_)
    · exact ⟨List.mem_append_left _ reported.1, reported.2⟩
    · exact ⟨List.mem_append_right _ reported.1, reported.2⟩

theorem reports_evaluateEach
    (bodies : ∀ (code : φ) values name, Bodies.run code values ≠ .error (.unbound name)) (s : Scope φ) :
    ∀ es : List Expr,
      Reports (fun name => name ∈ identifiersEach es ∧ s.find? name = none) (evaluateEach s es).result
  | [] => by
    rw [result_nil]
    exact .ok _
  | e :: rest => by
    have first := reports_evaluate bodies s e
    have others := reports_evaluateEach bodies s rest
    rw [result_cons]
    refine (first.mono fun name reported => ?_).bind fun v => .map (others.mono fun name reported => ?_) _
    · exact ⟨List.mem_append_left _ reported.1, reported.2⟩
    · exact ⟨List.mem_append_right _ reported.1, reported.2⟩

end

end Expr

end

theorem Scope.find?_bindAll (s : Scope φ) (bindings : History φ) (name : String) :
    (s.bindAll bindings).find? name = (bindings.last? name).or (s.find? name) := by
  unfold find? tables
  rw [table_bindAll, enclosing_bindAll, List.findSome?_cons, List.findSome?_cons, Table.find?_writeAll]
  cases bindings.last? name <;> rfl

theorem Scope.find?_eq_none_iff (s : Scope φ) (name : String) :
    s.find? name = none ↔ ¬∃ table ∈ s.tables, (table.find? name).isSome := by
  rw [find?, List.findSome?_eq_none_iff]
  simp [Option.isSome_iff_ne_none]

/-- A name is bound for a program by its language, by the scope, or by a table around the scope. -/
def Program.Binds (p : Program) (r : Registry φ) (s : Scope φ) (name : String) : Prop :=
  (∃ language value, r.find? p.header.name = some language ∧ (name, value) ∈ language.bindings) ∨
    ∃ table ∈ s.tables, (table.find? name).isSome

namespace Program

variable (p : Program) (r : Registry φ) (s : Scope φ)

theorem find?_eq_none_iff (name : String) :
    (s.bindAll (r.bindings p.header.name)).find? name = none ↔ ¬p.Binds r s name := by
  have language : (History.last? (r.bindings p.header.name) name).isSome ↔
      ∃ language value, r.find? p.header.name = some language ∧ (name, value) ∈ language.bindings := by
    rw [History.isSome_last?, Registry.bindings]
    cases r.find? p.header.name <;> simp
  rw [Scope.find?_bindAll, Option.or_eq_none_iff, Scope.find?_eq_none_iff, Binds, not_or, ← language,
    Option.not_isSome_iff_eq_none]

/-- Provided that no primitive and no language makes up a report of an unbound identifier: an identifier is
reported only if it stands in an expression of the program and is bound neither by its language nor by any
table; where all identifiers are bound, none is reported. -/
theorem unbound_sound [Bodies φ]
    (bodies : ∀ (code : φ) values name, Bodies.run code values ≠ .error (.unbound name))
    (loads : ∀ language ∈ r.languages, ∀ name, language.outcome ≠ .error (.unbound name)) :
    (∀ name, (p.evaluate r s).result = .error (.unbound name) →
      name ∈ Expr.identifiersEach p.expressions ∧ ¬p.Binds r s name) ∧
    ((∀ name ∈ Expr.identifiersEach p.expressions, p.Binds r s name) →
      ∀ name, (p.evaluate r s).result ≠ .error (.unbound name)) := by
  have reports : Reports (fun name => name ∈ Expr.identifiersEach p.expressions ∧ ¬p.Binds r s name)
      (p.evaluate r s).result := by
    rw [result_evaluate]
    refine .bind (.of_ne ?_) fun _ => .map ((Expr.reports_evaluateEach bodies _ _).mono ?_) _
    · intro name
      rw [Registry.outcome]
      cases found : r.find? p.header.name with
      | none => rintro ⟨⟩
      | some language => exact loads language (List.mem_of_find?_eq_some found) name
    · intro name reported
      exact ⟨reported.1, (p.find?_eq_none_iff r s name).mp reported.2⟩
  exact ⟨reports, fun bound name failed => (reports name failed).2 (bound name (reports name failed).1)⟩

theorem unbound_sound_inner :
    let names : Language Builtin := ⟨"names", [("f", .procedure ⟨"f", none, .last⟩)], none⟩
    let r : Registry Builtin := .ofList [names]
    let outer : Scope Builtin := .bind {} "x" (.string "outer")
    let chain : Scope Builtin := outer.child
    let f : Expr := .identifier "f" {}
    let x : Expr := .identifier "x" {}
    let p : Program := ⟨⟨"names", {}⟩, [.application f [x, .application (.identifier "g" {}) [] {}] {}]⟩
    let q : Program := ⟨⟨"names", {}⟩, [.application f [x] {}]⟩
    (p.evaluate r chain).result = .error (.unbound "g") ∧
      ("g" ∈ Expr.identifiersEach p.expressions ∧ ¬p.Binds r chain "g") ∧
      (∀ name ∈ Expr.identifiersEach q.expressions, q.Binds r chain name) ∧
      ∀ name, (q.evaluate r chain).result ≠ .error (.unbound name) := by
  intro names r outer chain f x p q
  have bodies (code : Builtin) (values : List (Value Builtin)) (name : String) :
      Bodies.run code values ≠ .error (.unbound name) :=
    Builtin.reports_run (P := fun _ => False) code values name
  have loads : ∀ language ∈ r.languages, ∀ name, language.outcome ≠ .error (.unbound name) := by
    have only : r.languages = [names] := rfl
    rw [only, List.forall_mem_singleton]
    exact fun name => nofun
  have failed : (p.evaluate r chain).result = .error (.unbound "g") := rfl
  have bound : ∀ name ∈ Expr.identifiersEach q.expressions, q.Binds r chain name := by
    have stand : Expr.identifiersEach q.expressions = ["f", "x"] := rfl
    rw [stand, List.forall_mem_cons, List.forall_mem_singleton]
    exact ⟨.inl ⟨names, _, rfl, List.mem_singleton_self _⟩,
      .inr ⟨outer.table, .tail _ (List.mem_singleton_self _), rfl⟩⟩
  obtain ⟨reported, -⟩ := p.unbound_sound r chain bodies loads
  obtain ⟨-, silent⟩ := q.unbound_sound r chain bodies loads
  exact ⟨failed, reported "g" failed, bound, silent bound⟩

end Program

end Hashlang
