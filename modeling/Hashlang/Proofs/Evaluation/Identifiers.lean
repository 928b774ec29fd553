import Hashlang.Evaluation.Builtin
import Hashlang.Proofs.Evaluation.Names
import Hashlang.Proofs.Evaluation.Results

namespace Hashlang

namespace Expr

mutual

def identifiers : Expr → List String
  | number .. | string .. => []
  | identifier name _ => [name]
  | application procedure arguments _ => procedure.identifiers ++ identifiersEach arguments

def identifiersEach : List Expr → List String
  | [] => []
  | e :: rest => e.identifiers ++ identifiersEach rest

end

end Expr

variable {φ : Type}

namespace Table

def onto (t below : Table φ) : Table φ :=
  t.entries.foldr (fun entry table => table.insert entry.1 entry.2) below

theorem find?_onto (t below : Table φ) (name : String) :
    (t.onto below).find? name = (t.find? name).or (below.find? name) := by
  have held : t.find? name = t.entries.lookup name := rfl
  unfold onto
  rw [held]
  induction t.entries with
  | nil => rfl
  | cons entry rest ih =>
    rw [List.foldr_cons, find?_insert, ih, lookup_cons_eq_if]
    split <;> rfl

end Table

namespace Scope

def flatten (s : Scope φ) : Scope φ where
  table := s.tables.foldr Table.onto {}

/-- Binds a name in the scope that is `outwards` scopes further out; if there is none, nothing is bound. -/
def bindIn (s : Scope φ) (outwards : Nat) (name : String) (value : Value φ) : Scope φ :=
  match outwards with
  | 0 => s.bind name value
  | outwards + 1 => { s with enclosing := s.enclosing.modify outwards (·.insert name value) }

theorem findLocal?_flatten (s : Scope φ) (name : String) : s.flatten.findLocal? name = s.find? name := by
  unfold find? findLocal? flatten
  induction s.tables with
  | nil => rfl
  | cons table outer ih =>
    rw [List.foldr_cons, Table.find?_onto, ih, List.findSome?_cons]
    cases table.find? name <;> rfl

theorem find?_root {s : Scope φ} (root : s.enclosing = []) (name : String) :
    s.find? name = s.findLocal? name := by
  rw [find?, tables, root, List.findSome?_cons, findLocal?]
  cases s.table.find? name <;> rfl

theorem tables_bindIn (s : Scope φ) (outwards : Nat) (name : String) (value : Value φ) :
    (s.bindIn outwards name value).tables = s.tables.modify outwards (·.insert name value) := by
  cases outwards <;> rfl

theorem find?_bindIn (s : Scope φ) (outwards : Nat) {name other : String} (different : other ≠ name)
    (value : Value φ) : (s.bindIn outwards name value).find? other = s.find? other := by
  unfold find?
  rw [tables_bindIn]
  induction s.tables generalizing outwards with
  | nil => cases outwards <;> rfl
  | cons table outer ih =>
    cases outwards with
    | zero =>
      have same : (table.insert name value).find? other = table.find? other := by
        rw [Table.find?_insert, if_neg different]
      rw [List.modify_zero_cons, List.findSome?_cons, List.findSome?_cons, same]
    | succ outwards => rw [List.modify_succ_cons, List.findSome?_cons, List.findSome?_cons, ih]

theorem lookup_congr {s t : Scope φ} {name : String} (same : s.find? name = t.find? name) :
    s.lookup name = t.lookup name := by
  rw [lookup, lookup, same]

end Scope

variable [Bodies φ]

namespace Expr

variable {s t : Scope φ}

mutual

theorem evaluate_congr : ∀ e : Expr, (∀ name ∈ e.identifiers, s.lookup name = t.lookup name) →
    e.evaluate s = e.evaluate t
  | number .., _ => by rw [evaluate, evaluate]
  | string .., _ => by rw [evaluate, evaluate]
  | identifier name _, same => by
    have found := same name (by simp [identifiers])
    rw [evaluate, evaluate, found]
  | application procedure arguments _, same => by
    rw [identifiers, List.forall_mem_append] at same
    have first := evaluate_congr procedure same.1
    have others := evaluateEach_congr arguments same.2
    rw [evaluate, evaluate, first, others]

theorem evaluateEach_congr : ∀ es : List Expr,
    (∀ name ∈ identifiersEach es, s.lookup name = t.lookup name) → evaluateEach s es = evaluateEach t es
  | [], _ => by rw [evaluateEach, evaluateEach]
  | e :: rest, same => by
    rw [identifiersEach, List.forall_mem_append] at same
    have first := evaluate_congr e same.1
    have others := evaluateEach_congr rest same.2
    rw [evaluateEach, evaluateEach, first, others]

end

/-- An expression is evaluated alike, step by step, where its identifiers mean the same. It makes no
difference whether what a chain of tables says stands in a single one, nor what is bound anywhere in the chain
to a name that is not in the expression. -/
theorem evaluate_of_lookups (e : Expr) (s : Scope φ) :
    (∀ t : Scope φ, (∀ name ∈ e.identifiers, s.lookup name = t.lookup name) →
      e.evaluate s = e.evaluate t) ∧
    (s.flatten.enclosing = [] ∧ (∀ name, s.flatten.findLocal? name = s.find? name) ∧
      e.evaluate s.flatten = e.evaluate s) ∧
    ∀ outwards name value, name ∉ e.identifiers →
      e.evaluate (s.bindIn outwards name value) = e.evaluate s := by
  refine ⟨fun t same => evaluate_congr e same, ⟨rfl, s.findLocal?_flatten, ?_⟩, ?_⟩
  · apply evaluate_congr e
    intro name _
    have found := (Scope.find?_root (Eq.refl s.flatten.enclosing) name).trans (s.findLocal?_flatten name)
    exact Scope.lookup_congr found
  · intro outwards name value absent
    apply evaluate_congr e
    intro other member
    have different : other ≠ name := ne_of_mem_of_not_mem member absent
    exact Scope.lookup_congr (s.find?_bindIn outwards different value)

theorem evaluate_of_lookups_inner :
    let f : Value Builtin := .procedure ⟨"f", none, .first⟩
    let e : Expr := .application (.identifier "f" {}) [.identifier "x" {}] {}
    let outer : Scope Builtin := .bindAll {} [("x", .string "outer"), ("f", f)]
    let chain : Scope Builtin := outer.child.bind "x" (.string "inner")
    let root : Scope Builtin := .bindAll {} [("y", .string "other"), ("f", f), ("x", .string "inner")]
    (∀ name ∈ e.identifiers, chain.lookup name = root.lookup name) ∧ e.evaluate chain = e.evaluate root ∧
      "y" ∉ e.identifiers ∧ e.evaluate (chain.bindIn 1 "y" (.string "new")) = e.evaluate chain ∧
      (e.evaluate chain).result = .ok (.string "inner") := by
  intro f e outer chain root
  have names : e.identifiers = ["f", "x"] := rfl
  have same : ∀ name ∈ e.identifiers, chain.lookup name = root.lookup name := by
    rw [names, List.forall_mem_cons, List.forall_mem_singleton]
    exact ⟨rfl, rfl⟩
  have absent : "y" ∉ e.identifiers := by simp [names]
  obtain ⟨agree, -, unseen⟩ := evaluate_of_lookups e chain
  exact ⟨same, agree root same, absent, unseen 1 "y" _ absent, rfl⟩

end Expr

end Hashlang
