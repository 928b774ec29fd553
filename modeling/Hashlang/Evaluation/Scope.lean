import Hashlang.Evaluation.Value

namespace Hashlang

/-- Names with their values, each name once, in the order in which they were first bound. -/
@[ext]
structure Table (φ : Type) where
  entries : List (String × Value φ) := []
  distinct : (entries.map Prod.fst).Nodup := by exact List.nodup_nil
deriving DecidableEq

variable {φ : Type}

namespace Table

def find? (t : Table φ) (name : String) : Option (Value φ) := t.entries.lookup name

def set (name : String) (value : Value φ) : List (String × Value φ) → List (String × Value φ)
  | [] => [(name, value)]
  | (other, old) :: rest =>
    if other = name then (other, value) :: rest else (other, old) :: set name value rest

theorem keys_set (name : String) (value : Value φ) (entries : List (String × Value φ)) :
    (set name value entries).map Prod.fst =
      if name ∈ entries.map Prod.fst then entries.map Prod.fst
      else entries.map Prod.fst ++ [name] := by
  induction entries with
  | nil => simp [set]
  | cons entry rest ih =>
    rw [set]
    split
    case isTrue here => simp [here]
    case isFalse elsewhere =>
      simp only [List.map_cons, ih, List.mem_cons, Ne.symm elsewhere, false_or]
      split <;> rfl

theorem distinct_set (name : String) (value : Value φ) {entries : List (String × Value φ)}
    (distinct : (entries.map Prod.fst).Nodup) : ((set name value entries).map Prod.fst).Nodup := by
  rw [keys_set]
  split
  case isTrue known => exact distinct
  case isFalse new =>
    refine List.nodup_append.mpr ⟨distinct, List.pairwise_singleton .., ?_⟩
    intro old among fresh added same
    rw [List.mem_singleton.mp added] at same
    exact new (same ▸ among)

def insert (t : Table φ) (name : String) (value : Value φ) : Table φ where
  entries := set name value t.entries
  distinct := distinct_set name value t.distinct

def names (t : Table φ) : List String :=
  (t.entries.map Prod.fst).mergeSort fun a b => !decide (b < a)

end Table

/-- A table and the tables that enclose it, nearest first. -/
structure Scope (φ : Type) where
  table : Table φ := {}
  enclosing : List (Table φ) := []
deriving DecidableEq

namespace Scope

def child (s : Scope φ) : Scope φ where
  enclosing := s.table :: s.enclosing

def parent? (s : Scope φ) : Option (Scope φ) :=
  match s.enclosing with
  | [] => none
  | table :: enclosing => some { table, enclosing }

def ancestor? (s : Scope φ) : Nat → Option (Scope φ)
  | 0 => some s
  | k + 1 => (s.ancestor? k).bind parent?

def depth (s : Scope φ) : Nat := s.enclosing.length

def tables (s : Scope φ) : List (Table φ) := s.table :: s.enclosing

def bind (s : Scope φ) (name : String) (value : Value φ) : Scope φ :=
  { s with table := s.table.insert name value }

def bindAll (s : Scope φ) (bindings : List (String × Value φ)) : Scope φ :=
  bindings.foldl (fun s binding => s.bind binding.1 binding.2) s

def findLocal? (s : Scope φ) (name : String) : Option (Value φ) := s.table.find? name

def find? (s : Scope φ) (name : String) : Option (Value φ) :=
  s.tables.findSome? fun table => table.find? name

def lookup (s : Scope φ) (name : String) : Except (EvalError φ) (Value φ) :=
  match s.find? name with
  | some value => .ok value
  | none => .error (.unbound name)

def names (s : Scope φ) : List String := s.table.names

end Scope

end Hashlang
