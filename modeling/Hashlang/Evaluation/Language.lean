import Hashlang.Evaluation.Scope

namespace Hashlang

/-- The names that a language binds, in order, and how its loading fails afterwards, if it does. -/
structure Language (φ : Type) where
  name : String
  bindings : List (String × Value φ)
  failure : Option (EvalError φ) := none
deriving DecidableEq

variable {φ : Type}

def Language.ofPrimitives (name : String) (primitives : List (Primitive φ)) : Language φ where
  name := name
  bindings := primitives.map fun p => (p.name, .procedure p)

def Language.outcome (l : Language φ) : Except (EvalError φ) Unit :=
  match l.failure with
  | none => .ok ()
  | some e => .error e

/-- Languages by name, in increasing order of the characters of the names. -/
@[ext]
structure Registry (φ : Type) where
  languages : List (Language φ) := []
  increasing : languages.Pairwise fun l m => l.name < m.name := by exact .nil
deriving DecidableEq

namespace Registry

def insert (l : Language φ) : List (Language φ) → List (Language φ)
  | [] => [l]
  | other :: rest =>
    if l.name = other.name then l :: rest
    else if l.name < other.name then l :: other :: rest
    else other :: insert l rest

theorem mem_insert {l m : Language φ} {languages : List (Language φ)} (member : m ∈ insert l languages) :
    m = l ∨ m ∈ languages := by
  induction languages with
  | nil => exact .inl (List.mem_singleton.mp member)
  | cons other rest ih =>
    rw [insert] at member
    split at member
    · rcases List.mem_cons.mp member with same | later
      · exact .inl same
      · exact .inr (List.mem_cons_of_mem _ later)
    · split at member
      · exact List.mem_cons.mp member
      · rcases List.mem_cons.mp member with rfl | later
        · exact .inr List.mem_cons_self
        · exact (ih later).imp_right (List.mem_cons_of_mem _)

theorem increasing_insert (l : Language φ) {languages : List (Language φ)}
    (increasing : languages.Pairwise fun l m => l.name < m.name) :
    (insert l languages).Pairwise fun l m => l.name < m.name := by
  induction languages with
  | nil => exact List.pairwise_singleton ..
  | cons other rest ih =>
    obtain ⟨first, later⟩ := List.pairwise_cons.mp increasing
    rw [insert]
    split
    case isTrue here =>
      refine List.pairwise_cons.mpr ⟨fun m member => ?_, later⟩
      rw [here]
      exact first m member
    case isFalse elsewhere =>
      split
      case isTrue before =>
        refine List.pairwise_cons.mpr ⟨fun m member => ?_, increasing⟩
        rcases List.mem_cons.mp member with rfl | member
        · exact before
        · exact String.lt_trans before (first m member)
      case isFalse behind =>
        refine List.pairwise_cons.mpr ⟨fun m member => ?_, ih later⟩
        rcases mem_insert member with rfl | member
        · exact Std.lt_of_le_of_ne (String.not_lt.mp behind) (Ne.symm elsewhere)
        · exact first m member

def find? (r : Registry φ) (name : String) : Option (Language φ) :=
  r.languages.find? fun l => l.name = name

def register (r : Registry φ) (l : Language φ) : Option (Language φ) × Registry φ :=
  (r.find? l.name, { languages := insert l r.languages, increasing := increasing_insert l r.increasing })

def ofList (languages : List (Language φ)) : Registry φ :=
  languages.foldl (fun r l => (r.register l).2) {}

def contains (r : Registry φ) (name : String) : Bool := (r.find? name).isSome

def names (r : Registry φ) : List String := r.languages.map Language.name

def isEmpty (r : Registry φ) : Bool := r.languages.isEmpty

def describe (r : Registry φ) : String :=
  "\x7b" ++ ", ".intercalate (r.names.map quoted) ++ "\x7d"

end Registry

end Hashlang
