import Mathlib.Data.Finmap
import Mathlib.Data.Finset.Sort
import Mathlib.Data.String.Basic
import Hashlang.Proofs.Evaluation.Stack

namespace Hashlang

abbrev Names (φ : Type) := Finmap fun _ : String => Value φ

/-- All bindings that were made in a scope, in order. -/
abbrev History (φ : Type) := List (String × Value φ)

variable {φ : Type}

theorem lookup_cons_eq_if (entry : String × Value φ) (rest : List (String × Value φ)) (name : String) :
    (entry :: rest).lookup name = if name = entry.1 then some entry.2 else rest.lookup name := by
  rw [List.lookup_cons]
  split
  case h_1 same => rw [if_pos (eq_of_beq same)]
  case h_2 different => rw [if_neg (beq_eq_false_iff_ne.mp different)]

def Names.frames : Frames φ (Names φ) where
  blank := ∅
  write names name value := names.insert name value

theorem Names.lookup_insert (names : Names φ) (name other : String) (value : Value φ) :
    (names.insert name value).lookup other = if other = name then some value else names.lookup other := by
  split
  case isTrue same => rw [same, Finmap.lookup_insert]
  case isFalse different => exact Finmap.lookup_insert_of_ne names different

namespace Table

def frames : Frames φ (Table φ) where
  blank := {}
  write := insert

def toNames (t : Table φ) : Names φ :=
  t.entries.foldr (fun entry names => names.insert entry.1 entry.2) ∅

theorem lookup_toNames (t : Table φ) (name : String) : t.toNames.lookup name = t.find? name := by
  unfold toNames find?
  induction t.entries with
  | nil => exact Finmap.lookup_empty name
  | cons entry rest ih => rw [List.foldr_cons, Names.lookup_insert, ih, lookup_cons_eq_if]

theorem find?_insert (t : Table φ) (name other : String) (value : Value φ) :
    (t.insert name value).find? other = if other = name then some value else t.find? other := by
  simp only [insert, find?]
  induction t.entries with
  | nil => exact lookup_cons_eq_if (name, value) [] other
  | cons entry rest ih =>
    rw [set]
    split
    case isTrue here =>
      subst here
      simp only [lookup_cons_eq_if]
      split <;> rfl
    case isFalse elsewhere =>
      simp only [lookup_cons_eq_if, ih]
      by_cases same : other = entry.1
      · simp only [same, if_true, elsewhere, if_false]
      · simp only [same, if_false]

theorem maps_toNames : Frames.Maps toNames (frames : Frames φ (Table φ)) Names.frames where
  blank := rfl
  write t name value := by
    refine Finmap.ext_lookup fun other => ?_
    exact (lookup_toNames ..).trans <| (find?_insert ..).trans <| by
      rw [← lookup_toNames]
      exact (Names.lookup_insert ..).symm

theorem isSome_find? (t : Table φ) (name : String) :
    (t.find? name).isSome ↔ name ∈ t.entries.map Prod.fst := by
  rw [find?, List.lookup_isSome_iff]
  simp

theorem mem_keys_toNames (t : Table φ) (name : String) :
    name ∈ t.toNames.keys ↔ name ∈ t.entries.map Prod.fst := by
  rw [Finmap.mem_keys, ← Finmap.lookup_isSome, lookup_toNames, isSome_find?]

theorem sorted_names (t : Table φ) : t.names.Pairwise (· ≤ ·) := by
  have le (a b : String) : (!decide (b < a)) = true ↔ a ≤ b := by
    rw [Bool.not_eq_true', decide_eq_false_iff_not, not_lt]
  refine (List.pairwise_mergeSort ?_ ?_ _).imp (le _ _).mp
  · intro a b c first second
    exact (le a c).mpr (((le a b).mp first).trans ((le b c).mp second))
  · intro a b
    rw [Bool.or_eq_true, le, le]
    exact le_total a b

theorem names_eq_sort (t : Table φ) : t.names = t.toNames.keys.sort := by
  have sorts : t.names.Perm (t.entries.map Prod.fst) := List.mergeSort_perm ..
  have keys : t.names.toFinset = t.toNames.keys := by
    ext name
    rw [List.mem_toFinset, sorts.mem_iff, mem_keys_toNames]
  rw [← keys]
  exact ((List.toFinset_sort (· ≤ ·) (sorts.nodup_iff.mpr t.distinct)).mpr t.sorted_names).symm

end Table

namespace History

def frames : Frames φ (History φ) where
  blank := []
  write history name value := history ++ [(name, value)]

def last? (h : History φ) (name : String) : Option (Value φ) := h.reverse.lookup name

def toNames (h : History φ) : Names φ := Names.frames.writeAll h ∅

theorem toNames_concat (h : History φ) (name : String) (value : Value φ) :
    toNames (h ++ [(name, value)]) = h.toNames.insert name value :=
  Names.frames.writeAll_concat h name value ∅

theorem maps_toNames : Frames.Maps toNames (frames : Frames φ (History φ)) Names.frames where
  blank := rfl
  write := toNames_concat

theorem lookup_toNames (h : History φ) (name : String) : h.toNames.lookup name = h.last? name := by
  induction h using List.reverseRecOn with
  | nil => exact Finmap.lookup_empty name
  | append_singleton h binding ih =>
    rw [toNames_concat h binding.1 binding.2, Names.lookup_insert, ih, last?, last?, List.reverse_concat,
      lookup_cons_eq_if]

theorem isSome_last? (h : History φ) (name : String) :
    (h.last? name).isSome ↔ ∃ value, (name, value) ∈ h := by
  rw [last?, List.lookup_isSome_iff]
  simp

theorem mem_keys_toNames (h : History φ) (name : String) :
    name ∈ h.toNames.keys ↔ ∃ value, (name, value) ∈ h := by
  rw [Finmap.mem_keys, ← Finmap.lookup_isSome, lookup_toNames, isSome_last?]

end History

end Hashlang
