import Hashlang.Reading.Cursor

namespace Hashlang

theorem add_length_cons {α : Type} (n : Nat) (a : α) (l : List α) :
    n + (a :: l).length = n + 1 + l.length := by
  rw [List.length_cons, Nat.add_comm l.length, Nat.add_assoc]

namespace Tape

/-- `Shows k n l` says that the tape `k` stands at index `n` with the elements `l` ahead. Directly
after an element was read, stepping back over it is safe. -/
class Faithful (κ : Type) {α : outParam Type} [Tape κ α] where
  Shows : κ → Nat → List α → Prop
  peek_eq {k : κ} {n : Nat} {l : List α} : Shows k n l → peek k = l.head?
  position_eq {k : κ} {n : Nat} {l : List α} : Shows k n l → position k = n
  remaining_eq {k : κ} {n : Nat} {l : List α} : Shows k n l → remaining k = l.length
  read_nil {k : κ} {n : Nat} : Shows k n [] → ∃ k', read k = (none, k') ∧ Shows k' n []
  read_cons {k : κ} {n : Nat} {a : α} {l : List α} : Shows k n (a :: l) →
    ∃ k', read k = (some a, k') ∧ Shows k' (n + 1) l ∧ Shows (rollback k') n (a :: l)

instance (α : Type) : Faithful (Cursor α) where
  Shows c n l := c.position = n ∧ c.ahead = l
  peek_eq shown := by rw [← shown.2]; rfl
  position_eq shown := shown.1
  remaining_eq shown := by rw [← shown.2]; rfl
  read_nil {c _} shown := ⟨c, Cursor.read_nil shown.2, shown⟩
  read_cons {c n a l} shown := by
    obtain ⟨c', taken, position, ahead⟩ :
        ∃ c', c.read = (some a, c') ∧ c'.position = c.position + 1 ∧ c'.ahead = l := by
      simp only [Cursor.read, shown.2]
      exact ⟨_, rfl, rfl, rfl⟩
    have undone : rollback c' = c := Cursor.rollback_read taken
    exact ⟨c', taken, ⟨by rw [position, shown.1], ahead⟩, by rw [undone]; exact shown⟩

variable {κ α σ : Type} [Tape κ α] [Faithful κ] {k : κ} {n fuel : Nat} {used rest : List α}

open Faithful

theorem readWhile_accepted {step : σ → α → Option σ} {s last : σ}
    (shown : Shows k n (used ++ rest)) (accepted : used.foldlM step s = some last)
    (refused : ∀ a ∈ rest.head?, step last a = none) (enough : used.length ≤ fuel) :
    ∃ k', readWhile step (fuel + 1) s k = (used, k') ∧ Shows k' (n + used.length) rest := by
  induction used generalizing k n fuel s with
  | nil =>
    cases Option.some.inj accepted
    cases rest with
    | nil =>
      obtain ⟨k', taken, shown⟩ := read_nil shown
      exact ⟨k', by simp only [readWhile, taken], shown⟩
    | cons a rest =>
      obtain ⟨k', taken, -, undone⟩ := read_cons shown
      have stop := refused a rfl
      exact ⟨rollback k', by simp only [readWhile, taken, stop], undone⟩
  | cons a used ih =>
    obtain ⟨fuel, rfl⟩ := Nat.exists_eq_add_one_of_ne_zero (Nat.ne_zero_of_lt enough)
    obtain ⟨next, first, later⟩ := Option.bind_eq_some_iff.mp accepted
    obtain ⟨k', taken, shown, -⟩ := read_cons shown
    obtain ⟨k'', more, shown⟩ := ih shown later (Nat.le_of_succ_le_succ enough)
    refine ⟨k'', by rw [readWhile, taken]; simp only [first, more], ?_⟩
    rwa [add_length_cons]

theorem readUntil_free {p : α → Bool} (shown : Shows k n (used ++ rest))
    (free : ∀ a ∈ used, p a = false) (stop : ∀ a ∈ rest.head?, p a = true)
    (enough : used.length ≤ fuel) :
    ∃ k', readUntil p (fuel + 1) k = (used, k') ∧ Shows k' (n + used.length) rest := by
  induction used generalizing k n fuel with
  | nil =>
    refine ⟨k, ?_, shown⟩
    cases rest with
    | nil => simp only [readUntil, peek_eq shown, List.nil_append, List.head?_nil]
    | cons a rest =>
      simp only [readUntil, peek_eq shown, List.nil_append, List.head?_cons, stop a rfl, if_true]
  | cons a used ih =>
    obtain ⟨fuel, rfl⟩ := Nat.exists_eq_add_one_of_ne_zero (Nat.ne_zero_of_lt enough)
    have here : peek k = some a := peek_eq shown
    have passed := free a List.mem_cons_self
    obtain ⟨k', taken, shown, -⟩ := read_cons shown
    obtain ⟨k'', more, shown⟩ :=
      ih shown (fun b member => free b (List.mem_cons_of_mem _ member)) (Nat.le_of_succ_le_succ enough)
    refine ⟨k'', by rw [readUntil, here, taken]; simp [passed, more], ?_⟩
    rwa [add_length_cons]

theorem readThrough?_found {p : α → Bool} {last : α} (shown : Shows k n (used ++ last :: rest))
    (free : ∀ a ∈ used, p a = false) (found : p last = true) (enough : used.length ≤ fuel) :
    ∃ k', readThrough? p (fuel + 1) k = (some used, k') ∧ Shows k' (n + used.length + 1) rest := by
  induction used generalizing k n fuel with
  | nil =>
    obtain ⟨k', taken, shown, -⟩ := read_cons shown
    exact ⟨k', by simp only [readThrough?, taken, found, if_true], shown⟩
  | cons a used ih =>
    obtain ⟨fuel, rfl⟩ := Nat.exists_eq_add_one_of_ne_zero (Nat.ne_zero_of_lt enough)
    have passed := free a List.mem_cons_self
    obtain ⟨k', taken, shown, -⟩ := read_cons shown
    obtain ⟨k'', more, shown⟩ :=
      ih shown (fun b member => free b (List.mem_cons_of_mem _ member)) (Nat.le_of_succ_le_succ enough)
    refine ⟨k'', by rw [readThrough?, taken]; simp [passed, more], ?_⟩
    rwa [add_length_cons]

theorem readThrough?_missing {p : α → Bool} (shown : Shows k n used)
    (free : ∀ a ∈ used, p a = false) (enough : used.length ≤ fuel) :
    ∃ k', readThrough? p (fuel + 1) k = (none, k') ∧ Shows k' (n + used.length) [] := by
  induction used generalizing k n fuel with
  | nil =>
    obtain ⟨k', taken, shown⟩ := read_nil shown
    exact ⟨k', by simp only [readThrough?, taken], shown⟩
  | cons a used ih =>
    obtain ⟨fuel, rfl⟩ := Nat.exists_eq_add_one_of_ne_zero (Nat.ne_zero_of_lt enough)
    have passed := free a List.mem_cons_self
    obtain ⟨k', taken, shown, -⟩ := read_cons shown
    obtain ⟨k'', more, shown⟩ :=
      ih shown (fun b member => free b (List.mem_cons_of_mem _ member)) (Nat.le_of_succ_le_succ enough)
    refine ⟨k'', by rw [readThrough?, taken]; simp [passed, more], ?_⟩
    rwa [add_length_cons]

end Tape

end Hashlang
