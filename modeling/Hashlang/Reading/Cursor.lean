import Hashlang.Reading.Tape

namespace Hashlang

/-- A place in a sequence: the elements passed, last one first, and those ahead. -/
structure Cursor (α : Type) where
  passed : List α
  ahead : List α
  position : Nat := passed.length
  position_eq : position = passed.length := by rfl

namespace Cursor

variable {α : Type}

@[ext] theorem ext {c d : Cursor α} (hp : c.passed = d.passed) (ha : c.ahead = d.ahead) : c = d := by
  obtain ⟨p, a, n, hn⟩ := c
  obtain ⟨q, b, m, hm⟩ := d
  subst hp ha hn hm
  rfl

def ofList (l : List α) : Cursor α where
  passed := []
  ahead := l

def ofText (text : String) : Cursor Char := ofList text.toList

def toList (c : Cursor α) : List α := c.passed.reverse ++ c.ahead

def isExhausted (c : Cursor α) : Bool := c.ahead.isEmpty

def peek (c : Cursor α) : Option α := c.ahead.head?

def read (c : Cursor α) : Option α × Cursor α :=
  match c.ahead with
  | [] => (none, c)
  | a :: rest =>
    (some a,
      { passed := a :: c.passed
        ahead := rest
        position := c.position + 1
        position_eq := by simp [c.position_eq] })

def rollback (c : Cursor α) : Cursor α :=
  match c.passed with
  | [] => c
  | a :: rest => { passed := rest, ahead := a :: c.ahead }

instance : Tape (Cursor α) α where
  peek := peek
  read := read
  rollback := rollback
  position := position
  remaining c := c.ahead.length

inductive Step where
  | read
  | peek
  | rollback
deriving DecidableEq

def perform (c : Cursor α) : Step → Option α × Cursor α
  | .read => c.read
  | .peek => (c.peek, c)
  | .rollback => (none, c.rollback)

def performAll (c : Cursor α) (steps : List Step) : Cursor α :=
  steps.foldl (fun c step => (c.perform step).2) c

@[simp] theorem read_nil {c : Cursor α} (h : c.ahead = []) : c.read = (none, c) := by
  simp only [read, h]

theorem toList_read (c : Cursor α) : c.read.2.toList = c.toList := by
  cases h : c.ahead <;> simp [read, toList, h]

theorem toList_rollback (c : Cursor α) : c.rollback.toList = c.toList := by
  cases h : c.passed <;> simp [rollback, toList, h]

theorem toList_perform (c : Cursor α) (step : Step) : (c.perform step).2.toList = c.toList := by
  cases step with
  | read => exact c.toList_read
  | peek => rfl
  | rollback => exact c.toList_rollback

theorem toList_performAll (c : Cursor α) (steps : List Step) :
    (c.performAll steps).toList = c.toList := by
  induction steps generalizing c with
  | nil => rfl
  | cons step steps ih => exact (ih (c.perform step).2).trans (c.toList_perform step)

theorem ahead_eq_drop (c : Cursor α) : c.ahead = c.toList.drop c.position := by
  rw [toList, c.position_eq, ← List.length_reverse, List.drop_left]

theorem length_toList (c : Cursor α) : c.toList.length = c.position + c.ahead.length := by
  rw [toList, List.length_append, List.length_reverse, c.position_eq]

theorem eq_of_toList {c d : Cursor α} (whole : c.toList = d.toList) (place : c.position = d.position) :
    c = d := by
  have ahead : c.ahead = d.ahead := by rw [c.ahead_eq_drop, d.ahead_eq_drop, whole, place]
  rw [toList, toList, ahead] at whole
  exact Cursor.ext (List.reverse_inj.mp (List.append_cancel_right whole)) ahead

theorem position_le_read (c : Cursor α) : c.position ≤ c.read.2.position := by
  cases ahead : c.ahead with
  | nil => simp only [read_nil ahead, Nat.le_refl]
  | cons a l => simp only [read, ahead, Nat.le_succ]

theorem rollback_read {c d : Cursor α} {a : α} (h : c.read = (some a, d)) : d.rollback = c := by
  obtain ⟨p, l, n, hn⟩ := c
  cases l with
  | nil => simp [read] at h
  | cons b rest =>
    simp only [read, Prod.mk.injEq, Option.some.injEq] at h
    obtain ⟨rfl, rfl⟩ := h
    subst hn
    rfl

end Cursor

/-- A cursor that gives out when a reader asks for more undo than is guaranteed. -/
structure Cursor.Guarded (α : Type) where
  cursor : Cursor α
  /-- Whether the last read or rollback was a read that returned an element. -/
  undoable : Bool := false
  /-- Whether every rollback so far came directly after such a read. -/
  intact : Bool := true

namespace Cursor.Guarded

variable {α : Type}

def ofList (l : List α) : Guarded α := { cursor := .ofList l }

def peek (g : Guarded α) : Option α := if g.intact then g.cursor.peek else none

def read (g : Guarded α) : Option α × Guarded α :=
  if g.intact then
    let (a, c) := g.cursor.read
    (a, { g with cursor := c, undoable := a.isSome })
  else (none, g)

def rollback (g : Guarded α) : Guarded α :=
  if g.intact && g.undoable then { g with cursor := g.cursor.rollback, undoable := false }
  else { g with intact := false }

instance : Tape (Guarded α) α where
  peek := peek
  read := read
  rollback := rollback
  position g := g.cursor.position
  remaining g := g.cursor.ahead.length

theorem read_eq {g : Guarded α} (intact : g.intact = true) :
    g.read = (g.cursor.read.1, ⟨g.cursor.read.2, g.cursor.read.1.isSome, true⟩) := by
  simp only [read, intact, if_true]

theorem rollback_of_read {g g' : Guarded α} {a : α} (intact : g.intact = true)
    (taken : g.read = (some a, g')) : g'.rollback = ⟨g.cursor, false, true⟩ := by
  obtain ⟨first, rfl⟩ := Prod.mk.inj ((read_eq intact).symm.trans taken)
  have back : g.cursor.read.2.rollback = g.cursor := Cursor.rollback_read (Prod.ext first rfl)
  simp only [rollback, first, back, Option.isSome_some, Bool.and_self, if_true]

end Cursor.Guarded

end Hashlang
