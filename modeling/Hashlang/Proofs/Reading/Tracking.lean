import Hashlang.Proofs.Reading.Faithful

namespace Hashlang

namespace Tape

open Faithful

variable {κ α : Type} [Tape κ α] {cursor : κ → Cursor α} {Sound : κ → Prop} {k : κ}

/-- As long as a tape is sound, it is used as the cursor behind it, and stepping back over an element that
was read last keeps it sound. -/
structure Tracks (cursor : κ → Cursor α) (Sound : κ → Prop) : Prop where
  peek_eq {k : κ} : Sound k → peek k = (cursor k).peek
  position_eq {k : κ} : Sound k → position k = (cursor k).position
  remaining_eq {k : κ} : Sound k → remaining k = (cursor k).ahead.length
  read_eq {k : κ} : Sound k →
    ∃ k', read k = ((cursor k).read.1, k') ∧ cursor k' = (cursor k).read.2 ∧ Sound k'
  undone {k k' : κ} {a : α} : Sound k → read k = (some a, k') →
    cursor (rollback k') = cursor k ∧ Sound (rollback k')

theorem tracks_self : Tracks (fun c : Cursor α => c) fun _ => True where
  peek_eq _ := rfl
  position_eq _ := rfl
  remaining_eq _ := rfl
  read_eq _ := ⟨_, rfl, rfl, trivial⟩
  undone _ taken := ⟨Cursor.rollback_read taken, trivial⟩

@[reducible] def Tracks.faithful (tracks : Tracks cursor Sound) (whole : List α) : Faithful κ where
  Shows k n l := Sound k ∧ (cursor k).toList = whole ∧ Shows (cursor k) n l
  peek_eq := fun ⟨sound, _, shown⟩ => (tracks.peek_eq sound).trans (Faithful.peek_eq shown)
  position_eq := fun ⟨sound, _, shown⟩ => (tracks.position_eq sound).trans (Faithful.position_eq shown)
  remaining_eq := fun ⟨sound, _, shown⟩ =>
    (tracks.remaining_eq sound).trans (Faithful.remaining_eq shown)
  read_nil {k n} := by
    rintro ⟨sound, all, shown⟩
    obtain ⟨k', taken, same, sound'⟩ := tracks.read_eq sound
    rw [Cursor.read_nil shown.2] at taken same
    exact ⟨k', taken, sound', by rwa [same], by rwa [same]⟩
  read_cons {k n a l} := by
    rintro ⟨sound, all, shown⟩
    obtain ⟨k', taken, same, sound'⟩ := tracks.read_eq sound
    obtain ⟨d, first, behind, -⟩ := Faithful.read_cons shown
    have first : (cursor k).read = (some a, d) := first
    have all' : d.toList = whole := by rw [← all, ← (cursor k).toList_read, first]
    rw [first] at taken same
    obtain ⟨back, safe⟩ := tracks.undone sound taken
    exact ⟨k', taken, ⟨sound', by rwa [same], by rwa [same]⟩, safe, by rwa [back], by rwa [back]⟩

/-- What is read from faithful tapes is the same from a tape and from the cursor behind it, and both end at
the same place. Here `g` gives the outcome of a reading from the place where it leaves the tape. -/
theorem Tracks.transfer (tracks : Tracks cursor Sound) (sound : Sound k) {F : Type → Type}
    {f : (τ : Type) → [Tape τ α] → τ → F τ} {g : (τ : Type) → τ → F τ} {m : Nat} {rest : List α}
    (reads : ∀ (τ : Type) [Tape τ α] [Faithful τ] (i : τ),
      Shows i (cursor k).position (cursor k).ahead → ∃ i', f τ i = g τ i' ∧ Shows i' m rest) :
    ∃ k', f κ k = g κ k' ∧ f (Cursor α) (cursor k) = g (Cursor α) (cursor k') ∧ Sound k' ∧
      (cursor k').toList = (cursor k).toList ∧ Shows (cursor k') m rest := by
  have start : Shows (cursor k) (cursor k).position (cursor k).ahead := ⟨rfl, rfl⟩
  -- Both tapes are held to the sequence in which they start, so equal indices are equal places.
  obtain ⟨k', ran, sound', all, shown⟩ :=
    @reads κ _ (tracks.faithful (cursor k).toList) k ⟨sound, rfl, start⟩
  obtain ⟨d, ran', -, all', shown'⟩ :=
    @reads (Cursor α) _ (tracks_self.faithful (cursor k).toList) (cursor k) ⟨trivial, rfl, start⟩
  have together : d = cursor k' :=
    Cursor.eq_of_toList (all'.trans all.symm) (shown'.1.trans shown.1.symm)
  exact ⟨k', ran, together ▸ ran', sound', all, shown⟩

end Tape

namespace Cursor.Guarded

theorem tracks {α : Type} : Tape.Tracks (κ := Guarded α) cursor fun g => g.intact = true where
  peek_eq intact := if_pos intact
  position_eq _ := rfl
  remaining_eq _ := rfl
  read_eq intact := ⟨_, read_eq intact, rfl, rfl⟩
  undone {g g' a} intact taken := by
    have back : Tape.rollback g' = ⟨g.cursor, false, true⟩ := rollback_of_read intact taken
    rw [back]
    exact ⟨rfl, rfl⟩

end Cursor.Guarded

/-- A cursor together with the places where its steps led, the last one first. -/
structure Cursor.Trailed (α : Type) where
  cursor : Cursor α
  trail : List Nat := []

namespace Cursor.Trailed

variable {α : Type} {t : Trailed α} {floor : Nat}

def move (t : Trailed α) (c : Cursor α) : Trailed α where
  cursor := c
  trail := c.position :: t.trail

instance : Tape (Trailed α) α where
  peek t := t.cursor.peek
  read t := (t.cursor.read.1, t.move t.cursor.read.2)
  rollback t := t.move t.cursor.rollback
  position t := t.cursor.position
  remaining t := t.cursor.ahead.length

/-- The cursor is not in front of `floor`, and it never was. -/
def StaysBehind (floor : Nat) (t : Trailed α) : Prop := ∀ p ∈ t.cursor.position :: t.trail, floor ≤ p

theorem StaysBehind.here (stays : t.StaysBehind floor) : floor ≤ t.cursor.position :=
  stays _ List.mem_cons_self

theorem StaysBehind.move {c : Cursor α} (stays : t.StaysBehind floor) (above : floor ≤ c.position) :
    (t.move c).StaysBehind floor :=
  List.forall_mem_cons.mpr ⟨above, List.forall_mem_cons.mpr ⟨above, (List.forall_mem_cons.mp stays).2⟩⟩

theorem StaysBehind.read (stays : t.StaysBehind floor) : (t.move t.cursor.read.2).StaysBehind floor :=
  stays.move (Nat.le_trans stays.here t.cursor.position_le_read)

theorem tracks (floor : Nat) : Tape.Tracks (κ := Trailed α) cursor (StaysBehind floor) where
  peek_eq _ := rfl
  position_eq _ := rfl
  remaining_eq _ := rfl
  read_eq stays := ⟨_, rfl, rfl, stays.read⟩
  undone {t t' a} stays taken := by
    obtain ⟨first, rfl⟩ := Prod.mk.inj taken
    have back : t.cursor.read.2.rollback = t.cursor := rollback_read (Prod.ext first rfl)
    exact ⟨back, stays.read.move (back.symm ▸ stays.here)⟩

end Cursor.Trailed

end Hashlang
