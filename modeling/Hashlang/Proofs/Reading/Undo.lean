import Hashlang.Proofs.Reading.Tracking
import Hashlang.Proofs.Syntax.Execution
import Hashlang.Proofs.Token.Tiles

namespace Hashlang

namespace Tape.Tracks

theorem scanTape {κ : Type} [Tape κ Char] {cursor : κ → Cursor Char} {Sound : κ → Prop} {k : κ}
    (tracks : Tracks cursor Sound) (sound : Sound k) :
    ∃ k', Scan.scanTape k = ((Scan.scanTape (cursor k)).1, k') ∧
      (Scan.scanTape (cursor k)).2 = cursor k' ∧ Sound k' := by
  obtain ⟨tokens, tiles⟩ := Scan.exists_tiles (cursor k).position (cursor k).ahead
  obtain ⟨k', scanned, alone, sound', -⟩ :=
    tracks.transfer sound (f := fun _ _ => Scan.scanTape) (g := fun _ i => (tokens, i))
      fun _ _ _ _ shown =>
        Scan.scanFrom_tiles tiles shown (Nat.le_of_eq (Faithful.remaining_eq shown).symm)
  rw [alone]
  exact ⟨k', scanned, rfl, sound'⟩

theorem parseTape {κ : Type} [Tape κ Token] {cursor : κ → Cursor Token} {Sound : κ → Prop} {k : κ}
    (tracks : Tracks cursor Sound) (sound : Sound k) :
    ∃ k', Hashlang.parseTape k =
        ⟨(Hashlang.parseTape (cursor k)).events, (Hashlang.parseTape (cursor k)).result, k'⟩ ∧
      (Hashlang.parseTape (cursor k)).tape = cursor k' ∧ Sound k' := by
  obtain ⟨events, result, m, rest, run⟩ := Parse.exists_programRun (cursor k).position (cursor k).ahead
  obtain ⟨k', parsed, alone, sound', -⟩ :=
    tracks.transfer sound (f := fun _ _ => Hashlang.parseTape) (g := fun _ i => ⟨events, result, i⟩)
      fun _ _ _ _ shown => run.parseTape shown
  rw [alone]
  exact ⟨k', parsed, rfl, sound'⟩

end Tape.Tracks

open Cursor (Guarded)

/-- A guarded cursor never gives out under the scanner, whatever the text, nor under the parser, whatever
the tokens, wherever among them it starts and however it was used before. The tokens are those of the text.
Program or error, notes and the place where the cursor is left are those of a cursor without the guard. -/
theorem undo_within_guarantee :
    (∀ source : String,
      let scanned := Scan.scanTape (Guarded.ofList source.toList)
      scanned.2.intact = true ∧ scanned.1 = scan source) ∧
    ∀ (c : Cursor Token) (undoable : Bool),
      let parsed := parseTape (⟨c, undoable, true⟩ : Guarded Token)
      parsed.tape.intact = true ∧ parsed.result = (parseTape c).result ∧
        parsed.events = (parseTape c).events ∧ parsed.tape.cursor = (parseTape c).tape := by
  constructor
  · intro source scanned
    have intact : (Guarded.ofList source.toList).intact = true := rfl
    obtain ⟨g, ran, -, intact'⟩ := Guarded.tracks.scanTape intact
    have same : scanned = (scan source, g) := ran
    rw [same]
    exact ⟨intact', rfl⟩
  · intro c undoable parsed
    have intact : (⟨c, undoable, true⟩ : Guarded Token).intact = true := rfl
    obtain ⟨g, ran, place, intact'⟩ := Guarded.tracks.parseTape intact
    have same : parsed = ⟨(parseTape c).events, (parseTape c).result, g⟩ := ran
    rw [same]
    exact ⟨intact', rfl, rfl, place.symm⟩

end Hashlang
