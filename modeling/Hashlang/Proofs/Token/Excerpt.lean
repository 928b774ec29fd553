import Hashlang.Proofs.Token.Neighbours
import Hashlang.Proofs.Token.Tiling

namespace Hashlang

namespace Token

theorem shift_shift (a b : Nat) (t : Token) : (t.shift a).shift b = t.shift (a + b) := by
  simp only [shift, Span.shift, Nat.add_assoc]

theorem map_shift_shift (a b : Nat) (ts : List Token) :
    (ts.map (shift a)).map (shift b) = ts.map (shift (a + b)) := by
  simp only [List.map_map, Function.comp_def, shift_shift]

end Token

namespace Scan

open Lexeme Tape.Faithful

/-- A lexeme is no shorter for what is missing behind it. -/
theorem Piece.cut {kind : Token.Kind} {value used rest lost : List Char}
    (piece : Piece kind value used (rest ++ lost)) (legal : kind ≠ .illegal) :
    Piece kind value used rest :=
  piece.replace (replaces_append rest lost) (fun illegal => absurd illegal legal)
    fun illegal => absurd illegal legal

/-- A text can be cut into tokens in one way only. -/
theorem Tiles.unique {n : Nat} {text : List Char} {ts us : List Token} (first : Tiles n text ts)
    (second : Tiles n text us) : ts = us := by
  let k : Cursor Char := { passed := List.replicate n ' ', ahead := text }
  have shown : Shows k n text := ⟨List.length_replicate, rfl⟩
  obtain ⟨_, run, -⟩ := scanFrom_tiles first shown (Nat.le_refl _)
  obtain ⟨_, run', -⟩ := scanFrom_tiles second shown (Nat.le_refl _)
  rw [run] at run'
  exact (Prod.mk.inj run').1

theorem Tiles.shift {n : Nat} {text : List Char} {ts : List Token} (k : Nat) (tiles : Tiles n text ts) :
    Tiles (n + k) text (ts.map (Token.shift k)) := by
  induction tiles with
  | done => exact .done
  | @blank n c rest tokens blank _ ih =>
    have place : n + 1 + k = n + k + 1 := by omega
    rw [place] at ih
    exact .blank blank ih
  | @piece n kind value used rest tokens piece _ ih =>
    have place : n + used.length + k = n + k + used.length := by omega
    rw [place] at ih
    exact .piece piece ih

theorem Tiles.moved {n : Nat} {text : List Char} {ts : List Token} (tiles : Tiles n text ts) (m : Nat) :
    ∃ us, Tiles m text us ∧ ts.map (Token.shift m) = us.map (Token.shift n) := by
  obtain ⟨base, atStart⟩ := exists_tiles 0 text
  have here := atStart.shift n
  have there := atStart.shift m
  rw [Nat.zero_add] at here there
  have same := tiles.unique here
  subst same
  refine ⟨_, there, ?_⟩
  rw [Token.map_shift_shift, Token.map_shift_shift, Nat.add_comm]

theorem Tiles.drop {n : Nat} {text : List Char} {first later : List Token} {t : Token}
    (tiles : Tiles n text (first ++ t :: later)) :
    ∃ before after, text = before ++ after ∧ t.span.offset = n + before.length ∧
      Tiles (n + before.length) after (t :: later) := by
  generalize whole : first ++ t :: later = tokens at tiles
  induction tiles generalizing first with
  | @done n =>
    cases first with
    | nil =>
      cases whole
      exact ⟨[], [], rfl, rfl, .done⟩
    | cons s first => simp at whole
  | @blank n c rest tokens blank _ ih =>
    obtain ⟨before, after, rfl, place, tiles⟩ := ih whole
    rw [← add_length_cons n c] at place tiles
    exact ⟨c :: before, after, rfl, place, tiles⟩
  | @piece n kind value used rest tokens piece tiles ih =>
    cases first with
    | nil =>
      cases whole
      exact ⟨[], used ++ rest, rfl, rfl, .piece piece tiles⟩
    | cons s first =>
      obtain ⟨before, after, rfl, place, tiles⟩ := ih (List.cons.inj whole).2
      have length : n + used.length + before.length = n + (used ++ before).length := by
        rw [List.length_append, Nat.add_assoc]
      rw [length] at place tiles
      exact ⟨used ++ before, after, (List.append_assoc ..).symm, place, tiles⟩

theorem Tiles.take {n : Nat} {text : List Char} {first later : List Token} {t : Token}
    (tiles : Tiles n text (first ++ t :: later)) (proper : t.kind ≠ .endOfFile)
    (legal : ∀ s ∈ first ++ [t], s.kind ≠ .illegal) :
    ∃ inside behind, text = inside ++ behind ∧ t.span.stop = n + inside.length ∧
      Tiles n inside (first ++ [t, .fixed .endOfFile ⟨n + inside.length, 0⟩]) := by
  generalize whole : first ++ t :: later = tokens at tiles
  induction tiles generalizing first with
  | done =>
    cases first with
    | nil =>
      cases whole
      exact absurd rfl proper
    | cons s first => simp at whole
  | @blank n c rest tokens blank _ ih =>
    obtain ⟨inside, behind, rfl, place, tiles⟩ := ih legal whole
    rw [← add_length_cons n c] at place tiles
    exact ⟨c :: inside, behind, rfl, place, .blank blank tiles⟩
  | @piece n kind value used rest tokens piece tiles ih =>
    cases first with
    | nil =>
      cases whole
      have last : Piece kind value used [] := piece.cut (legal _ List.mem_cons_self)
      have alone := Tiles.piece (n := n) last .done
      rw [List.append_nil] at alone
      exact ⟨used, rest, rfl, rfl, alone⟩
    | cons s first =>
      obtain ⟨rfl, others⟩ := List.cons.inj whole
      have legalOthers : ∀ s ∈ first ++ [t], s.kind ≠ .illegal :=
        fun s member => legal s (List.mem_cons_of_mem _ member)
      obtain ⟨inside, behind, rfl, place, inner⟩ := ih legalOthers others
      have length : n + used.length + inside.length = n + (used ++ inside).length := by
        rw [List.length_append, Nat.add_assoc]
      rw [length] at place inner
      have here := piece.cut (legal _ List.mem_cons_self)
      exact ⟨used ++ inside, behind, (List.append_assoc ..).symm, place, .piece here inner⟩

end Scan

end Hashlang
