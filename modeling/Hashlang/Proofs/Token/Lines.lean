import Hashlang.Proofs.Token.Excerpt
import Hashlang.Proofs.Token.LongestMatch

namespace Hashlang

namespace Scan

open Lexeme

/-- Behind a lexeme, a new line is as good as the end of the text. -/
theorem replaces_line (rest more : List Char) : Replaces (rest ++ '\n' :: more) rest := by
  cases rest with
  | nil =>
    refine ⟨fun d first => ?_, fun _ d first => ?_⟩
    · cases first
      exact .inr rfl
    · cases first
      rfl
  | cons c rest => exact ⟨fun d first => .inl first, fun line => line⟩

theorem Legal.line {rest : List Char} (legal : Legal rest) (more : List Char) :
    Legal (rest ++ '\n' :: more) := by
  cases legal with
  | nil => exact .blank rfl
  | blank blank => exact .blank blank
  | @lexeme c used rest kind value longest =>
    rw [List.cons_append, List.append_assoc]
    exact .lexeme (longest.replace (replaces_line rest more) fun same => by cases same)

theorem Piece.line {kind : Token.Kind} {value used rest : List Char} (piece : Piece kind value used rest)
    (closed : ¬ (kind = .illegal ∧ value.getLast? = some '"')) (more : List Char) :
    Piece kind value used (rest ++ '\n' :: more) := by
  refine piece.replace (replaces_line rest more) (fun illegal => ?_) fun illegal last => ?_
  · subst illegal
    exact piece.strays.legal.line more
  · exact absurd ⟨illegal, last⟩ closed

theorem Tiles.ne_nil {n : Nat} {text : List Char} {tokens : List Token} (tiles : Tiles n text tokens) :
    tokens ≠ [] := by
  induction tiles with
  | done => exact List.cons_ne_nil _ _
  | blank _ _ ih => exact ih
  | piece => exact List.cons_ne_nil _ _

theorem Tiles.line {n : Nat} {text more : List Char} {ts us : List Token} (tiles : Tiles n text ts)
    (closed : ∀ t ∈ ts, ¬ t.Unclosed) (behind : Tiles (n + text.length + 1) more us) :
    Tiles n (text ++ '\n' :: more) (ts.dropLast ++ us) := by
  induction tiles with
  | done => exact .blank rfl behind
  | @blank n c rest tokens blank _ ih =>
    rw [add_length_cons] at behind
    exact .blank blank (ih closed behind)
  | @piece n kind value used rest tokens piece tiles ih =>
    obtain ⟨here, later⟩ := List.forall_mem_cons.mp closed
    rw [List.length_append, ← Nat.add_assoc] at behind
    rw [List.dropLast_cons_of_ne_nil tiles.ne_nil, List.append_assoc]
    have closed : ¬ (kind = .illegal ∧ value.getLast? = some '"') := by
      intro open'
      exact here ⟨open'.1, by rw [String.toList_ofList]; exact open'.2⟩
    exact .piece (piece.line closed more) (ih later behind)

end Scan

open Scan in
theorem scan_line {a : String} (closed : ∀ t ∈ scan a, ¬ t.Unclosed) (b : String) :
    scan (a ++ "\n" ++ b) = (scan a).dropLast ++ (scan b).map (Token.shift (a.length + 1)) := by
  have behind := (tiles_scan b).shift (a.length + 1)
  rw [← String.length_toList, ← Nat.add_assoc] at behind
  have tiles := (tiles_scan a).line closed behind
  rw [String.length_toList] at tiles
  apply scan_of_tiles
  simpa using tiles

/-- A text and another one on the lines behind it have the tokens of both, those of the second moved to
where they stand, and only one end of the file. -/
theorem scan_lines {a : String} (closed : ∀ t ∈ scan a, ¬ t.Unclosed) (b : String) :
    ∃ tokens, scan a = tokens ++ [.fixed .endOfFile ⟨a.length, 0⟩] ∧
      scan (a ++ "\n" ++ b) = tokens ++ (scan b).map (Token.shift (a.length + 1)) := by
  obtain ⟨tokens, whole, -⟩ := Scan.exists_cut a
  refine ⟨tokens, whole, ?_⟩
  rw [scan_line closed, whole, List.dropLast_concat]

theorem scan_lines_comment : scan ("1. #;\"" ++ "\n" ++ "5x\"") =
    [⟨.number, "1.", ⟨0, 2⟩⟩, ⟨.illegal, "#", ⟨3, 1⟩⟩, ⟨.comment, "\"", ⟨4, 2⟩⟩,
      ⟨.number, "5", ⟨7, 1⟩⟩, ⟨.identifier, "x", ⟨8, 1⟩⟩, ⟨.illegal, "\"", ⟨9, 1⟩⟩,
      .fixed .endOfFile ⟨10, 0⟩] := by
  have first : scan "1. #;\"" = [⟨.number, "1.", ⟨0, 2⟩⟩, ⟨.illegal, "#", ⟨3, 1⟩⟩,
      ⟨.comment, "\"", ⟨4, 2⟩⟩] ++ [.fixed .endOfFile ⟨6, 0⟩] := by decide +kernel
  have second : scan "5x\"" = [⟨.number, "5", ⟨0, 1⟩⟩, ⟨.identifier, "x", ⟨1, 1⟩⟩,
      ⟨.illegal, "\"", ⟨2, 1⟩⟩, .fixed .endOfFile ⟨3, 0⟩] := by decide +kernel
  have closed : ∀ t ∈ scan "1. #;\"", ¬ t.Unclosed := by
    rw [first]
    simp [Token.Unclosed, Token.fixed]
  obtain ⟨tokens, whole, joined⟩ := scan_lines closed "5x\""
  obtain ⟨rfl, -⟩ := List.append_inj' (first.symm.trans whole) rfl
  rw [joined, second]
  rfl

end Hashlang
