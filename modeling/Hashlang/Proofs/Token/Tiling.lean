import Hashlang.Proofs.Text.Slice
import Hashlang.Proofs.Token.Tiles

namespace Hashlang

def Span.Covers (s : Span) (i : Nat) : Prop := s.offset ≤ i ∧ i < s.stop

namespace Token

/-- How a token of this kind and value is written. -/
def Kind.spell (kind : Kind) (value : List Char) : List Char :=
  match kind with
  | .string => '"' :: (value ++ ['"'])
  | .comment => ';' :: value
  | _ => value

def spelling (t : Token) : String := .ofList (t.kind.spell t.value.toList)

/-- The token of a string that is never closed. -/
def Unclosed (t : Token) : Prop := t.kind = .illegal ∧ t.value.toList.getLast? = some '"'

theorem Kind.spell_injective (kind : Kind) {value value' : List Char}
    (same : kind.spell value = kind.spell value') : value = value' := by
  cases kind with
  | string => exact List.append_cancel_right (List.cons.inj same).2
  | comment => exact (List.cons.inj same).2
  | _ => exact same

theorem spelling_inj {s t : Token} (kinds : s.kind = t.kind) :
    s.spelling = t.spelling ↔ s.value = t.value := by
  constructor
  · intro same
    rw [spelling, spelling, kinds] at same
    exact String.toList_inj.mp (t.kind.spell_injective (String.ofList_injective same))
  · intro same
    rw [spelling, spelling, kinds, same]

end Token

/-- Tokens that tile a text without its end of the file. -/
structure Tiling (source : String) (tokens : List Token) : Prop where
  proper : ∀ t ∈ tokens, t.kind ≠ .endOfFile
  inside : ∀ t ∈ tokens, 0 < t.span.length ∧ t.span.stop ≤ source.length
  ordered : tokens.Pairwise fun s t => s.span.stop ≤ t.span.offset
  gaps : ∀ i c, source.toList[i]? = some c → (∀ t ∈ tokens, ¬ t.span.Covers i) →
    c ∈ [' ', '\t', '\r', '\n']
  spelled : ∀ t ∈ tokens, ¬ t.Unclosed → t.span.text? source = some t.spelling
  determined : ∀ s ∈ tokens, ∀ t ∈ tokens, s.kind = t.kind → ¬ s.Unclosed → ¬ t.Unclosed →
    (s.span.text? source = t.span.text? source ↔ s.value = t.value)
  unclosed : ∀ t ∈ tokens, t.Unclosed →
    t.span.stop = source.length ∧ ∃ lost, t.span.text? source = some (t.value ++ lost)

namespace Lexeme

theorem Longest.spelled {c : Char} {used rest value : List Char} {kind : Token.Kind}
    (longest : Longest c used rest (.token kind value)) :
    c :: used = kind.spell value ∧ kind ≠ .illegal ∧ kind ≠ .endOfFile := by
  cases longest with
  | bracket member =>
    simp only [brackets, List.mem_cons, List.not_mem_nil, or_false, Prod.mk.injEq] at member
    rcases member with ⟨-, rfl⟩ | ⟨-, rfl⟩ | ⟨-, rfl⟩ | ⟨-, rfl⟩ <;> exact ⟨rfl, by decide, by decide⟩
  | _ => exact ⟨rfl, by decide, by decide⟩

theorem IsIllegal.getLast?_ne {text : List Char} (illegal : IsIllegal text) :
    text.getLast? ≠ some '"' := by
  intro last
  rcases illegal.stray _ (List.mem_of_getLast? last) with hash | stray
  · exact absurd hash (by decide)
  · exact absurd stray (by decide)

end Lexeme

namespace Scan

open Lexeme

theorem Piece.nonempty {kind : Token.Kind} {value used rest : List Char}
    (piece : Piece kind value used rest) : 0 < used.length := by
  cases piece with
  | lexeme => exact Nat.succ_pos _
  | illegal strays present => exact List.length_pos_iff.mpr present

theorem Piece.proper {kind : Token.Kind} {value used rest : List Char}
    (piece : Piece kind value used rest) : kind ≠ .endOfFile := by
  cases piece with
  | lexeme longest => exact longest.spelled.2.2
  | illegal => decide

theorem Piece.spelled {kind : Token.Kind} {value used rest : List Char}
    (piece : Piece kind value used rest) :
    used = kind.spell value ∧ ¬ (kind = .illegal ∧ value.getLast? = some '"') ∨
      (kind = .illegal ∧ value.getLast? = some '"') ∧ rest = [] ∧ ∃ lost, used = value ++ lost := by
  cases piece with
  | lexeme longest =>
    obtain ⟨whole, legal, -⟩ := longest.spelled
    exact .inl ⟨whole, fun unclosed => legal unclosed.1⟩
  | illegal strays =>
    cases strays.run with
    | plain illegal => exact .inl ⟨rfl, fun unclosed => illegal.getLast?_ne unclosed.2⟩
    | @unclosed text lost => exact .inr ⟨⟨rfl, by simp⟩, rfl, lost, by simp⟩

/-- The text of `tokens`, which begins at index `n`, is cut into blanks and their pieces. -/
structure Cut (n : Nat) (text : List Char) (tokens : List Token) : Prop where
  placed : ∀ t ∈ tokens, ∃ before used rest, text = before ++ (used ++ rest) ∧
    t.span = ⟨n + before.length, used.length⟩ ∧ Piece t.kind t.value.toList used rest
  ordered : tokens.Pairwise fun s t => s.span.stop ≤ t.span.offset
  gaps : ∀ i c, text[i]? = some c → (∀ t ∈ tokens, ¬ t.span.Covers (n + i)) → isBlank c

theorem Cut.nil {n : Nat} : Cut n [] [] where
  placed t member := absurd member List.not_mem_nil
  ordered := .nil
  gaps i c here := by simp at here

theorem Cut.blank {n : Nat} {c : Char} {rest : List Char} {tokens : List Token} (blank : isBlank c)
    (cut : Cut (n + 1) rest tokens) : Cut n (c :: rest) tokens where
  placed t member := by
    obtain ⟨before, used, after, rfl, span, piece⟩ := cut.placed t member
    refine ⟨c :: before, used, after, rfl, ?_, piece⟩
    rw [span, add_length_cons]
  ordered := cut.ordered
  gaps i d here free := by
    cases i with
    | zero =>
      obtain rfl := Option.some.inj here
      exact blank
    | succ i =>
      rw [Nat.add_comm i, ← Nat.add_assoc] at free
      exact cut.gaps i d here free

theorem Cut.piece {n : Nat} {kind : Token.Kind} {value used rest : List Char} {tokens : List Token}
    (piece : Piece kind value used rest) (cut : Cut (n + used.length) rest tokens) :
    Cut n (used ++ rest) (⟨kind, .ofList value, ⟨n, used.length⟩⟩ :: tokens) where
  placed t member := by
    rcases List.mem_cons.mp member with rfl | member
    · exact ⟨[], used, rest, rfl, rfl, by simpa using piece⟩
    · obtain ⟨before, here, after, rfl, span, piece⟩ := cut.placed t member
      refine ⟨used ++ before, here, after, by rw [List.append_assoc], ?_, piece⟩
      rw [span, List.length_append, Nat.add_assoc]
  ordered := by
    refine .cons (fun t member => ?_) cut.ordered
    obtain ⟨before, here, after, -, span, -⟩ := cut.placed t member
    rw [span]
    exact Nat.le_add_right _ _
  gaps i d here free := by
    have notCovered := free _ List.mem_cons_self
    -- A character that the first token does not cover is one of the text behind it.
    simp only [Span.Covers, Span.stop, Nat.le_add_right, Nat.add_lt_add_iff_left, true_and, Nat.not_lt]
      at notCovered
    obtain ⟨j, rfl⟩ := Nat.exists_eq_add_of_le notCovered
    rw [List.getElem?_append_right notCovered, Nat.add_sub_cancel_left] at here
    refine cut.gaps j d here fun t member => ?_
    rw [Nat.add_assoc]
    exact free t (List.mem_cons_of_mem _ member)

theorem Tiles.cut {n : Nat} {text : List Char} {tokens : List Token} (tiles : Tiles n text tokens) :
    ∃ pieces, tokens = pieces ++ [.fixed .endOfFile { offset := n + text.length }] ∧ Cut n text pieces := by
  induction tiles with
  | done => exact ⟨[], rfl, .nil⟩
  | @blank n c rest tokens blank _ ih =>
    obtain ⟨pieces, rfl, cut⟩ := ih
    have behind : n + 1 + rest.length = n + (c :: rest).length := by
      rw [List.length_cons]
      omega
    exact ⟨pieces, by rw [behind], cut.blank blank⟩
  | piece piece _ ih =>
    obtain ⟨pieces, rfl, cut⟩ := ih
    refine ⟨_ :: pieces, ?_, cut.piece piece⟩
    rw [List.length_append, ← Nat.add_assoc, List.cons_append]

theorem Cut.slice {source : String} {tokens : List Token} (cut : Cut 0 source.toList tokens) {t : Token}
    (member : t ∈ tokens) :
    ∃ before used rest, source.toList = before ++ (used ++ rest) ∧ t.span = ⟨before.length, used.length⟩ ∧
      t.span.text? source = some (.ofList used) ∧ Piece t.kind t.value.toList used rest := by
  obtain ⟨before, used, rest, whole, span, piece⟩ := cut.placed t member
  rw [Nat.zero_add] at span
  exact ⟨before, used, rest, whole, span, by rw [span]; exact Span.text?_of_append whole, piece⟩

theorem Cut.spelled {source : String} {tokens : List Token} (cut : Cut 0 source.toList tokens) {t : Token}
    (member : t ∈ tokens) (closed : ¬ t.Unclosed) : t.span.text? source = some t.spelling := by
  obtain ⟨before, used, rest, -, -, slice, piece⟩ := cut.slice member
  rcases piece.spelled with ⟨rfl, -⟩ | ⟨unclosed, -⟩
  · exact slice
  · exact absurd unclosed closed

theorem Cut.tiling {source : String} {tokens : List Token} (cut : Cut 0 source.toList tokens) :
    Tiling source tokens where
  proper t member := by
    obtain ⟨_, _, _, -, -, -, piece⟩ := cut.slice member
    exact piece.proper
  inside t member := by
    obtain ⟨before, used, rest, whole, span, -, piece⟩ := cut.slice member
    have length := congrArg List.length whole
    rw [String.length_toList, List.length_append, List.length_append] at length
    simp only [span, Span.stop]
    exact ⟨piece.nonempty, by omega⟩
  ordered := cut.ordered
  gaps i c here free := by
    have blank := cut.gaps i c here (by simpa using free)
    simpa [isBlank, or_assoc] using blank
  spelled t member closed := cut.spelled member closed
  determined s left t right kinds closed closed' := by
    rw [cut.spelled left closed, cut.spelled right closed', Option.some.injEq]
    exact Token.spelling_inj kinds
  unclosed t member unclosed := by
    obtain ⟨before, used, rest, whole, span, slice, piece⟩ := cut.slice member
    rcases piece.spelled with ⟨-, closed⟩ | ⟨-, rfl, lost, rfl⟩
    · exact absurd unclosed closed
    · have length := congrArg List.length whole
      rw [String.length_toList, List.append_nil, List.length_append] at length
      refine ⟨by rw [span, Span.stop, length], .ofList lost, ?_⟩
      rw [slice, String.ofList_append, String.ofList_toList]

theorem exists_cut (source : String) : ∃ pieces, scan source =
    pieces ++ [.fixed .endOfFile ⟨source.length, 0⟩] ∧ Cut 0 source.toList pieces := by
  obtain ⟨pieces, whole, cut⟩ := (tiles_scan source).cut
  rw [Nat.zero_add, String.length_toList] at whole
  exact ⟨pieces, whole, cut⟩

end Scan

/-- The tokens of a text tile it, and the one token behind them marks its end. -/
theorem scan_tiling (source : String) :
    ∃ tokens, scan source = tokens ++ [.fixed .endOfFile ⟨source.length, 0⟩] ∧ Tiling source tokens := by
  obtain ⟨tokens, whole, cut⟩ := (tiles_scan source).cut
  rw [Nat.zero_add, String.length_toList] at whole
  exact ⟨tokens, whole, cut.tiling⟩

end Hashlang
