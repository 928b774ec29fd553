import Mathlib.Algebra.Ring.Nat
import Mathlib.Order.Monotone.Basic
import Hashlang.Text.Span

namespace Hashlang

namespace Place

def lineStart (lines : List (List Char)) (i : Nat) : Nat :=
  ((lines.take i).map fun line => line.length + 1).sum

/-- Whether a line of a place is there and reaches up to its column. -/
def Within (lines : List (List Char)) (p : Place) : Prop :=
  0 < p.line ∧ ∃ line, lines[p.line - 1]? = some line ∧ p.column ≤ line.length

/-- How many characters stand in front of a place. -/
def index (lines : List (List Char)) (p : Place) : Nat := lineStart lines (p.line - 1) + p.column

def Before (p q : Place) : Prop := p.line < q.line ∨ p.line = q.line ∧ p.column < q.column

theorem before_or_eq_or_before (p q : Place) : p.Before q ∨ p = q ∨ q.Before p := by
  obtain ⟨line, column⟩ := p
  obtain ⟨line', column'⟩ := q
  simp only [Before, mk.injEq]
  omega

theorem lineStart_succ (lines : List (List Char)) (i : Nat) :
    lineStart lines (i + 1) = lineStart lines i + (lines[i]?.map fun line => line.length + 1).getD 0 := by
  simp only [lineStart, List.take_add_one, List.map_append, List.sum_append]
  cases lines[i]? <;> simp

section

variable {lines : List (List Char)} {p q : Place}

theorem lineStart_mono : Monotone (lineStart lines) := by
  apply monotone_nat_of_le_succ
  intro i
  rw [lineStart_succ]
  omega

theorem Within.index_lt (within : p.Within lines) : p.index lines < lineStart lines p.line := by
  obtain ⟨positive, line, here, fits⟩ := within
  have next := lineStart_succ lines (p.line - 1)
  rw [Nat.sub_add_cancel positive, here] at next
  simp only [index, next, Option.map_some, Option.getD_some]
  omega

theorem Within.index_lt_index (within : p.Within lines) (before : p.Before q) :
    p.index lines < q.index lines := by
  rcases before with earlier | ⟨same, left⟩
  · have start : lineStart lines p.line ≤ lineStart lines (q.line - 1) := by
      apply lineStart_mono
      omega
    exact (within.index_lt.trans_le start).trans_le (Nat.le_add_right ..)
  · simp only [index, same]
    omega

theorem Within.eq_of_index_eq (left : p.Within lines) (right : q.Within lines)
    (same : p.index lines = q.index lines) : p = q := by
  rcases before_or_eq_or_before p q with before | equal | before
  · exact absurd same (left.index_lt_index before).ne
  · exact equal
  · exact absurd same (right.index_lt_index before).ne'

theorem Within.before_of_index_lt (right : q.Within lines) (less : p.index lines < q.index lines) :
    p.Before q := by
  rcases before_or_eq_or_before p q with before | rfl | before
  · exact before
  · exact absurd less (Nat.lt_irrefl _)
  · exact absurd less (right.index_lt_index before).not_gt

end

theorem lineStart_zero (lines : List (List Char)) : lineStart lines 0 = 0 := rfl

theorem lineStart_cons (line : List Char) (lines : List (List Char)) (i : Nat) :
    lineStart (line :: lines) (i + 1) = line.length + 1 + lineStart lines i := by
  simp only [lineStart, List.take_succ_cons, List.map_cons, List.sum_cons]

theorem splitOn_break (rest : List Char) :
    ('\n' :: rest).splitOn '\n' = [] :: rest.splitOn '\n' := by
  rw [List.splitOn_cons_eq_if_modifyHead, if_pos (beq_self_eq_true _)]

theorem splitOn_cons {c : Char} {rest first : List Char} {others : List (List Char)} (other : c ≠ '\n')
    (cut : rest.splitOn '\n' = first :: others) : (c :: rest).splitOn '\n' = (c :: first) :: others := by
  rw [List.splitOn_cons_eq_if_modifyHead, if_neg (by simpa using other), cut, List.modifyHead_cons]

theorem lineStart_length (text : List Char) :
    lineStart (text.splitOn '\n') (text.splitOn '\n').length = text.length + 1 := by
  induction text with
  | nil => rfl
  | cons c rest ih =>
    obtain ⟨first, others, cut⟩ := List.exists_cons_of_ne_nil (List.splitOn_ne_nil '\n' rest)
    by_cases isBreak : c = '\n'
    · subst isBreak
      rw [splitOn_break, List.length_cons, lineStart_cons, ih, List.length_nil, List.length_cons]
      omega
    · rw [cut, List.length_cons, lineStart_cons] at ih
      rw [splitOn_cons isBreak cut, List.length_cons, lineStart_cons, List.length_cons, List.length_cons]
      omega

theorem exists_line (text : List Char) (p : Place) {o : Nat} (inside : o ≤ text.length) :
    ∃ i column line, (text.splitOn '\n')[i]? = some line ∧ column ≤ line.length ∧
      o = lineStart (text.splitOn '\n') i + column ∧
      (text.take o).foldl after p = ⟨p.line + i, if i = 0 then p.column + column else column⟩ := by
  induction text generalizing p o with
  | nil =>
    obtain rfl : o = 0 := Nat.le_zero.mp inside
    exact ⟨0, 0, [], rfl, Nat.le_refl _, rfl, rfl⟩
  | cons c rest ih =>
    cases o with
    | zero =>
      obtain ⟨first, others, cut⟩ := List.exists_cons_of_ne_nil (List.splitOn_ne_nil '\n' (c :: rest))
      exact ⟨0, 0, first, by rw [cut]; rfl, Nat.zero_le _, rfl, rfl⟩
    | succ o =>
      -- A line break puts an empty line in front of the others; any other character lengthens the first line.
      obtain ⟨i, column, line, here, fits, reached, walked⟩ := ih (p.after c) (Nat.le_of_succ_le_succ inside)
      rw [List.take_succ_cons, List.foldl_cons, walked]
      by_cases isBreak : c = '\n'
      · subst isBreak
        rw [splitOn_break]
        refine ⟨i + 1, column, line, here, fits, ?_, ?_⟩
        · rw [lineStart_cons, reached, List.length_nil]
          omega
        · simp only [after, if_true, Nat.zero_add, ite_self, Nat.add_eq_zero_iff, Nat.one_ne_zero, and_false,
            if_false, mk.injEq, and_true]
          omega
      · obtain ⟨first, others, cut⟩ := List.exists_cons_of_ne_nil (List.splitOn_ne_nil '\n' rest)
        rw [splitOn_cons isBreak cut]
        rw [cut] at here reached
        cases i with
        | zero =>
          obtain rfl : first = line := Option.some.inj here
          refine ⟨0, column + 1, c :: first, rfl, Nat.succ_le_succ fits, ?_, ?_⟩
          · rw [lineStart_zero] at reached ⊢
            omega
          · simp only [after, if_neg isBreak, if_true, mk.injEq, true_and]
            omega
        | succ i =>
          refine ⟨i + 1, column, line, here, fits, ?_, ?_⟩
          · rw [lineStart_cons] at reached ⊢
            rw [List.length_cons]
            omega
          · simp only [after, if_neg isBreak, Nat.add_eq_zero_iff, Nat.one_ne_zero, and_false, if_false]

theorem behind_take {text : List Char} {o : Nat} (inside : o ≤ text.length) :
    (behind (text.take o)).Within (text.splitOn '\n') ∧ o = (behind (text.take o)).index (text.splitOn '\n') := by
  obtain ⟨i, column, line, here, fits, reached, walked⟩ := exists_line text {} inside
  have place : behind (text.take o) = ⟨i + 1, column⟩ := by
    rw [behind, walked, Nat.add_comm, Nat.zero_add, ite_self]
  rw [place]
  exact ⟨⟨Nat.succ_pos i, line, here, fits⟩, reached⟩

theorem Within.index_le {text : List Char} {p : Place} (within : p.Within (text.splitOn '\n')) :
    p.index (text.splitOn '\n') ≤ text.length := by
  have less := within.index_lt
  obtain ⟨-, line, here, -⟩ := within
  obtain ⟨bound, -⟩ := List.getElem?_eq_some_iff.mp here
  have last : lineStart (text.splitOn '\n') p.line ≤ lineStart (text.splitOn '\n') (text.splitOn '\n').length := by
    apply lineStart_mono
    omega
  rw [lineStart_length] at last
  omega

end Place

/-- A text cut at its line breaks has a place for every index, one index for every place, and the same order
on both. -/
theorem Span.place_unique (source : String) :
    (∀ s : Span, s.offset ≤ source.length →
      (s.place source).Within (source.toList.splitOn '\n') ∧
        s.offset = (s.place source).index (source.toList.splitOn '\n')) ∧
    (∀ s t : Span, s.offset < t.offset → t.offset ≤ source.length →
      (s.place source).Before (t.place source)) ∧
    (∀ p : Place, p.Within (source.toList.splitOn '\n') →
      ∃! o, o ≤ source.length ∧ ∀ length, (Span.mk o length).place source = p) ∧
    ∀ s : Span, source.length < s.offset → s.place source = (Span.mk source.length 0).place source := by
  have marks (s : Span) (inside : s.offset ≤ source.length) :
      (s.place source).Within (source.toList.splitOn '\n') ∧
        s.offset = (s.place source).index (source.toList.splitOn '\n') := by
    apply Place.behind_take
    rwa [String.length_toList]
  refine ⟨marks, ?_, ?_, ?_⟩
  · intro s t less inside
    obtain ⟨within, start⟩ := marks t inside
    obtain ⟨-, start'⟩ := marks s (less.le.trans inside)
    apply within.before_of_index_lt
    omega
  · intro p within
    have inside := within.index_le
    rw [String.length_toList] at inside
    refine ⟨p.index (source.toList.splitOn '\n'), ⟨inside, ?_⟩, ?_⟩
    · intro length
      obtain ⟨within', start⟩ := marks ⟨p.index (source.toList.splitOn '\n'), length⟩ inside
      exact within'.eq_of_index_eq within start.symm
    · rintro o ⟨inside', reached⟩
      have start := (marks ⟨o, 0⟩ inside').2
      rwa [reached 0] at start
  · intro s past
    rw [place, place, List.take_of_length_le, List.take_of_length_le]
    · rw [String.length_toList]
    · rw [String.length_toList]
      exact past.le

theorem Span.place_unique_breaks :
    let source := "ab\n\nλ"
    let lines := source.toList.splitOn '\n'
    (2 < source.length ∧ ((mk 2 1).place source).Within lines ∧ 2 = ((mk 2 1).place source).index lines) ∧
      ((mk 2 1).place source).Before ((mk 5 0).place source) ∧
      ((Place.mk 2 0).Within lines ∧
        ∃! o, o ≤ source.length ∧ ∀ length, (mk o length).place source = ⟨2, 0⟩) ∧
      source.length < 9 ∧ (mk 9 3).place source = (mk source.length 0).place source := by
  intro source lines
  obtain ⟨marks, ordered, unique, past⟩ := place_unique source
  have emptyLine : (Place.mk 2 0).Within lines := ⟨by decide, [], by decide +kernel, by decide⟩
  have length : source.length = 5 := by decide +kernel
  refine ⟨⟨by omega, marks ⟨2, 1⟩ ?_⟩, ordered ⟨2, 1⟩ ⟨5, 0⟩ (by decide) length.ge, ⟨emptyLine, unique _ emptyLine⟩,
    by omega, past ⟨9, 3⟩ ?_⟩
  · rw [length]
    decide
  · rw [length]
    decide

end Hashlang
