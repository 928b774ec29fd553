import Hashlang.Proofs.Text.Slice

namespace Hashlang

/-- Whether a character begins at the byte with index `i`, or the text ends there. -/
def IsBoundary (source : String) (i : Nat) : Prop :=
  i = source.toByteArray.size ∨
    ∃ inside : i < source.toByteArray.size, source.toByteArray[i].IsUTF8FirstByte

variable {source : String}

theorem isBoundary_iff_isValid {i : Nat} : IsBoundary source i ↔ String.Pos.Raw.IsValid source ⟨i⟩ := by
  rw [String.Pos.Raw.isValid_iff_isUTF8FirstByte]
  apply or_congr
  · rw [String.size_toByteArray, String.Pos.Raw.ext_iff, String.byteIdx_rawEndPos]
  · rfl

theorem exists_pos?_iff {i : Nat} :
    (∃ p : source.Pos, source.pos? ⟨i⟩ = some p ∧ p.offset.byteIdx = i) ↔ IsBoundary source i := by
  rw [isBoundary_iff_isValid]
  constructor
  · rintro ⟨p, -, rfl⟩
    exact p.isValid
  · intro valid
    obtain ⟨first, second, whole, here⟩ := String.Pos.Raw.isValid_iff_exists_append.mp valid
    obtain rfl : i = first.utf8ByteSize := congrArg String.Pos.Raw.byteIdx here
    exact pos?_of_append whole

theorem byteSlice?_isSome {start stop : Nat} (ordered : start ≤ stop) (first : IsBoundary source start)
    (last : IsBoundary source stop) :
    ∃ text, byteSlice? source start stop = some text ∧
      text.toByteArray = source.toByteArray.extract start stop := by
  obtain ⟨p, atP, offsetP⟩ := exists_pos?_iff.mpr first
  obtain ⟨q, atQ, offsetQ⟩ := exists_pos?_iff.mpr last
  have le : p ≤ q := by
    rw [String.Pos.le_iff, String.Pos.Raw.le_iff, offsetP, offsetQ]
    exact ordered
  refine ⟨source.extract p q, ?_, ?_⟩
  · simp only [byteSlice?, atP, atQ, Option.bind_eq_bind, Option.bind_some, le, if_true]
  · rw [String.toByteArray_extract, offsetP, offsetQ]

theorem byteOffset?_of_lt {text : List Char} {k : Nat} (past : text.length < k) : byteOffset? text k = none := by
  induction text generalizing k with
  | nil =>
    cases k with
    | zero => exact absurd past (Nat.lt_irrefl 0)
    | succ k => rfl
  | cons c rest ih =>
    cases k with
    | zero => exact absurd past (Nat.not_lt_zero _)
    | succ k =>
      rw [byteOffset?, ih (Nat.lt_of_succ_lt_succ past)]
      rfl

theorem byteOffset?_eq_some_iff {text : List Char} {k i : Nat} :
    byteOffset? text k = some i ↔ k ≤ text.length ∧ i = (String.ofList (text.take k)).utf8ByteSize := by
  by_cases inside : k ≤ text.length
  · have offset := byteOffset?_length (text.take k) (text.drop k)
    rw [List.take_append_drop, List.length_take_of_le inside] at offset
    rw [offset, Option.some.injEq, and_iff_right inside, eq_comm]
  · rw [byteOffset?_of_lt (Nat.lt_of_not_le inside)]
    simp only [reduceCtorEq, inside, false_and]

theorem isBoundary_of_byteOffset? {k i : Nat} (offset : byteOffset? source.toList k = some i) :
    IsBoundary source i := by
  obtain ⟨-, rfl⟩ := byteOffset?_eq_some_iff.mp offset
  rw [isBoundary_iff_isValid, String.Pos.Raw.isValid_iff_exists_take_toList]
  exact ⟨k, rfl⟩

theorem byteOffset?_mono {text : List Char} {k l i j : Nat} (le : k ≤ l) (first : byteOffset? text k = some i)
    (last : byteOffset? text l = some j) : i ≤ j := by
  obtain ⟨-, rfl⟩ := byteOffset?_eq_some_iff.mp first
  obtain ⟨-, rfl⟩ := byteOffset?_eq_some_iff.mp last
  have parts : text.take l = text.take k ++ (text.take l).drop k := by
    have cut := (List.take_append_drop k (text.take l)).symm
    rwa [List.take_take, Nat.min_eq_left le] at cut
  rw [parts, String.ofList_append, String.utf8ByteSize_append]
  exact Nat.le_add_right ..

namespace Span

theorem text?_of_le {s : Span} (inside : s.offset + s.length ≤ source.length) :
    s.text? source = some (.ofList ((source.toList.drop s.offset).take s.length)) := by
  rw [← String.length_toList] at inside
  have whole : source.toList = source.toList.take s.offset ++
      ((source.toList.drop s.offset).take s.length ++ (source.toList.drop s.offset).drop s.length) := by
    rw [List.take_append_drop, List.take_append_drop]
  have cut := text?_of_append whole
  rw [List.length_take_of_le (by omega), List.length_take_of_le (by rw [List.length_drop]; omega)] at cut
  exact cut

/-- A span that reaches past the end of a text covers nothing of it, and any other one just its characters. What is
cut out between the byte offsets of its first character and of the one behind it is there, since both are
boundaries in order. -/
theorem text?_characters (s : Span) (source : String) :
    (s.text? source = none ↔ source.length < s.offset + s.length) ∧
    (s.offset + s.length ≤ source.length →
      s.text? source = some (.ofList ((source.toList.drop s.offset).take s.length))) ∧
    ∀ start stop, byteOffset? source.toList s.offset = some start →
      byteOffset? source.toList (s.offset + s.length) = some stop →
      IsBoundary source start ∧ IsBoundary source stop ∧ start ≤ stop ∧
        ∃ text, byteSlice? source start stop = some text ∧
          text.toByteArray = source.toByteArray.extract start stop := by
  refine ⟨⟨fun missing => ?_, fun past => ?_⟩, text?_of_le, fun start stop first last => ?_⟩
  · apply Nat.lt_of_not_le
    intro inside
    rw [text?_of_le inside] at missing
    exact nomatch missing
  · rw [← String.length_toList] at past
    rw [text?, stop, byteOffset?_of_lt past]
    cases byteOffset? source.toList s.offset <;> rfl
  · have boundary := isBoundary_of_byteOffset? first
    have boundary' := isBoundary_of_byteOffset? last
    have ordered := byteOffset?_mono (Nat.le_add_right ..) first last
    exact ⟨boundary, boundary', ordered, byteSlice?_isSome ordered boundary boundary'⟩

theorem text?_characters_lambda :
    let source := "(λ x)"
    (1 + 1 ≤ source.length ∧ (mk 1 1).text? source = some (.ofList ['λ'])) ∧
      (byteOffset? source.toList 1 = some 1 ∧ byteOffset? source.toList (1 + 1) = some 3 ∧
        IsBoundary source 1 ∧ IsBoundary source 3 ∧ 1 ≤ 3 ∧
          ∃ text, byteSlice? source 1 3 = some text ∧ text.toByteArray = source.toByteArray.extract 1 3) ∧
      source.length < 4 + 3 ∧ (mk 4 3).text? source = none := by
  intro source
  have length : source.length = 5 := by decide +kernel
  have first : byteOffset? source.toList 1 = some 1 := by decide +kernel
  have last : byteOffset? source.toList (1 + 1) = some 3 := by decide +kernel
  have inside : 1 + 1 ≤ source.length := by omega
  have past : source.length < 4 + 3 := by omega
  have covered : (source.toList.drop 1).take 1 = ['λ'] := by decide +kernel
  have cut : (mk 1 1).text? source = some (.ofList ['λ']) := by
    rw [← covered]
    exact (text?_characters ⟨1, 1⟩ source).2.1 inside
  have boundaries := (text?_characters ⟨1, 1⟩ source).2.2 1 3 first last
  exact ⟨⟨inside, cut⟩, ⟨first, last, boundaries⟩, past, (text?_characters ⟨4, 3⟩ source).1.mpr past⟩

end Span

end Hashlang
