import Hashlang.Text.Span

namespace Hashlang

theorem byteOffset?_length (before after : List Char) :
    byteOffset? (before ++ after) before.length = some (String.ofList before).utf8ByteSize := by
  induction before with
  | nil => rw [List.nil_append, List.length_nil, byteOffset?]; rfl
  | cons c rest ih =>
    have size : (String.ofList (c :: rest)).utf8ByteSize =
        c.utf8Size + (String.ofList rest).utf8ByteSize := by
      rw [← List.singleton_append, String.ofList_append, String.utf8ByteSize_append,
        ← String.singleton_eq_ofList, String.utf8ByteSize_singleton]
    rw [List.cons_append, List.length_cons, byteOffset?, ih, size]
    rfl

theorem pos?_of_append {source first second : String} (whole : source = first ++ second) :
    ∃ p : source.Pos, source.pos? ⟨first.utf8ByteSize⟩ = some p ∧ p.offset.byteIdx = first.utf8ByteSize := by
  have valid : String.Pos.Raw.IsValid source ⟨first.utf8ByteSize⟩ :=
    String.Pos.Raw.isValid_iff_exists_append.mpr ⟨first, second, whole, rfl⟩
  have inSlice : String.Pos.Raw.isValidForSlice source.toSlice ⟨first.utf8ByteSize⟩ = true :=
    String.Pos.Raw.isValidForSlice_eq_true_iff.mpr valid.toSlice
  refine ⟨source.pos ⟨first.utf8ByteSize⟩ valid, ?_, rfl⟩
  simp only [String.pos?, String.Slice.pos?, inSlice, dif_pos, Option.map_some]
  rfl

theorem byteSlice?_of_append {source first middle last : String}
    (whole : source = first ++ (middle ++ last)) :
    byteSlice? source first.utf8ByteSize (first ++ middle).utf8ByteSize = some middle := by
  obtain ⟨p, atP, offsetP⟩ := pos?_of_append whole
  obtain ⟨q, atQ, offsetQ⟩ := pos?_of_append (whole.trans (String.append_assoc ..).symm)
  have ordered : p ≤ q := by
    rw [String.Pos.le_iff, String.Pos.Raw.le_iff, offsetP, offsetQ, String.utf8ByteSize_append]
    omega
  -- Strings are equal if their bytes are.
  have cut : source.extract p q = middle := by
    apply String.toByteArray_inj.mp
    rw [String.toByteArray_extract, offsetP, offsetQ, whole, ← String.append_assoc,
      ← String.size_toByteArray, ← String.size_toByteArray, String.toByteArray_append,
      ByteArray.extract_append_size_left, String.toByteArray_append]
    exact ByteArray.extract_append_eq_right rfl ByteArray.size_append
  simp only [byteSlice?, atP, atQ, Option.bind_eq_bind, Option.bind_some, ordered, if_true, cut]

theorem Span.text?_of_append {source : String} {before text after : List Char}
    (whole : source.toList = before ++ (text ++ after)) :
    (Span.mk before.length text.length).text? source = some (String.ofList text) := by
  have start := byteOffset?_length before (text ++ after)
  have stop := byteOffset?_length (before ++ text) after
  rw [List.append_assoc, List.length_append] at stop
  have joined : source = String.ofList before ++ (String.ofList text ++ String.ofList after) := by
    rw [← String.ofList_append, ← String.ofList_append, ← whole, String.ofList_toList]
  simp only [Span.text?, Span.stop, whole, start, stop, Option.bind_eq_bind, Option.bind_some]
  rw [String.ofList_append]
  exact byteSlice?_of_append joined

end Hashlang
