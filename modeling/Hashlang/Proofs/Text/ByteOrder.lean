import Mathlib.Data.String.Basic

namespace Hashlang

def bytes (text : String) : List UInt8 := text.toByteArray.data.toList

theorem bytes_eq_flatMap (text : String) : bytes text = text.toList.flatMap String.utf8EncodeChar := by
  rw [bytes, ← String.utf8Encode_toList, List.utf8Encode, List.toList_data_toByteArray]

theorem utf8EncodeChar_cases (c : Char) :
    (c.toNat ≤ 0x7f ∧ String.utf8EncodeChar c = [.ofNat c.toNat]) ∨
    (0x7f < c.toNat ∧ c.toNat ≤ 0x7ff ∧ String.utf8EncodeChar c =
      [.ofNat (c.toNat / 64 % 0x20 + 0xc0), .ofNat (c.toNat % 0x40 + 0x80)]) ∨
    (0x7ff < c.toNat ∧ c.toNat ≤ 0xffff ∧ String.utf8EncodeChar c =
      [.ofNat (c.toNat / 4096 % 0x10 + 0xe0), .ofNat (c.toNat / 64 % 0x40 + 0x80), .ofNat (c.toNat % 0x40 + 0x80)]) ∨
    (0xffff < c.toNat ∧ c.toNat < 0x110000 ∧ String.utf8EncodeChar c =
      [.ofNat (c.toNat / 262144 % 0x08 + 0xf0), .ofNat (c.toNat / 4096 % 0x40 + 0x80),
        .ofNat (c.toNat / 64 % 0x40 + 0x80), .ofNat (c.toNat % 0x40 + 0x80)]) := by
  have bound : c.toNat < 0x110000 := by
    rcases c.valid with low | ⟨_, high⟩
    · exact low.trans (by decide)
    · exact high
  unfold String.utf8EncodeChar
  simp only [Char.toNat_val]
  split
  · left
    exact ⟨‹_›, rfl⟩
  right
  split
  · left
    exact ⟨by omega, ‹_›, rfl⟩
  right
  split
  · left
    exact ⟨by omega, ‹_›, rfl⟩
  right
  exact ⟨by omega, bound, rfl⟩

theorem cons_lt_cons_of_lt {m n : Nat} (x y : List UInt8) (less : m % 256 < n % 256) :
    UInt8.ofNat m :: x < UInt8.ofNat n :: y := by
  apply List.cons_lt_cons_iff.mpr
  left
  simpa [UInt8.lt_iff_toNat_lt] using less

theorem cons_lt_cons_of_le {m n : Nat} {x y : List UInt8} (le : m % 256 ≤ n % 256)
    (behind : m % 256 = n % 256 → x < y) : UInt8.ofNat m :: x < UInt8.ofNat n :: y := by
  rcases Nat.lt_or_eq_of_le le with less | same
  · exact cons_lt_cons_of_lt x y less
  · apply List.cons_lt_cons_iff.mpr
    right
    refine ⟨UInt8.toNat_inj.mp ?_, behind same⟩
    simpa using same

theorem utf8EncodeChar_lt {c d : Char} (less : c < d) (x y : List UInt8) :
    String.utf8EncodeChar c ++ x < String.utf8EncodeChar d ++ y := by
  have smaller : c.toNat < d.toNat := less
  rcases utf8EncodeChar_cases c with ⟨_, left⟩ | ⟨_, _, left⟩ | ⟨_, _, left⟩ | ⟨_, _, left⟩ <;>
    rcases utf8EncodeChar_cases d with ⟨_, right⟩ | ⟨_, _, right⟩ | ⟨_, _, right⟩ | ⟨_, _, right⟩ <;>
    rw [left, right]
  -- A longer encoding begins with a larger byte.
  case inl.inl | inl.inr.inl | inl.inr.inr.inl | inl.inr.inr.inr | inr.inl.inr.inr.inl | inr.inl.inr.inr.inr |
      inr.inr.inl.inr.inr.inr =>
    exact cons_lt_cons_of_lt _ _ (by omega)
  case inr.inl.inr.inl =>
    apply cons_lt_cons_of_le (by omega)
    intro first
    exact cons_lt_cons_of_lt _ _ (by omega)
  case inr.inr.inl.inr.inr.inl =>
    apply cons_lt_cons_of_le (by omega)
    intro first
    apply cons_lt_cons_of_le (by omega)
    intro second
    exact cons_lt_cons_of_lt _ _ (by omega)
  case inr.inr.inr.inr.inr.inr =>
    apply cons_lt_cons_of_le (by omega)
    intro first
    apply cons_lt_cons_of_le (by omega)
    intro second
    apply cons_lt_cons_of_le (by omega)
    intro third
    exact cons_lt_cons_of_lt _ _ (by omega)
  all_goals omega

theorem flatMap_lt {text text' : List Char} (less : text < text') :
    text.flatMap String.utf8EncodeChar < text'.flatMap String.utf8EncodeChar := by
  induction less with
  | nil =>
    rename_i c rest
    rw [List.flatMap_nil, List.flatMap_cons]
    have present : 0 < (String.utf8EncodeChar c).length := by
      rw [String.length_utf8EncodeChar]
      exact c.utf8Size_pos
    obtain ⟨byte, behind, encoded⟩ := List.exists_cons_of_length_pos present
    rw [encoded]
    exact List.nil_lt_cons ..
  | cons _ ih =>
    rw [List.flatMap_cons, List.flatMap_cons]
    exact List.append_left_lt ih
  | rel first =>
    rw [List.flatMap_cons, List.flatMap_cons]
    exact utf8EncodeChar_lt first _ _

theorem bytes_lt_of_lt {s t : String} (less : s < t) : bytes s < bytes t := by
  rw [bytes_eq_flatMap, bytes_eq_flatMap]
  exact flatMap_lt less

theorem bytes_lt_bytes {s t : String} : bytes s < bytes t ↔ s < t := by
  refine ⟨fun less => ?_, bytes_lt_of_lt⟩
  rcases lt_trichotomy s t with before | rfl | behind
  · exact before
  · exact absurd less (List.lt_irrefl _)
  · exact absurd less (List.lt_asymm (bytes_lt_of_lt behind))

end Hashlang
