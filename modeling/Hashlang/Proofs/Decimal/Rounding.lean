import Hashlang.Decimal.Numeral

namespace Hashlang

namespace Numeral

open Float.Model (UnpackedFloat Format)
open Float.Model.UnpackedFloat

section

variable {c : Prop} [Decidable c]

theorem isNaN_dite {u : c → UnpackedFloat} {v : ¬ c → UnpackedFloat} (first : ∀ h, (u h).isNaN = false)
    (second : ∀ h, (v h).isNaN = false) : (dite c u v).isNaN = false := by
  by_cases h : c
  · rw [dif_pos h, first]
  · rw [dif_neg h, second]

theorem isNaN_ite {u v : UnpackedFloat} (first : u.isNaN = false) (second : v.isNaN = false) :
    (if c then u else v).isNaN = false := by
  by_cases h : c
  · rw [if_pos h, first]
  · rw [if_neg h, second]

end

theorem isNaN_unpack {f : Format} {word : BitVec f.numBits}
    (real : unpackExponent word ≠ -1#_ ∨ unpackMantissa word = 0#_) : (unpack f word).isNaN = false := by
  delta unpack
  dsimp only
  by_cases full : unpackExponent word = -1#_
  · rcases real with notFull | empty
    · exact absurd full notFull
    · rw [if_pos full, if_pos empty]
      rfl
  rw [if_neg full]
  exact isNaN_ite (isNaN_dite (fun _ => rfl) fun _ => rfl) rfl

theorem isNaN_unpack_packComponents {f : Format} (s : Sign) {exponent : BitVec f.exponentBits}
    {mantissa : BitVec f.mantissaBitsWithoutImplicit} (real : exponent ≠ -1#_ ∨ mantissa = 0#_) :
    (unpack f (packComponents f s exponent mantissa)).isNaN = false := by
  apply isNaN_unpack
  rwa [unpackExponent_packComponents, unpackMantissa_packComponents]

theorem pack_finite (s : Sign) (m : Nat) (e : Int) (positive : 0 < m) :
    pack .binary64 (.finite s m e positive) =
      if 2048 ≤ (e + 1023 + 52).toNat + 1 then packedInfinity .binary64 s
      else if m.log2 + 1 = 53 then
        packComponents .binary64 s (.ofNat 11 (e + 1023 + 52).toNat) (.ofNat 52 m)
      else packComponents .binary64 s 0 (.ofNat 52 m) := rfl

theorem isNaN_unpack_pack {u : UnpackedFloat} (real : u.isNaN = false) :
    (Float.Model.pack u).unpack.isNaN = false := by
  cases u with
  | notANumber => cases real
  | infinity s => exact isNaN_unpack_packComponents s (.inr rfl)
  | zero s => exact isNaN_unpack_packComponents s (.inr rfl)
  | finite s m e positive =>
    show (unpack .binary64 (pack .binary64 (.finite s m e positive))).isNaN = false
    rw [pack_finite]
    split
    · exact isNaN_unpack_packComponents s (.inr rfl)
    rename_i small
    split
    · -- The greatest exponent is that of infinity, and this one is smaller.
      refine isNaN_unpack_packComponents s (.inl fun full => ?_)
      have value := congrArg BitVec.toNat full
      rw [BitVec.toNat_ofNat] at value
      change _ % 2048 = 2047 at value
      omega
    · exact isNaN_unpack_packComponents s (.inl (by decide))

theorem isNaN_roundWithAccuracy (f : Format) (s : Sign) (m : Nat) (e : Int) (a : Accuracy) :
    (roundWithAccuracy f s m e a).isNaN = false := by
  delta roundWithAccuracy
  exact isNaN_dite (fun _ => rfl) fun _ => rfl

section

variable (f : Format) {u : UnpackedFloat} (s : Sign) (m : Nat) (e : Int) (positive : 0 < m)

theorem isNaN_mul_finite (real : u.isNaN = false) : (u.mul f (.finite s m e positive)).isNaN = false := by
  cases u with
  | notANumber => cases real
  | finite => exact isNaN_roundWithAccuracy ..
  | _ => rfl

theorem isNaN_div_finite (real : u.isNaN = false) : (u.div f (.finite s m e positive)).isNaN = false := by
  cases u with
  | notANumber => cases real
  | finite => exact isNaN_roundWithAccuracy ..
  | _ => rfl

end

theorem isNaN_neg {x : Float} (real : x.isNaN = false) : (-x).isNaN = false := by
  apply isNaN_unpack_pack
  change x.toModel.unpack.isNaN = false at real
  generalize x.toModel.unpack = u at real ⊢
  cases u with
  | notANumber => cases real
  | _ => rfl

theorem isNaN_ofInt (f : Format) (n : Int) : (UnpackedFloat.ofInt f n).isNaN = false := by
  delta UnpackedFloat.ofInt UnpackedFloat.normalize
  cases compare n 0 with
  | eq => rfl
  | _ => exact isNaN_roundWithAccuracy ..

theorem isNaN_ofUInt64 (n : UInt64) : n.toFloat.isNaN = false := isNaN_unpack_pack (isNaN_ofInt ..)

theorem isNaN_unpackedScientific (f : Format) (m : Nat) (e : Int) :
    (UnpackedFloat.ofScientific f m e).isNaN = false := by
  delta UnpackedFloat.ofScientific
  refine isNaN_dite (fun _ => rfl) fun _ => isNaN_ite rfl (isNaN_ite rfl (isNaN_ite ?_ ?_))
  · exact isNaN_mul_finite _ _ _ _ _ rfl
  · exact isNaN_div_finite _ _ _ _ _ rfl

theorem unpack_power {power : Float} (member : power ∈ Float.exactlyRepresentablePowersOfTen.toList) :
    ∃ s m e positive, power.toModel.unpack = .finite s m e positive := by
  have finite : (Float.exactlyRepresentablePowersOfTen.toList.all fun power =>
      power.toModel.unpack matches .finite ..) = true := by decide
  have this := List.all_eq_true.mp finite power member
  cases unpacked : power.toModel.unpack with
  | finite s m e positive => exact ⟨s, m, e, positive, rfl⟩
  | _ =>
    rw [unpacked] at this
    cases this

theorem isNaN_ofScientific (m : Nat) (negative : Bool) (e : Nat) :
    (Float.ofScientific m negative e).isNaN = false := by
  delta Float.ofScientific
  split
  case isTrue small =>
    -- Both numbers are exact, and the result is rounded once.
    have bound : e < Float.exactlyRepresentablePowersOfTen.size := Nat.lt_succ_of_le small.2
    obtain ⟨s, n, k, positive, power⟩ := unpack_power (Array.getElem_mem_toList bound)
    have real := isNaN_ofUInt64 m.toUInt64
    dsimp only
    split
    · apply isNaN_unpack_pack
      rw [power]
      exact isNaN_div_finite _ _ _ _ _ real
    · apply isNaN_unpack_pack
      rw [power]
      exact isNaN_mul_finite _ _ _ _ _ real
  case isFalse => exact isNaN_unpack_pack (isNaN_unpackedScientific ..)

theorem isNaN_nearest (digits : Nat) (exponent : Int) : (nearest digits exponent).isNaN = false := by
  have zero : (0 : Float).isNaN = false := rfl
  have infinite : (1 / 0 : Float).isNaN = false := rfl
  unfold nearest
  extract_lets first
  split
  · exact zero
  split
  · exact infinite
  · exact isNaN_ofScientific ..

theorem isNaN_toFloat_decimal (negative : Bool) (digits : Nat) (exponent : Int) :
    (toFloat (.decimal negative digits exponent)).isNaN = false := by
  rw [toFloat]
  cases negative with
  | true => exact isNaN_neg (isNaN_nearest ..)
  | false => exact isNaN_nearest ..

theorem isNaN_toFloat (x : Numeral) : x.toFloat.isNaN = x.isNaN := by
  cases x with
  | nan => rfl
  | infinity negative => cases negative <;> rfl
  | decimal negative digits exponent => exact isNaN_toFloat_decimal ..

theorem beq_self (x : Float) : (x == x) = !x.isNaN := by
  show UnpackedFloat.beq x.toModel.unpack x.toModel.unpack = !x.toModel.unpack.isNaN
  cases x.toModel.unpack with
  | finite s m e positive =>
    have equal : (compare e e).then (compare m m) = .eq := by simp
    cases s with
    | positive => exact beq_iff_eq.mpr (congrArg some equal)
    | negative => exact beq_iff_eq.mpr (congrArg (some ∘ Ordering.swap) equal)
  | infinity s => cases s <;> rfl
  | zero s => cases s <;> rfl
  | notANumber => rfl

end Numeral

end Hashlang
