namespace Hashlang

structure Binary64 where
  mantissa : Nat
  exponent : Int
  /-- Whether the gap to the next smaller double is half the gap to the next larger one. -/
  narrowBelow : Bool
deriving DecidableEq

structure Decimal where
  digits : Nat
  exponent : Int
deriving DecidableEq

namespace Binary64

def ofBits (bits : Nat) : Binary64 :=
  let fraction : Nat := bits % Nat.pow 2 52
  let scale : Nat := bits / Nat.pow 2 52 % Nat.pow 2 11
  if scale = 0 then { mantissa := fraction, exponent := -1074, narrowBelow := false }
  else
    { mantissa := fraction + Nat.pow 2 52
      exponent := (scale : Int) - 1075
      narrowBelow := fraction == 0 && 1 < scale }

structure Ratio where
  num : Nat
  den : Nat

def Ratio.scaled (n : Nat) (e : Int) : Ratio :=
  if e < 0 then ⟨n, Nat.pow 2 e.natAbs⟩ else ⟨n * Nat.pow 2 e.natAbs, 1⟩

def Ratio.shift (r : Ratio) (k : Int) : Ratio :=
  if k < 0 then ⟨r.num * Nat.pow 10 k.natAbs, r.den⟩ else ⟨r.num, r.den * Nat.pow 10 k.natAbs⟩

def Ratio.floor (r : Ratio) : Nat := r.num / r.den

def Ratio.compareNat (r : Ratio) (n : Nat) : Ordering := compare r.num (n * r.den)

/-- The value, in quarters of the last binary place. -/
def value (b : Binary64) : Ratio := .scaled (4 * b.mantissa) (b.exponent - 2)

def lower (b : Binary64) : Ratio :=
  .scaled (4 * b.mantissa - if b.narrowBelow then 1 else 2) (b.exponent - 2)

def upper (b : Binary64) : Ratio := .scaled (4 * b.mantissa + 2) (b.exponent - 2)

def covers (b : Binary64) (n : Nat) (k : Int) : Bool :=
  let low := (b.lower.shift k).compareNat n
  let high := (b.upper.shift k).compareNat n
  if b.mantissa % 2 = 0 then low.isLE && high.isGE else low.isLT && high.isGT

/-- The point of the grid of multiples of `10 ^ k` that rounds to `b` and is nearest to it, if there
is one. A tie goes to the larger point. -/
def gridPoint? (b : Binary64) (k : Int) : Option Nat :=
  let exact := b.value.shift k
  let n := exact.floor
  match b.covers n k, b.covers (n + 1) k with
  | true, true =>
    let twice : Ratio := ⟨2 * exact.num, exact.den⟩
    if (twice.compareNat (2 * n + 1)).isLT then some n else some (n + 1)
  | true, false => some n
  | false, true => some (n + 1)
  | false, false => none

def magnitude (b : Binary64) : Int :=
  let bits : Int := b.exponent + Nat.log2 b.mantissa
  let guess : Int := (bits * 30103).fdiv 100000 + 1
  if ((b.value.shift guess).compareNat 1).isLT then guess else guess + 1

def trim : (fuel : Nat) → Decimal → Decimal
  | 0, d => d
  | fuel + 1, d =>
    if d.digits ≠ 0 && d.digits % 10 = 0 then trim fuel ⟨d.digits / 10, d.exponent + 1⟩ else d

/-- The fewest digits that read back to `b`: grids from one to seventeen digits are tried in turn. -/
def shortest (b : Binary64) : Decimal :=
  let top := b.magnitude
  let onGrid (places : Nat) : Option Decimal :=
    let k := top - 1 - (places : Int)
    (b.gridPoint? k).map (Decimal.mk · k)
  match (List.range 17).findSome? onGrid with
  | some d => trim 18 d
  | none => ⟨0, 0⟩

end Binary64

end Hashlang
