import Hashlang.Decimal.Shortest

namespace Hashlang

structure Notation where
  positions : Option (Int × Int)
  pointZero : Bool
deriving DecidableEq

namespace Notation

def positional : Notation where
  positions := none
  pointZero := false

/-- Positions from `0.0001` to below `10 ^ 16`, an exponent elsewhere. -/
def scientific : Notation where
  positions := some (-4, 15)
  pointZero := true

def zeros (n : Nat) : String := String.ofList (List.replicate n '0')

def placed (n : Notation) (d : Decimal) : String :=
  let digits := toString d.digits
  let whole := if n.pointZero then ".0" else ""
  if 0 ≤ d.exponent then digits ++ zeros d.exponent.natAbs ++ whole
  else
    let point := digits.length - d.exponent.natAbs
    if point = 0 then "0." ++ zeros (d.exponent.natAbs - digits.length) ++ digits
    else
      String.ofList (digits.toList.take point) ++ "." ++ String.ofList (digits.toList.drop point)

def powered (d : Decimal) : String :=
  let digits := (toString d.digits).toList
  let exponent := d.exponent + digits.length - 1
  let fraction := if digits.length = 1 then "" else "." ++ String.ofList (digits.drop 1)
  String.ofList (digits.take 1) ++ fraction ++ "e" ++ toString exponent

def decimal (n : Notation) (d : Decimal) : String :=
  let first := d.exponent + (toString d.digits).length - 1
  match n.positions with
  | none => n.placed d
  | some (low, high) => if low ≤ first && first ≤ high then n.placed d else powered d

def write (n : Notation) (x : Float) : String :=
  if x.isNaN then "NaN"
  else
    let bits := x.toBits.toNat
    let sign := if bits < Nat.pow 2 63 then "" else "-"
    let magnitude := bits % Nat.pow 2 63
    let text :=
      if magnitude = 0 then if n.pointZero then "0.0" else "0"
      else if x.isInf then "inf"
      else n.decimal (Binary64.ofBits magnitude).shortest
    sign ++ text

end Notation

end Hashlang
