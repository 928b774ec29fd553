namespace Hashlang

inductive Numeral where
  | nan
  | infinity (negative : Bool)
  /-- The number `digits * 10 ^ exponent`, negated if `negative`. -/
  | decimal (negative : Bool) (digits : Nat) (exponent : Int)
deriving DecidableEq

namespace Numeral

def ofDigits (ds : List Char) : Nat :=
  ds.foldl (fun n c => 10 * n + (c.toNat - '0'.toNat)) 0

def splitSign : List Char → Bool × List Char
  | '-' :: rest => (true, rest)
  | '+' :: rest => (false, rest)
  | text => (false, text)

def splitFraction : List Char → List Char × List Char
  | '.' :: rest => (rest.takeWhile Char.isDigit, rest.dropWhile Char.isDigit)
  | text => ([], text)

def exponent? : List Char → Option Int
  | [] => some 0
  | mark :: rest =>
    let (negative, digits) := splitSign rest
    if (mark == 'e' || mark == 'E') && !digits.isEmpty && digits.all Char.isDigit then
      some (if negative then -(ofDigits digits : Int) else ofDigits digits)
    else none

def magnitude? (negative : Bool) (text : List Char) : Option Numeral :=
  let whole := text.takeWhile Char.isDigit
  let (fraction, rest) := splitFraction (text.dropWhile Char.isDigit)
  if whole.isEmpty && fraction.isEmpty then none
  else
    (exponent? rest).map fun e =>
      .decimal negative (ofDigits (whole ++ fraction)) (e - fraction.length)

def ofChars? (text : List Char) : Option Numeral :=
  let (negative, unsigned) := splitSign text
  let word := unsigned.map Char.toLower
  if word = "nan".toList then some .nan
  else if word = "inf".toList || word = "infinity".toList then some (.infinity negative)
  else magnitude? negative unsigned

def read? (text : String) : Option Numeral := ofChars? text.toList

def isNaN : Numeral → Bool
  | .nan => true
  | _ => false

def width (n : Nat) : Nat := if n = 0 then 0 else (Nat.toDigits 10 n).length

/-- The double nearest to `digits * 10 ^ exponent`. The position of the first digit tells whether
the number is far outside of the range of doubles, so that no huge power has to be computed. -/
def nearest (digits : Nat) (exponent : Int) : Float :=
  let first := exponent + width digits
  if digits = 0 || first < -330 then 0
  else if 310 < first then 1 / 0
  else Float.ofScientific digits (exponent < 0) exponent.natAbs

def toFloat : Numeral → Float
  | .nan => 0 / 0
  | .infinity negative => if negative then -(1 / 0) else 1 / 0
  | .decimal negative digits exponent =>
    if negative then -(nearest digits exponent) else nearest digits exponent

end Numeral

end Hashlang
