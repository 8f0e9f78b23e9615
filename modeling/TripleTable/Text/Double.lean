import TripleTable.Text.Basic
set_option autoImplicit false

/-!
Binary64 numbers as decimal text. Reading gives the number nearest to the text, of two that are
equally near the even one. Writing gives the fewest digits that read back to the number, of those
the nearest to it, always in positional notation.
-/
namespace TripleTable.Text

def scaleBinary (num den : Nat) (shift : Int) : Nat × Nat :=
  if 0 ≤ shift then (num, den * Nat.pow 2 shift.toNat) else (num * Nat.pow 2 (-shift).toNat, den)

def roundQuotient (num den : Nat) : Nat :=
  let q := num / den
  let r := num % den
  if 2 * r < den then q
  else if den < 2 * r then q + 1
  else if q % 2 = 0 then q else q + 1

def infinityBits : Nat := 0x7ff0000000000000

-- The bits of the positive binary64 number nearest to a positive quotient. The significand has
-- 53 bits unless the exponent is the least one; rounding up into the next exponent carries.
def nearestBits (num den : Nat) : Nat :=
  let low : Int := (num.log2 : Int) - den.log2 - 53
  let (n, d) := scaleBinary num den low
  let exponent := max (if Nat.pow 2 53 ≤ n / d then low + 1 else low) (-1074)
  let (n, d) := scaleBinary num den exponent
  min ((exponent + 1074).toNat * Nat.pow 2 52 + roundQuotient n d) infinityBits

-- The bits of the number nearest to `digits * 10 ^ exponent`. Numbers far beyond the greatest or
-- below the least one need no exact computation.
def decimalBits (digits : Nat) (exponent : Int) : Nat :=
  if digits = 0 then 0
  else
    let magnitude := exponent + (ofNat digits).length
    if 400 < magnitude then infinityBits
    else if magnitude < -400 then 0
    else if 0 ≤ exponent then nearestBits (digits * Nat.pow 10 exponent.toNat) 1
    else nearestBits digits (Nat.pow 10 (-exponent).toNat)

def sign : Text → Bool × Text
  | '-' :: s => (true, s)
  | '+' :: s => (false, s)
  | s => (false, s)

def exponent? : Text → Option Int
  | [] => some 0
  | c :: s =>
    if c = 'e' ∨ c = 'E' then
      let (negative, digits) := sign s
      (toNat? digits).map fun n => if negative then -(n : Int) else n
    else none

def magnitudeBits? (s : Text) : Option Nat :=
  let word := asciiLower s
  if word = "inf".toList ∨ word = "infinity".toList then some infinityBits
  else if word = "nan".toList then some 0x7ff8000000000000
  else
    let whole := s.takeWhile Char.isDigit
    let rest := s.dropWhile Char.isDigit
    let (fraction, rest) : Text × Text :=
      match rest with
      | '.' :: more => (more.takeWhile Char.isDigit, more.dropWhile Char.isDigit)
      | _ => ([], rest)
    if whole.isEmpty && fraction.isEmpty then none
    else (exponent? rest).map fun e =>
      decimalBits (digitsToNat (whole ++ fraction)) (e - fraction.length)

def toDouble? (s : Text) : Option Float :=
  let (negative, s) := sign s
  (magnitudeBits? s).map fun bits =>
    Float.ofBits (UInt64.ofNat (if negative then bits + Nat.pow 2 63 else bits))

def decimalFloor (num den : Nat) (unit : Int) : Nat :=
  if 0 ≤ unit then num / (den * Nat.pow 10 unit.toNat) else num * Nat.pow 10 (-unit).toNat / den

def compareDecimal (digits : Nat) (unit : Int) (num den : Nat) : Ordering :=
  if 0 ≤ unit then compare (digits * Nat.pow 10 unit.toNat * den) num
  else compare (digits * den) (num * Nat.pow 10 (-unit).toNat)

structure RoundingInterval where
  low : Nat
  value : Nat
  high : Nat
  den : Nat
  closed : Bool

namespace RoundingInterval

-- Below a power of two the numbers lie twice as close.
def ofBinary (significand : Nat) (exponent : Int) : RoundingInterval :=
  let below := if significand = Nat.pow 2 52 ∧ -1074 < exponent then 1 else 2
  let up := Nat.pow 2 exponent.toNat
  { low := (4 * significand - below) * up
    value := 4 * significand * up
    high := (4 * significand + 2) * up
    den := 4 * Nat.pow 2 (-exponent).toNat
    closed := significand % 2 = 0 }

def contains (i : RoundingInterval) (digits : Nat) (unit : Int) : Bool :=
  let low := compareDecimal digits unit i.low i.den
  let high := compareDecimal digits unit i.high i.den
  if i.closed then low != .lt && high != .gt else low == .gt && high == .lt

-- The nearer of the two neighbours of the value on the grid of `10 ^ unit` that
-- lies in the interval.
def onGrid? (i : RoundingInterval) (unit : Int) : Option Nat :=
  let below := decimalFloor i.value i.den unit
  let above := below + 1
  if i.contains below unit then
    if i.contains above unit ∧
        compareDecimal (below + above) unit (2 * i.value) i.den != .gt then some above
    else some below
  else if i.contains above unit then some above
  else none

def shortestFrom (i : RoundingInterval) (unit : Int) : Nat → Nat × Int
  | 0 => (decimalFloor i.value i.den unit, unit)
  | n + 1 =>
    match i.onGrid? unit with
    | some digits => (digits, unit)
    | none => i.shortestFrom (unit - 1) n

def shortest (i : RoundingInterval) : Nat × Int :=
  let places : Nat := 400
  let leading : Int := (ofNat (decimalFloor i.value i.den (-places))).length - (places : Int)
  i.shortestFrom leading 20

end RoundingInterval

def positional (digits : Nat) (unit : Int) : Text :=
  if 0 ≤ unit then ofNat digits ++ List.replicate unit.toNat '0'
  else
    let places := (-unit).toNat
    let s := ofNat digits
    let s := List.replicate (places + 1 - s.length) '0' ++ s
    s.take (s.length - places) ++ '.' :: s.drop (s.length - places)

def ofDouble (x : Float) : Text :=
  let bits := x.toBits.toNat
  let negative := Nat.pow 2 63 ≤ bits
  let bits := bits % Nat.pow 2 63
  if infinityBits < bits then "NaN"
  else
    let magnitude : Text :=
      if bits = infinityBits then "inf"
      else if bits = 0 then "0"
      else
        let (significand, exponent) : Nat × Int :=
          if bits < Nat.pow 2 52 then (bits, -1074)
          else (bits % Nat.pow 2 52 + Nat.pow 2 52, (bits / Nat.pow 2 52 : Nat) - 1075)
        let (digits, unit) := (RoundingInterval.ofBinary significand exponent).shortest
        positional digits unit
    if negative then '-' :: magnitude else magnitude

end TripleTable.Text
