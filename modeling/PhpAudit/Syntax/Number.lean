/-
This file reads number literals: integers of 64 bits in four radices, and decimal floats.
-/

import PhpAudit.Text.Basic

namespace PhpAudit.Number

/-! ### Integers -/

/-- The value of a digit in a radix up to 16. -/
def digit? (radix : Nat) (char : Char) : Option Nat :=
  let value? :=
    if '0' ≤ char ∧ char ≤ '9' then some (char.toNat - '0'.toNat)
    else if 'a' ≤ char ∧ char ≤ 'f' then some (char.toNat - 'a'.toNat + 10)
    else if 'A' ≤ char ∧ char ≤ 'F' then some (char.toNat - 'A'.toNat + 10)
    else none
  value?.filter (· < radix)

/-- The value of digits that follow a number with value `high`. -/
def digits? (radix : Nat) : Nat → List Char → Option Nat
  | high, [] => some high
  | high, char :: rest => (digit? radix char).bind fun low => digits? radix (high * radix + low) rest

/-- The value of a non-empty row of digits. -/
def natural? (radix : Nat) : List Char → Option Nat
  | [] => none
  | chars => digits? radix 0 chars

/-- An integer that fits 64 bits. -/
def fit? (value : Int) : Option Int64 :=
  if Int64.minValue.toInt ≤ value ∧ value ≤ Int64.maxValue.toInt then some (Int64.ofInt value)
  else none

/-- A signed integer of 64 bits; there is none if the value does not fit. -/
def integer? (radix : Nat) : List Char → Option Int64
  | '-' :: rest => (natural? radix rest).bind fun value => fit? (-(value : Int))
  | '+' :: rest => (natural? radix rest).bind fun value => fit? value
  | chars => (natural? radix chars).bind fun value => fit? value

/-! ### Floats -/

/--
The float nearest to `mantissa` times a power of ten. Values beyond the range of floats are settled
by their number of digits alone.
-/
def scale (mantissa : Nat) (exponent : Int) : Float :=
  let magnitude := exponent + (toString mantissa).length
  if mantissa == 0 || magnitude < -400 then 0.0
  else if 400 < magnitude then Float.ofBits 0x7FF0000000000000
  else if 0 ≤ exponent then Float.ofScientific (mantissa * Nat.pow 10 exponent.toNat) false 0
  else Float.ofScientific mantissa true (-exponent).toNat

/-- The exponent after the digits of a float, zero if there is none. -/
def exponent? : List Char → Option Int
  | [] => some 0
  | mark :: rest =>
    if mark == 'e' || mark == 'E' then
      match rest with
      | '-' :: digits => (natural? 10 digits).map fun value => -(value : Int)
      | '+' :: digits => (natural? 10 digits).map fun value => (value : Int)
      | digits => (natural? 10 digits).map fun value => (value : Int)
    else
      none

/-- A decimal float without its sign: digits, a point among or beside them, an exponent. -/
def unsigned? (chars : List Char) : Option Float :=
  let whole := chars.takeWhile Char.isDigit
  let afterWhole := chars.dropWhile Char.isDigit
  let (fraction, rest) := match afterWhole with
    | '.' :: rest => (rest.takeWhile Char.isDigit, rest.dropWhile Char.isDigit)
    | rest => ([], rest)
  do
    let mantissa ← natural? 10 (whole ++ fraction)
    let exponent ← exponent? rest
    return scale mantissa (exponent - fraction.length)

/-- A decimal float, or one of the names of the values that have no digits. -/
def float? (text : String) : Option Float :=
  let (negative, chars) := match text.toList with
    | '-' :: rest => (true, rest)
    | '+' :: rest => (false, rest)
    | chars => (false, chars)
  let value? := match Text.lower (String.ofList chars) with
    | "inf" | "infinity" => some (Float.ofBits 0x7FF0000000000000)
    | "nan" => some (Float.ofBits 0x7FF8000000000000)
    | _ => unsigned? chars
  value?.map fun value => if negative then -value else value

end PhpAudit.Number
