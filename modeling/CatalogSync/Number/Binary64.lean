/-!
Binary floating-point numbers of 64 bits, as exact values. A finite number is a sign, a significand
below two to the 53 and an exponent of two no less than -1074; the significand is at least two to
the 52 unless the exponent is the least one, so each value has one form. Every operation computes
the exact result as a quotient of natural numbers and rounds once, to the nearest number, a tie
going to the even significand.
-/

namespace CatalogSync

/-- A floating-point number; the finite one is the significand times two to the exponent. -/
inductive Binary64 where
  | finite (negative : Bool) (significand : Nat) (exponent : Int)
  | infinite (negative : Bool)
  | nan
deriving DecidableEq, Repr

/-- The integer nearest to a quotient, a tie going to the even one. -/
def roundDiv (num den : Nat) : Nat :=
  let q := num / den
  let twice := 2 * (num % den)
  if twice < den then q else if den < twice then q + 1 else q + q % 2

/-- Two to a power. -/
def powerOfTwo (n : Nat) : Nat := Nat.pow 2 n

/-- Ten to a power. -/
def powerOfTen (n : Nat) : Nat := Nat.pow 10 n

namespace Binary64

def zero : Binary64 := .finite false 0 (-1074)

/-- The numerator of `num * 2 ^ shift` over the denominator returned with it. -/
def scaled (num den : Nat) (shift : Int) : Nat × Nat :=
  if 0 ≤ shift then (num * powerOfTwo shift.toNat, den)
  else (num, den * powerOfTwo (-shift).toNat)

/-- The number nearest to a quotient of natural numbers. -/
def ofRatio (negative : Bool) (num den : Nat) : Binary64 :=
  if num = 0 ∨ den = 0 then .finite negative 0 (-1074)
  else
    let guess : Int := (Nat.log2 num : Int) - Nat.log2 den - 52
    let (a, b) := scaled num den (-guess)
    let fitted : Int := if a < b * powerOfTwo 52 then guess - 1 else guess
    let exponent : Int := max fitted (-1074)
    let (a, b) := scaled num den (-exponent)
    let significand := roundDiv a b
    let (significand, exponent) :=
      if significand = powerOfTwo 53 then (powerOfTwo 52, exponent + 1)
      else (significand, exponent)
    if 971 < exponent then .infinite negative else .finite negative significand exponent

/-- The number nearest to `digits * 10 ^ exponent`. The magnitudes beyond which it is surely
infinite or zero keep the powers of ten small. -/
def ofDecimal (negative : Bool) (digits : Nat) (exponent : Int) : Binary64 :=
  if digits = 0 then .finite negative 0 (-1074)
  else
    let least : Int := (Nat.log2 digits : Int) * 30 / 100 + exponent
    let most : Int := (Nat.log2 digits + 1 : Int) * 31 / 100 + exponent
    if 400 < least then .infinite negative
    else if most < -400 then .finite negative 0 (-1074)
    else if 0 ≤ exponent then ofRatio negative (digits * powerOfTen exponent.toNat) 1
    else ofRatio negative digits (powerOfTen (-exponent).toNat)

def ofNat (n : Nat) : Binary64 := ofRatio false n 1

/-- A finite number as a numerator over a denominator, its sign left aside. -/
def ratio (significand : Nat) (exponent : Int) : Nat × Nat := scaled significand 1 exponent

/-- A finite number in units of two to the -1074. -/
def units : Binary64 → Int
  | .finite negative significand exponent =>
    let size : Int := significand * powerOfTwo (exponent + 1074).toNat
    if negative then -size else size
  | _ => 0

/-- The number nearest to a count of units of two to the -1074. -/
def ofUnits (n : Int) : Binary64 := ofRatio (n < 0) n.natAbs (powerOfTwo 1074)

def add (x y : Binary64) : Binary64 :=
  match x, y with
  | .nan, _ => .nan
  | _, .nan => .nan
  | .infinite a, .infinite b => if a = b then .infinite a else .nan
  | .infinite a, _ => .infinite a
  | _, .infinite b => .infinite b
  | .finite a 0 _, .finite b 0 _ => .finite (a && b) 0 (-1074)
  | x, y => ofUnits (x.units + y.units)

def neg : Binary64 → Binary64
  | .finite a m e => .finite (!a) m e
  | .infinite a => .infinite (!a)
  | .nan => .nan

def sub (x y : Binary64) : Binary64 := add x y.neg

def mul (x y : Binary64) : Binary64 :=
  match x, y with
  | .nan, _ => .nan
  | _, .nan => .nan
  | .infinite _, .finite _ 0 _ => .nan
  | .finite _ 0 _, .infinite _ => .nan
  | .infinite a, .infinite b => .infinite (a != b)
  | .infinite a, .finite b _ _ => .infinite (a != b)
  | .finite a _ _, .infinite b => .infinite (a != b)
  | .finite a m e, .finite b n f =>
    let (num, den) := scaled (m * n) 1 (e + f)
    ofRatio (a != b) num den

/-- A number without a fraction, as an integer. -/
def toInt? : Binary64 → Option Int
  | .finite negative significand exponent =>
    let (num, den) := ratio significand exponent
    let whole : Nat := num / den
    if num % den = 0 then some (if negative then -whole else whole) else none
  | _ => none

end Binary64

end CatalogSync
