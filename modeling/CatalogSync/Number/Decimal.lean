import CatalogSync.Number.Binary64

/-!
Decimal texts of floating-point numbers. The default text has the fewest digits that read back as
the same number and, of those, the digits nearest to it; it is positional from 0.0001 up to ten to
the 16 and keeps a fraction. The other text has a fixed number of places, the exact value rounded
to the nearest, a tie going to the even digit.
-/

namespace CatalogSync.Binary64

/-- The decimal digits of a natural number. -/
def digits (n : Nat) : List Char := (toString n).toList

/-- The largest power of ten, up to a bound, that a quotient reaches. -/
def decimalExponent (num den : Nat) : Int :=
  if den ≤ num then ((digits (num / den)).length : Int) - 1
  else -(firstReach num den 400 : Int)
where
  /-- The least power of ten that lifts a quotient below one to one or above. -/
  firstReach (num den : Nat) : Nat → Nat
    | 0 => 0
    | fuel + 1 => if den ≤ num * 10 then 1 else 1 + firstReach (num * 10) den fuel

/-- Reads back as the number with this significand and exponent: the decimal `d * 10 ^ e` lies
between the middles to the two neighbours, on a middle only if the significand is even. -/
def readsBack (significand : Nat) (exponent : Int) (d : Nat) (e : Int) : Bool :=
  let quarter : Int := exponent - 2
  let isLeast : Bool := significand = powerOfTwo 52 ∧ exponent ≠ -1074
  let below := if isLeast then 4 * significand - 1 else 4 * significand - 2
  let above := 4 * significand + 2
  let (num, den) := if 0 ≤ e then (d * powerOfTen e.toNat, 1) else (d, powerOfTen (-e).toNat)
  let (num, den) := scaled num den (-quarter)
  if significand % 2 = 0 then below * den ≤ num && num ≤ above * den
  else below * den < num && num < above * den

/-- The two neighbours of a quotient on the grid of multiples of `10 ^ e`, the nearer first; of
two as near, the even one. -/
def gridNeighbours (num den : Nat) (e : Int) : Nat × Nat :=
  let (num, den) := if 0 ≤ e then (num, den * powerOfTen e.toNat)
    else (num * powerOfTen (-e).toNat, den)
  let near := roundDiv num den
  let low := num / den
  (near, if near = low then low + 1 else low)

/-- The shortest decimal that reads back, as digits and a power of ten. -/
def shortest (significand : Nat) (exponent : Int) : Nat × Int :=
  let (num, den) := ratio significand exponent
  let top := decimalExponent num den
  search num den top 17
where
  /-- Tries one digit more than the last time, seventeen at the most. -/
  search (num den : Nat) (top : Int) : Nat → Nat × Int
    | 0 => ((gridNeighbours num den (top - 16)).1, top - 16)
    | left + 1 =>
      let e := top - (16 - left : Nat)
      let (near, far) := gridNeighbours num den e
      if readsBack significand exponent near e then (near, e)
      else if readsBack significand exponent far e then (far, e)
      else search num den top left

/-- A sign in front of the texts of negative numbers. -/
def signed (negative : Bool) (s : String) : String := if negative then "-" ++ s else s

/-- The digits of a decimal without the zeros at its end, and its power of ten moved along. -/
def withoutZeros (d : Nat) (e : Int) : Nat → Nat × Int
  | 0 => (d, e)
  | fuel + 1 => if d % 10 = 0 ∧ d ≠ 0 then withoutZeros (d / 10) (e + 1) fuel else (d, e)

/-- The text of the decimal `d * 10 ^ e`. -/
def layout (d : Nat) (e : Int) : String :=
  let (d, e) := withoutZeros d e 20
  let ds := digits d
  let point : Int := ds.length + e
  if -4 < point ∧ point ≤ 16 then
    if point ≤ 0 then "0." ++ String.ofList (List.replicate (-point).toNat '0' ++ ds)
    else if ds.length ≤ point.toNat then
      String.ofList (ds ++ List.replicate (point.toNat - ds.length) '0') ++ ".0"
    else String.ofList (ds.take point.toNat) ++ "." ++ String.ofList (ds.drop point.toNat)
  else
    let power := (point - 1).natAbs
    String.ofList (ds.take 1)
      ++ (if ds.length = 1 then "" else "." ++ String.ofList (ds.drop 1))
      ++ (if point - 1 < 0 then "e-" else "e+")
      ++ (if power < 10 then "0" else "") ++ toString power

/-- The default text of a number. -/
def toText : Binary64 → String
  | .nan => "nan"
  | .infinite negative => signed negative "inf"
  | .finite negative 0 _ => signed negative "0.0"
  | .finite negative significand exponent =>
    let (d, e) := shortest significand exponent
    signed negative (layout d e)

/-- The text of a number with a fixed number of places after the point. -/
def toFixed (places : Nat) : Binary64 → String
  | .nan => "nan"
  | .infinite negative => signed negative "inf"
  | .finite negative significand exponent =>
    let (num, den) := ratio significand exponent
    let n := roundDiv (num * powerOfTen places) den
    let ds := digits n
    let ds := List.replicate (places + 1 - ds.length) '0' ++ ds
    let whole := ds.take (ds.length - places)
    let fraction := ds.drop (ds.length - places)
    let tail := if places = 0 then "" else "." ++ String.ofList fraction
    signed negative (String.ofList whole ++ tail)

end CatalogSync.Binary64
