/-!
Texts as escapes can write them. An escape in JSON or YAML may name half of a surrogate pair by
itself. Such a half is no character and no bytes encode it; a text that holds one is kept as its
code points. Where the characters of such a text have to be looked at, each half is lent a character
that does not occur in the text, and taken back from it afterwards.
-/

namespace CatalogSync

/-- The code point belongs to half of a pair and to no character. -/
def isHalf (code : Nat) : Bool := 0xD800 ≤ code && code < 0xE000

/-- A text, or the code points of one in which halves of surrogate pairs stand. -/
inductive LooseText where
  | text (s : String)
  | broken (codes : List Nat) (halved : codes.any isHalf)
deriving DecidableEq, Repr

instance : Coe String LooseText := ⟨.text⟩

theorem isHalf_toNat (c : Char) : isHalf c.toNat = false := by
  have valid := c.valid
  have same : c.val.toNat = c.toNat := rfl
  simp only [UInt32.isValidChar, Nat.isValidChar, same] at valid
  simp only [isHalf, Bool.and_eq_false_iff, decide_eq_false_iff_not]
  omega

namespace LooseText

def codes : LooseText → List Nat
  | .text s => s.toList.map (·.toNat)
  | .broken codes _ => codes

/-- The text of code points, broken where a half stands among them. -/
def ofCodes (codes : List Nat) : LooseText :=
  if halved : codes.any isHalf then .broken codes halved
  else .text (String.ofList (codes.map Char.ofNat))

/-- Two texts, one after the other. -/
def append : LooseText → LooseText → LooseText
  | .text s, .text t => .text (s ++ t)
  | a, b => ofCodes (a.codes ++ b.codes)

instance : Append LooseText := ⟨append⟩

/-- Texts with a separator between them. -/
def joined (separator : String) : List LooseText → LooseText
  | [] => ""
  | [t] => t
  | t :: next :: rest => t ++ .text separator ++ joined separator (next :: rest)

def text? : LooseText → Option String
  | .text s => some s
  | .broken _ _ => none

def isBroken : LooseText → Bool
  | .text _ => false
  | .broken _ _ => true

/-- The halves, in their order. -/
def halves : LooseText → List Nat
  | .text _ => []
  | .broken codes _ => codes.filter isHalf

/-- Stands for a half where a text is looked at and not written. -/
def replacement : Char := Char.ofNat 0xFFFD

/-- The text with a character in the place of each half. -/
def shownBy (mark : Char) : LooseText → String
  | .text s => s
  | .broken codes _ => String.ofList (codes.map fun n => if isHalf n then mark else Char.ofNat n)

/-- The text with the replacement in the place of each half. -/
def shown (t : LooseText) : String := t.shownBy replacement

theorem any_isHalf_codes (t : LooseText) : t.codes.any isHalf = t.isBroken := by
  cases t with
  | text s => simp [codes, isBroken, isHalf_toNat]
  | broken codes halved => exact halved

theorem ofCodes_codes (t : LooseText) : ofCodes t.codes = t := by
  have same (c : Char) : Char.ofNat c.toNat = c := by simp
  cases t with
  | text s => simp [ofCodes, codes, isHalf_toNat, Function.comp_def]
  | broken codes halved => exact dif_pos halved

theorem isBroken_ofCodes (codes : List Nat) : (ofCodes codes).isBroken = codes.any isHalf := by
  rw [ofCodes]
  split
  next halved => exact halved.symm
  next whole => exact (Bool.eq_false_iff.2 whole).symm

/-- A text that is put together of two is broken where one of them is. -/
@[simp]
theorem isBroken_append (a b : LooseText) : (a ++ b).isBroken = (a.isBroken || b.isBroken) := by
  have hcodes : (ofCodes (a.codes ++ b.codes)).isBroken = (a.isBroken || b.isBroken) := by
    rw [isBroken_ofCodes, List.any_append, any_isHalf_codes, any_isHalf_codes]
  cases a with
  | broken codes halved => exact hcodes
  | text s =>
    cases b with
    | text t => rfl
    | broken codes halved => exact hcodes

@[simp]
theorem isBroken_text (s : String) : (text s).isBroken = false := rfl

theorem isBroken_joined (separator : String) (ts : List LooseText) :
    (joined separator ts).isBroken = ts.any (·.isBroken) := by
  induction ts with
  | nil => rfl
  | cons t rest ih =>
    cases rest with
    | nil => simp [joined]
    | cons next rest => simp [joined, ih]

/-! ## Lent characters -/

/-- Where the characters start that are left to private use and lie past all others. -/
def privateUse : Nat := 0xF0000

/-- The halves of a text with the characters that are lent to them, from among those left to private
use. -/
def lent (codes : List Nat) : List (Nat × Char) :=
  let halves := (codes.filter isHalf).eraseDups
  let taken := (codes.filter (privateUse ≤ ·)).eraseDups
  let free := (List.range' privateUse (halves.length + taken.length)).filter (!taken.contains ·)
  halves.zip (free.map Char.ofNat)

/-- The characters of a text, halves by those that are lent to them. -/
def chars : LooseText → List Char
  | .text s => s.toList
  | .broken codes _ =>
    let legend := lent codes
    codes.map fun n => ((legend.find? (·.1 = n)).map (·.2)).getD (Char.ofNat n)

/-- Takes back the characters that were lent to the halves of a text. -/
def takeBack (t : LooseText) (s : List Char) : LooseText :=
  match t with
  | .text _ => .text (String.ofList s)
  | .broken codes _ =>
    let legend := lent codes
    ofCodes (s.map fun c => ((legend.find? (·.2 = c)).map (·.1)).getD c.toNat)

end LooseText

namespace Text

/-- The halves in a text that keep it from being encoded: where they start, how many follow one
another, and the first of them. -/
structure HalfFault where
  position : Nat
  length : Nat
  first : Nat
deriving DecidableEq, Repr

/-- The escape that writes a half by its number. -/
def halfEscape (half : Nat) : List Char := '\\' :: 'u' :: Nat.toDigits 16 half

def HalfFault.message (f : HalfFault) : String :=
  let last := f.position + f.length - 1
  let place :=
    if f.length = 1 then s!"character '{String.ofList (halfEscape f.first)}' in position {last}"
    else s!"characters in position {f.position}-{last}"
  s!"'utf-8' codec can't encode {place}: surrogates not allowed"

end Text

namespace LooseText

/-- The first halves in a text. -/
def halfFault? (t : LooseText) : Option Text.HalfFault :=
  t.halves.head?.map fun first =>
    let before := (t.codes.takeWhile (!isHalf ·)).length
    ⟨before, ((t.codes.drop before).takeWhile isHalf).length, first⟩

/-- A text is kept from being encoded exactly by halves. -/
theorem isSome_halfFault? (t : LooseText) : t.halfFault?.isSome = t.isBroken := by
  rw [halfFault?, Option.isSome_map]
  cases t with
  | text s => rfl
  | broken codes halved =>
    rw [halves, List.head?_filter, ← any_isHalf_codes]
    exact Bool.eq_iff_iff.2 (by simp [LooseText.codes])

/-- The text with the escape of each half in its place, as the stream for errors takes it. -/
def escaped (t : LooseText) : String :=
  String.ofList (t.codes.flatMap fun n => if isHalf n then Text.halfEscape n else [Char.ofNat n])

/-! ## Texts that are written of others -/

/-- The code points of what is written, halves put where it differs when they are shown by another
character. -/
def putHalves : List Nat → List Char → List Char → List Nat
  | half :: halves, c :: cs, d :: ds =>
    if c = d then c.toNat :: putHalves (half :: halves) cs ds else half :: putHalves halves cs ds
  | _, cs, _ => cs.map (·.toNat)

/-- What is written of parts, when `write` tells how it looks with each half shown by a character.
The halves stand in it in the order of the parts. -/
def written (parts : List LooseText) (write : Char → List Char) : LooseText :=
  ofCodes (putHalves (parts.flatMap (·.halves)) (write '?') (write '!'))

end LooseText

end CatalogSync
