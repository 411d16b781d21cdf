import CatalogSync.Text.Loose

/-!
Why a YAML text denotes no value. The loader documents one fault for texts that are no YAML 1.1 and
for tags that it does not construct, which is `malformed` here. What a scalar of a standard tag is
converted by has faults of its own.
-/

namespace CatalogSync.Yaml

/-- The text is no YAML, or something in it is not what its tag or its form says. -/
inductive Refusal where
  | malformed
  /-- Collections stand deeper in one another than is read. -/
  | tooDeep
  /-- An escape names a number that is no code point. -/
  | noCodePoint
  /-- An escape names a number of more than 31 bits. -/
  | escapeTooLarge
  /-- An integer has more digits than are read. -/
  | longInteger (digits : Nat)
  | noInteger (base : Nat) (digits : LooseText)
  | noFloat (text : LooseText)
  /-- A number without any digits. -/
  | noDigits
  /-- A group of a number counts for more than a floating-point number can. -/
  | groupTooLarge
  /-- A truth value by no known word. -/
  | noTruth (word : LooseText)
  /-- A date or time that the calendar and the clock do not have. -/
  | noDate (reason : String)
  /-- A date or time in no known form. -/
  | noTimestamp
  /-- A collection in the place of a date or time. -/
  | noTextForTime
deriving DecidableEq, Repr

/-- The refusal in which a text takes back the characters that were lent to its halves. -/
def Refusal.takeBack (t : LooseText) : Refusal → Refusal
  | .noInteger base digits => .noInteger base (t.takeBack digits.shown.toList)
  | .noFloat text => .noFloat (t.takeBack text.shown.toList)
  | .noTruth word => .noTruth (t.takeBack word.shown.toList)
  | refusal => refusal

/-- A part of a text, which is malformed where the part is not found. -/
def orMalformed {α : Type} : Option α → Except Refusal α
  | some a => .ok a
  | none => .error .malformed

end CatalogSync.Yaml
