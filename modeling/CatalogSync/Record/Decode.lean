import CatalogSync.Json.Value
import CatalogSync.Number.Numeral
import CatalogSync.Record.Validated

/-!
Reading records out of JSON values. Conversions are lenient where a value has one plain meaning:
truth values may be written as numbers or words, integers as texts or as numbers without a
fraction. Texts are never converted. Null stands only where a field may be absent. A text that holds
half of a surrogate pair is refused wherever it would have to be looked at or kept as a plain text.
-/

namespace CatalogSync.Record

/-- A way to read a value of type `α`. -/
abbrev Decoder (α : Type) := Json → Validated α

/-- A text in which halves of surrogate pairs may stand. -/
def looseText : Decoder LooseText
  | .str s => .valid s
  | _ => .fault .stringType

def text : Decoder String
  | .str (.text s) => .valid s
  | .str (.broken _ _) => .fault .stringEncoding
  | _ => .fault .stringType

/-- A text that is not empty. -/
def someText : Decoder String := fun j =>
  (text j).andThen fun s => if s = "" then .fault .stringTooShort else .valid s

/-- The words for true and false, in any ASCII case. -/
def boolWord? (s : String) : Option Bool :=
  let word := s.toLower
  if ["1", "true", "t", "yes", "y", "on"].contains word then some true
  else if ["0", "false", "f", "no", "n", "off"].contains word then some false
  else none

/-- One past the greatest integer of 64 bits; the least one is its opposite. -/
def wordBound : Int := powerOfTwo 63

/-- An integer of 64 bits. -/
def isWord (i : Int) : Bool := -wordBound ≤ i && i < wordBound

/-- The integer that a floating-point number without a fraction is; the least integer of 64 bits and
all beyond it are out of reach. -/
def ofFloat (x : Binary64) : Except FaultKind Int :=
  match x with
  | .finite _ _ _ =>
    match x.toInt? with
    | some i => if -wordBound < i ∧ i < wordBound then .ok i else .error .intSize
    | none => .error .intFromFraction
  | _ => .error .notFinite

/-- A truth value as a number. -/
def boolOfInt (i : Int) : Validated Bool :=
  if i = 0 then .valid false else if i = 1 then .valid true else .fault .boolParsing

def bool : Decoder Bool
  | .bool b => .valid b
  | .int i => if isWord i then boolOfInt i else .fault .boolType
  | .float x =>
    match ofFloat x with
    | .ok i => boolOfInt i
    | .error _ => .fault .boolType
  | .str (.text s) =>
    match boolWord? s with
    | some b => .valid b
    | none => .fault .boolParsing
  | .str (.broken _ _) => .fault .stringEncoding
  | _ => .fault .boolType

def int : Decoder Int
  | .int i => .valid i
  | .bool b => .valid (if b then 1 else 0)
  | .float x =>
    match ofFloat x with
    | .ok i => .valid i
    | .error kind => .fault kind
  | .str (.text s) =>
    match Numeral.read s.toList with
    | .ok i => .valid i
    | .error .malformed => .fault .intParsing
    | .error .tooLong => .fault .intSize
  | .str (.broken _ _) => .fault .stringEncoding
  | _ => .fault .intType

/-- An integer that is not negative. -/
def nat : Decoder Nat := fun j =>
  (int j).andThen fun i => if i < 0 then .fault .tooSmall else .valid i.toNat

/-- A value that null stands for the absence of. -/
def nullable {α : Type} (decoder : Decoder α) : Decoder (Option α)
  | .null => .valid none
  | j => (decoder j).map some

/-- The items of a list, each read alike. -/
def items {α : Type} (decoder : Decoder α) (first : Nat) : List Json → List (Validated α)
  | [] => []
  | j :: rest => (decoder j).under (.index first) :: items decoder (first + 1) rest

def list {α : Type} (decoder : Decoder α) : Decoder (List α)
  | .arr js => .sequence (items decoder 0 js)
  | _ => .fault .listType

/-- Refuses a list that is empty. -/
def someItems {α : Type} (items : List α) : Validated (List α) :=
  if items.isEmpty then .fault .listTooShort else .valid items

/-- A list that is not empty. -/
def someList {α : Type} (decoder : Decoder α) : Decoder (List α) := fun j =>
  (list decoder j).andThen someItems

/-- One of a fixed set of words. -/
def choice {α : Type} (ofWord? : String → Option α) : Decoder α
  | .str (.text s) =>
    match ofWord? s with
    | some a => .valid a
    | none => .fault .notInEnumeration
  | .str (.broken _ _) => .fault .stringEncoding
  | _ => .fault .notInEnumeration

/-- One fixed word. -/
def literal (word : String) : Decoder Unit
  | .str (.text s) => if s = word then .valid () else .fault .notTheLiteral
  | .str (.broken _ _) => .fault .stringEncoding
  | _ => .fault .notTheLiteral

/-- A field that must be there. -/
def required {α : Type} (members : List (LooseText × Json)) (name : String)
    (decoder : Decoder α) : Validated α :=
  match Json.lookup? members name with
  | some j => (decoder j).under (.name name)
  | none => .invalid [⟨[.name name], .missing⟩]

/-- A field with a default. -/
def optional {α : Type} (members : List (LooseText × Json)) (name : String) (default : α)
    (decoder : Decoder α) : Validated α :=
  match Json.lookup? members name with
  | some j => (decoder j).under (.name name)
  | none => .valid default

theorem someText_text {s : String} (h : s ≠ "") : someText (.str (.text s)) = .valid s := by
  simp [someText, text, Validated.andThen, h]

/-- Checks the text that is to become a field. -/
def checked {α : Type} (name : String) (decoder : Decoder α) (value : LooseText) : Validated α :=
  (decoder (.str value)).under (.name name)

/-- Exactly a text without halves that is not empty passes for one. -/
theorem checked_someText_eq_valid_iff {name s : String} {value : LooseText} :
    checked name someText value = .valid s ↔ value = .text s ∧ s ≠ "" := by
  cases value with
  | broken codes halved =>
    simp [checked, someText, text, Validated.andThen, Validated.fault, Validated.under]
  | text t =>
    by_cases ht : t = ""
    · subst ht
      simp only [checked, someText, text, Validated.andThen, if_true, Validated.fault,
        Validated.under, reduceCtorEq, LooseText.text.injEq, false_iff, not_and]
      rintro rfl h
      exact h rfl
    · rw [checked, someText_text ht]
      simp only [Validated.under, Validated.valid.injEq, LooseText.text.injEq]
      constructor
      · rintro rfl
        exact ⟨rfl, ht⟩
      · exact And.left

theorem checked_someText_text {name s : String} (h : s ≠ "") : checked name someText s = .valid s :=
  checked_someText_eq_valid_iff.2 ⟨rfl, h⟩

/-- The fault of a name that a closed record does not know. -/
def unknownName (name : String) : FieldFault := ⟨[.name name], .unknownField⟩

/-- Closes a record whose names are at fault. A name that cannot be encoded is a fault of the whole
record, beside which no other counts but a rule whose wording cannot be encoded. -/
def closeAgainst {α : Type} (hasBrokenName : Bool) (faults : List FieldFault) (x : Validated α) :
    Validated α :=
  if x.faults.any fun f => f.kind.halfFault?.isSome then x
  else if hasBrokenName then .fault .stringEncoding
  else x.withFaults faults

/-- A record that knows exactly the given fields. -/
def closed {α : Type} (known : List String) (fields : List (LooseText × Json) → Validated α) :
    Decoder α
  | .obj members =>
    let names := members.map (·.1)
    let unknown := (names.filterMap (·.text?)).filter (!known.contains ·)
    closeAgainst (names.any (·.isBroken)) (unknown.map unknownName) (fields members)
  | _ => .fault .recordType

/-- A record that passes over fields it does not know. -/
def extensible {α : Type} (fields : List (LooseText × Json) → Validated α) : Decoder α
  | .obj members => fields members
  | _ => .fault .recordType

end CatalogSync.Record
