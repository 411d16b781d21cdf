import CatalogSync.Json.Value
import CatalogSync.Number.Decimal
import CatalogSync.Text.Quoted

/-!
Values inside other texts. A value stands on one line there: a string as it is, a number by its digits,
and a list or an object in brackets with the strings inside it in quotes. Beside it, when two values count
as the same: numbers by what they are worth, truth values as one and nought, and objects whatever the
order of their members. Names and addresses stand so in what is shown of records whose fields may hold any
value.
-/

namespace CatalogSync.Json

mutual

/-- A value inside a list or an object. -/
def quoted : Json → List Char
  | .null => "None".toList
  | .bool b => (if b then "True" else "False").toList
  | .int i => (toString i).toList
  | .float x => x.toText.toList
  | .str s => Text.quotedLoose s
  | .arr items => '[' :: quotedItems items ++ [']']
  | .obj members => '{' :: quotedMembers members ++ ['}']

/-- Values with commas between them. -/
def quotedItems : List Json → List Char
  | [] => []
  | [item] => quoted item
  | item :: next :: rest => quoted item ++ [',', ' '] ++ quotedItems (next :: rest)

/-- Named values with commas between them. -/
def quotedMembers : List (LooseText × Json) → List Char
  | [] => []
  | [(name, item)] => Text.quotedLoose name ++ [':', ' '] ++ quoted item
  | (name, item) :: next :: rest =>
    Text.quotedLoose name ++ [':', ' '] ++ quoted item ++ [',', ' '] ++ quotedMembers (next :: rest)

end

/-- A value inside a text. -/
def inline : Json → LooseText
  | .str s => s
  | j => .text (String.ofList j.quoted)

/-- A value inside a text, as it is shown. -/
def shown (j : Json) : String := j.inline.shown

theorem shown_text (s : String) : shown (.str (.text s)) = s := rfl

theorem shown_int (i : Int) : shown (.int i) = toString i := by
  simp [shown, inline, quoted, LooseText.shown, LooseText.shownBy]

/-- The integer that a value is worth. -/
def worth? : Json → Option Int
  | .bool b => some (if b then 1 else 0)
  | .int i => some i
  | .float x => x.toInt?
  | _ => none

/-- Two values that are neither lists nor objects are the same. -/
def sameScalar (j k : Json) : Bool :=
  match j.worth?, k.worth? with
  | some m, some n => m = n
  | none, none =>
    match j, k with
    | .null, .null => true
    | .float .nan, _ => false
    | .float x, .float y => x = y
    | .str s, .str t => s = t
    | _, _ => false
  | _, _ => false

mutual

/-- Two values are the same. -/
def same : Json → Json → Bool
  | .arr items, .arr others => sameItems items others
  | .obj members, .obj others =>
    members.length == others.length && sameMembers members others
  | j, k => sameScalar j k

/-- The values of two lists are the same, one by one. -/
def sameItems : List Json → List Json → Bool
  | [], [] => true
  | j :: rest, k :: others => same j k && sameItems rest others
  | _, _ => false

/-- Each of some named values is the same as the value of its name among others. -/
def sameMembers : List (LooseText × Json) → List (LooseText × Json) → Bool
  | [], _ => true
  | (name, j) :: rest, others =>
    (match lookup? others name with
      | some k => same j k
      | none => false) && sameMembers rest others

end

end CatalogSync.Json
