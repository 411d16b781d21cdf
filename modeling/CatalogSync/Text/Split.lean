/-!
Cutting a text at fixed marks and putting pieces back together.
-/

namespace CatalogSync.Text

/-- What follows `mark` in a text that starts with it. -/
def after? : List Char → List Char → Option (List Char)
  | [], s => some s
  | _ :: _, [] => none
  | c :: mark, d :: s => if c = d then after? mark s else none

theorem after?_eq_some_iff {mark s rest : List Char} :
    after? mark s = some rest ↔ s = mark ++ rest := by
  induction mark generalizing s with
  | nil => simp [after?, eq_comm]
  | cons c mark ih =>
    cases s with
    | nil => simp [after?]
    | cons d s => by_cases h : c = d <;> simp [after?, h, ih, eq_comm]

/-- The text starts with `mark`. -/
def startsWith (mark s : List Char) : Bool := (after? mark s).isSome

/-- `mark` occurs in the text. -/
def contains (mark : List Char) : List Char → Bool
  | [] => mark.isEmpty
  | c :: rest => startsWith mark (c :: rest) || contains mark rest

/-- The pieces of a text between the occurrences of a mark, read from the left; `skip` counts the
characters of an occurrence that are still to be passed over. -/
def splitFrom (mark : List Char) : Nat → List Char → List (List Char)
  | _, [] => [[]]
  | skip + 1, _ :: rest => splitFrom mark skip rest
  | 0, c :: rest =>
    if startsWith mark (c :: rest) then [] :: splitFrom mark (mark.length - 1) rest
    else match splitFrom mark 0 rest with
      | [] => [[c]]
      | first :: others => (c :: first) :: others

/-- The pieces of a text between the occurrences of a non-empty mark. -/
def splitOn (mark s : List Char) : List (List Char) := splitFrom mark 0 s

/-- A text cut in two at the first occurrence of a character, which is left out. -/
def cutAt? (mark : Char) : List Char → Option (List Char × List Char)
  | [] => none
  | c :: rest =>
    if c = mark then some ([], rest) else (cutAt? mark rest).map fun p => (c :: p.1, p.2)

/-- The pieces with a separator between neighbours. -/
def joined (separator : List Char) : List (List Char) → List Char
  | [] => []
  | [piece] => piece
  | piece :: next :: rest => piece ++ separator ++ joined separator (next :: rest)

/-- A text filled up with spaces to a width. -/
def padRight (width : Nat) (s : List Char) : List Char :=
  s ++ List.replicate (width - s.length) ' '

/-- A text filled up in front to a width. -/
def padLeft (fill : Char) (width : Nat) (s : List Char) : List Char :=
  List.replicate (width - s.length) fill ++ s

/-- A text with every occurrence of a mark, read from the left, taken out. -/
def remove (mark s : List Char) : List Char := (splitOn mark s).flatten

theorem startsWith_iff {mark s : List Char} :
    startsWith mark s = true ↔ ∃ rest, s = mark ++ rest := by
  simp [startsWith, Option.isSome_iff_exists, after?_eq_some_iff]

theorem cutAt?_eq_some {mark : Char} {s before rest : List Char}
    (h : cutAt? mark s = some (before, rest)) : s = before ++ mark :: rest ∧ mark ∉ before := by
  induction s generalizing before with
  | nil => simp [cutAt?] at h
  | cons c s ih =>
    by_cases hc : c = mark
    · simp [cutAt?, hc] at h
      simp [h, hc]
    · simp only [cutAt?, hc, if_false, Option.map_eq_some_iff] at h
      obtain ⟨⟨b, r⟩, hp, he⟩ := h
      simp only [Prod.mk.injEq] at he
      obtain ⟨rfl, rfl⟩ := he
      obtain ⟨rfl, hb⟩ := ih hp
      simp [hb, Ne.symm hc]

end CatalogSync.Text
