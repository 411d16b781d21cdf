/-!
White space, and the trimming and splitting that go by it. White space is the whole class of
blanks, separators of lines and separators of records; the zero-width space is no member.
-/

namespace CatalogSync.Text

/-- A character that trimming removes and that ends a word. -/
def isBlank (c : Char) : Bool :=
  let n := c.toNat
  (0x09 ≤ n && n ≤ 0x0D) || (0x1C ≤ n && n ≤ 0x20) || n == 0x85 || n == 0xA0 || n == 0x1680
    || (0x2000 ≤ n && n ≤ 0x200A) || n == 0x2028 || n == 0x2029 || n == 0x202F || n == 0x205F
    || n == 0x3000

theorem isBlank_space : isBlank ' ' = true := rfl

/-- The elements up to the last one that fails the test. -/
def dropTrailing {α : Type} (p : α → Bool) : List α → List α
  | [] => []
  | a :: rest =>
    match dropTrailing p rest with
    | [] => if p a then [] else [a]
    | kept => a :: kept

/-- A text without the white space it starts with. -/
def trimLeft (s : List Char) : List Char := s.dropWhile isBlank

/-- A text without the white space it ends with. -/
def trimRight (s : List Char) : List Char := dropTrailing isBlank s

/-- A text without the white space around it. -/
def trim (s : List Char) : List Char := trimRight (trimLeft s)

/-- The stretches between the elements that pass the test, empty ones included. -/
def cutWhere {α : Type} (p : α → Bool) : List α → List (List α)
  | [] => [[]]
  | a :: rest =>
    if p a then [] :: cutWhere p rest
    else match cutWhere p rest with
      | [] => [[a]]
      | first :: others => (a :: first) :: others

/-- The words of a text: the longest stretches free of white space. -/
def words (s : List Char) : List (List Char) := (cutWhere isBlank s).filter (!·.isEmpty)

theorem cutWhere_ne_nil {α : Type} (p : α → Bool) (s : List α) : cutWhere p s ≠ [] := by
  cases s with
  | nil => simp [cutWhere]
  | cons a rest =>
    rw [cutWhere]
    split
    · simp
    · split <;> simp

end CatalogSync.Text
