/-!
The room that the program is run in. How deep it may go into what it reads, how many directories it
may make for one path and how far it may fill up a text are up to what it is run on, and no part of
it. It is told what the program does in any room that suffices for what it writes itself.
-/

namespace CatalogSync

/-- The room that the program is run in. -/
class Room where
  /-- How many arrays and objects of a JSON text may be open one inside another. -/
  json : Nat
  /-- How many collections of a YAML text may be open one inside another. -/
  yaml : Nat
  /-- The most directories that are made for one path. -/
  directories : Nat
  /-- The number of characters from which on no text is filled up. -/
  width : Nat
  /-- The file of the registry, with its entries and their files, can be read. -/
  json_ge : 4 ≤ json
  directories_pos : 0 < directories
  /-- Memory holds no more characters than words of 64 bits can count. -/
  width_le : width ≤ 9223372036854775808

namespace Room

/-- The room that is left of a thousand calls in one another, with memory for 64 billion
characters. -/
scoped instance usual : Room where
  json := 989
  yaml := 488
  directories := 980
  width := 68719476736
  json_ge := by decide
  directories_pos := by decide
  width_le := by decide

theorem exists_directories_eq [Room] : ∃ n, Room.directories = n + 1 :=
  Nat.exists_eq_succ_of_ne_zero (Nat.ne_of_gt directories_pos)

end Room

end CatalogSync
