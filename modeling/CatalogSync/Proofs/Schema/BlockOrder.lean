import CatalogSync.Proofs.Schema.Sections
import CatalogSync.Proofs.Text.Lines

/-!
The order of the blocks of a text. A section gets the blocks of its own kind, one behind the other, whatever
stands between them; so blocks of different kinds may change places, and the same schema is read.
-/

namespace CatalogSync

open Text (lines startsWith NoBreak)

namespace Section

theorem noBreak_word : ∀ s : Section, NoBreak s.word.toList := by
  decide

/-- A block of a text: a line that starts with the word of a section, and lines behind it that start with
the word of none. -/
structure Block where
  kind : Section
  /-- What follows the word in the first line. -/
  header : List Char
  rest : List (List Char)
  noBreak : ∀ l ∈ header :: rest, NoBreak l
  quiet : ∀ l ∈ rest, ∀ s : Section, startsWith s.word.toList l = false

namespace Block

def lines (b : Block) : List (List Char) := (b.kind.word.toList ++ b.header) :: b.rest

/-- The text of blocks, with a line feed behind each line. -/
def text (bs : List Block) : List Char := (bs.flatMap lines).flatMap (· ++ ['\n'])

/-- The same blocks in another order, which leaves those of one kind behind each other as they were. -/
def Reordered (bs cs : List Block) : Prop :=
  ∀ s : Section, bs.filter (·.kind = s) = cs.filter (·.kind = s)

theorem noBreak_of_mem_lines {b : Block} {l : List Char} (h : l ∈ b.lines) : NoBreak l := by
  rcases List.mem_cons.1 h with rfl | h
  · exact (noBreak_word b.kind).append (b.noBreak b.header List.mem_cons_self)
  · exact b.noBreak l (List.mem_cons_of_mem _ h)

theorem lines_text (bs : List Block) : Text.lines (text bs) = bs.flatMap lines := by
  refine Text.lines_flatMap_newline fun l hl => ?_
  obtain ⟨b, -, hb⟩ := List.mem_flatMap.1 hl
  exact noBreak_of_mem_lines hb

/-- A section gets the blocks of its kind, whichever section is open in front of them. -/
theorem linesFrom_flatMap (s current : Section) (bs : List Block) :
    linesFrom s current (bs.flatMap lines) = (bs.filter (·.kind = s)).flatMap lines := by
  induction bs generalizing current with
  | nil => rfl
  | cons b bs ih =>
    have hblock := linesFrom_block s current (openedBy?_append b.kind b.header)
      (fun l hl => .inl (openedBy?_eq_none (b.quiet l hl))) (bs.flatMap lines)
    rw [ih] at hblock
    rw [List.flatMap_cons, List.filter_cons]
    refine hblock.trans ?_
    by_cases hkind : b.kind = s
    · rw [if_pos hkind, if_pos (decide_eq_true hkind), List.flatMap_cons]
      rfl
    · rw [if_neg hkind, if_neg (by simp [hkind]), List.nil_append]

/-- Blocks in another order fill the sections with the same lines. -/
theorem Reordered.linesOf_eq {bs cs : List Block} (h : Reordered bs cs) (s : Section) :
    linesOf s (Text.lines (text bs)) = linesOf s (Text.lines (text cs)) := by
  rw [lines_text, lines_text, Section.linesOf_eq, Section.linesOf_eq, linesFrom_flatMap,
    linesFrom_flatMap, h s]

end Block

end Section

namespace Schema

open Section (Block)

/-- What is read depends on the lines of each section alone. -/
theorem parse_congr {s t : List Char}
    (h : ∀ u : Section, Section.linesOf u (lines s) = Section.linesOf u (lines t)) :
    Schema.parse s = Schema.parse t := by
  simp only [Schema.parse, h]

/-- Blocks that change places with blocks of other kinds give the same schema, or the same fault. -/
theorem parse_text_of_reordered {bs cs : List Block} (h : Block.Reordered bs cs) :
    Schema.parse (Block.text bs) = Schema.parse (Block.text cs) :=
  parse_congr h.linesOf_eq

def shelfBlock : Block where
  kind := .models
  header := " Shelf \x7b".toList
  rest := ["  row Int @id".toList, "\x7d".toList]
  noBreak := by decide
  quiet := by decide

def boxBlock : Block where
  kind := .models
  header := " Box \x7b".toList
  rest := ["  weight Int?".toList, "\x7d".toList, "// the last one".toList]
  noBreak := by decide
  quiet := by decide

def clientBlock : Block where
  kind := .generator
  header := " client \x7b".toList
  rest := ["  provider = \"local\"".toList, "\x7d".toList]
  noBreak := by decide
  quiet := by decide

theorem parse_text_clientLast :
    Block.Reordered [clientBlock, shelfBlock, boxBlock] [shelfBlock, clientBlock, boxBlock] ∧
      Block.text [clientBlock, shelfBlock, boxBlock] ≠ Block.text [shelfBlock, clientBlock, boxBlock] ∧
      Schema.parse (Block.text [clientBlock, shelfBlock, boxBlock]) =
        Schema.parse (Block.text [shelfBlock, clientBlock, boxBlock]) := by
  have hreordered :
      Block.Reordered [clientBlock, shelfBlock, boxBlock] [shelfBlock, clientBlock, boxBlock] := by
    intro s
    cases s <;> rfl
  exact ⟨hreordered, by decide, parse_text_of_reordered hreordered⟩

end Schema

end CatalogSync
