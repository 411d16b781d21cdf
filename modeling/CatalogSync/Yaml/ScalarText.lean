import CatalogSync.Json.Reader
import CatalogSync.Yaml.Cursor
import CatalogSync.Yaml.Refusal

/-!
The texts of scalars: plain ones, ones in single or double quotes, and blocks of lines. Line breaks
inside plain and quoted scalars are folded: one break counts as a space, of several the first is
dropped. The functions with a bound look at no more parts than the bound says; one that is greater
than the number of characters left is always enough.

Folding, the escapes in double quotes, and the indicators for indentation and for line breaks at the
end of a block are those of the scalar styles of YAML 1.1.
-/

namespace CatalogSync.Yaml

/-- A scalar's text and the place after it. -/
abbrev Scanned := List Char × Cursor

/-- The code points of a part of a scalar and the place after it. -/
abbrev ScannedCodes := List Nat × Cursor

/-- The code points of characters. -/
def codesOf (p : Scanned) : ScannedCodes := (p.1.map (·.toNat), p.2)

namespace Cursor

/-! ## Plain scalars -/

/-- More than the characters in front of the next that is no gap. -/
def gapBound (c : Cursor) : Nat := (c.rest.takeWhile isGap).length + 1

/-- A character that has a meaning of its own between brackets. -/
def isFlowMark (c : Char) : Bool := c = ',' || c = '[' || c = ']' || c = '{' || c = '}'

/-- The colon before this character ends a key. -/
def endsKey (inFlow : Bool) (c : Option Char) : Bool :=
  endsWord c || (inFlow && (c.map isFlowMark).getD false)

/-- The number of characters up to a gap or a mark. -/
def plainLength (inFlow : Bool) : List Char → Nat
  | [] => 0
  | c :: rest =>
    if isGap c || (c = ':' && endsKey inFlow rest.head?)
      || (inFlow && (isFlowMark c || c = '?')) then 0
    else plainLength inFlow rest + 1

/-- Breaks and spaces after the first break of a gap, up to a separator of documents: the breaks, or
nothing where a separator was met. -/
def gapBreaks? : Nat → Cursor → Option (List Char) × Cursor
  | 0, c => (some [], c)
  | bound + 1, c =>
    if c.peek? = some ' ' then gapBreaks? bound c.next
    else match c.lineBreak? with
      | none => (some [], c)
      | some (b, c) =>
        if c.atSeparator then (none, c)
        else match gapBreaks? bound c with
          | (some bs, c) => (some (b :: bs), c)
          | (none, c) => (none, c)

/-- A first break and those that follow it, folded. -/
def folded (b : Char) (more : List Char) : List Char :=
  if b ≠ '\n' then b :: more else if more = [] then [' '] else more

/-- A gap inside a plain scalar: what it counts for, the place after it, and whether it holds a
break. It counts for nothing where a separator of documents is met. -/
def plainGap (c : Cursor) : List Char × Cursor × Bool :=
  let (spaces, c) := c.span (· = ' ')
  match c.lineBreak? with
  | none => (spaces, c, false)
  | some (b, c) =>
    if c.atSeparator then ([], c, true)
    else match gapBreaks? c.gapBound c with
      | (some bs, c) => (folded b bs, c, true)
      | (none, c) => ([], c, true)

/-- The parts of a plain scalar between gaps, `gap` standing before the first. -/
def plainParts (inFlow : Bool) (indent : Int) :
    Nat → List Char → Cursor → Bool → List Char × Cursor × Bool
  | 0, _, c, crossed => ([], c, crossed)
  | bound + 1, gap, c, crossed =>
    let n := plainLength inFlow c.rest
    if c.peek? = some '#' ∨ n = 0 then ([], c, crossed)
    else
      let (part, c) := c.take n
      let (next, c, crossed) := c.plainGap
      if next = [] ∨ c.peek? = some '#' ∨ (inFlow = false ∧ (c.column : Int) < indent) then
        (gap ++ part, c, crossed)
      else
        let (more, c, crossed) := plainParts inFlow indent bound next c crossed
        (gap ++ part ++ more, c, crossed)

/-- A plain scalar whose further lines stand at `indent` or deeper: its text, the place after it and
the gap behind it, and whether that gap holds a break. -/
def plain (c : Cursor) (bound : Nat) (inFlow : Bool) (indent : Int) : List Char × Cursor × Bool :=
  plainParts inFlow indent bound [] c false

/-! ## Quoted scalars -/

/-- The breaks of a gap inside quotes; none may be followed by a separator of documents. -/
def quotedBreaks? : Nat → Cursor → Option Scanned
  | 0, _ => none
  | bound + 1, c =>
    if c.atSeparator then none
    else
      let c := c.skip fun a => a = ' ' || a = '\t'
      match c.lineBreak? with
      | none => some ([], c)
      | some (b, c) => (quotedBreaks? bound c).map fun p => (b :: p.1, p.2)

/-- A gap inside quotes. -/
def quotedGap? (c : Cursor) : Option Scanned :=
  let (spaces, c) := c.span fun a => a = ' ' || a = '\t'
  match c.peek? with
  | none => none
  | some _ =>
    match c.lineBreak? with
    | none => some (spaces, c)
    | some (b, c) => (quotedBreaks? c.gapBound c).map fun p => (folded b p.1, p.2)

/-- The character that a letter after a backslash stands for. -/
def escaped? : Char → Option Char
  | '0' => some (Char.ofNat 0)
  | 'a' => some (Char.ofNat 7)
  | 'b' => some (Char.ofNat 8)
  | 't' => some '\t'
  | '\t' => some '\t'
  | 'n' => some '\n'
  | 'v' => some (Char.ofNat 0x0B)
  | 'f' => some (Char.ofNat 0x0C)
  | 'r' => some '\r'
  | 'e' => some (Char.ofNat 0x1B)
  | ' ' => some ' '
  | '"' => some '"'
  | '\\' => some '\\'
  | '/' => some '/'
  | 'N' => some (Char.ofNat 0x85)
  | '_' => some (Char.ofNat 0xA0)
  | 'L' => some (Char.ofNat 0x2028)
  | 'P' => some (Char.ofNat 0x2029)
  | _ => none

/-- The number of hexadecimal digits that follow a letter after a backslash. -/
def escapeLength? : Char → Option Nat
  | 'x' => some 2
  | 'u' => some 4
  | 'U' => some 8
  | _ => none

/-- A code point given in hexadecimal digits, which may be half of a pair. -/
def codePoint (digits : List Char) : Except Refusal Nat := do
  let values ← orMalformed (digits.mapM Json.hexValue?)
  let n := values.foldl (fun n d => n * 16 + d) 0
  if 0x7FFFFFFF < n then .error .escapeTooLarge
  else if 0x10FFFF < n then .error .noCodePoint
  else .ok n

/-- What a backslash and the characters after it stand for; the place is after the backslash. -/
def escape (c : Cursor) : Except Refusal ScannedCodes :=
  match c.peek? with
  | none => .error .malformed
  | some a =>
    match escaped? a, escapeLength? a, c.lineBreak? with
    | some b, _, _ => .ok ([b.toNat], c.next)
    | none, some n, _ =>
      let (digits, after) := c.next.take n
      if digits.length < n then .error .malformed
      else (codePoint digits).map fun b => ([b], after)
    | none, none, some (_, c) =>
      (orMalformed (quotedBreaks? c.gapBound c)).map codesOf
    | none, none, none => .error .malformed

/-- A quoted scalar after its opening quote, up to and with its closing quote. -/
def quotedParts (double : Bool) : Nat → Cursor → Except Refusal ScannedCodes
  | 0, _ => .error .malformed
  | bound + 1, c =>
    let more (p : ScannedCodes) : Except Refusal ScannedCodes :=
      (quotedParts double bound p.2).map fun rest => (p.1 ++ rest.1, rest.2)
    let one (a : Char) (c : Cursor) : Except Refusal ScannedCodes := more ([a.toNat], c)
    match c.peek? with
    | none => .error .malformed
    | some '\'' =>
      if double then one '\'' c.next
      else if c.peekAt? 1 = some '\'' then one '\'' (c.advance 2)
      else .ok ([], c.next)
    | some '"' => if double then .ok ([], c.next) else one '"' c.next
    | some '\\' => if double then c.next.escape.bind more else one '\\' c.next
    | some a =>
      if isGap a then (orMalformed c.quotedGap?).bind fun p => more (codesOf p) else one a c.next

/-- A scalar in quotes; the place is at its opening quote. -/
def quoted (c : Cursor) (bound : Nat) : Except Refusal (LooseText × Cursor) :=
  (quotedParts (c.peek? = some '"') bound c.next).map fun p => (.ofCodes p.1, p.2)

/-! ## Block scalars -/

/-- What becomes of the breaks at the end of a block: one stays, all stay, or none does. -/
inductive Chomping where
  | clip
  | keep
  | strip
deriving DecidableEq, Repr

/-- The mark for the breaks at the end of a block. -/
def chomping? : Option Char → Option Chomping
  | some '+' => some .keep
  | some '-' => some .strip
  | _ => none

/-- A digit that says how deep a block is indented. -/
def indentDigit? (c : Option Char) : Option Nat :=
  c.bind fun a => if a.isDigit then some (a.toNat - 48) else none

/-- The marks behind the sign of a block, in either order; a depth of nought is refused. -/
def blockMarks? (c : Cursor) : Option (Chomping × Option Nat × Cursor) :=
  let (chomp, depth, c) :=
    match chomping? c.peek?, indentDigit? c.peek? with
    | some chomp, _ =>
      match indentDigit? c.next.peek? with
      | some n => (chomp, some n, c.advance 2)
      | none => (chomp, none, c.next)
    | none, some n =>
      match chomping? c.next.peek? with
      | some chomp => (chomp, some n, c.advance 2)
      | none => (.clip, some n, c.next)
    | none, none => (.clip, none, c)
  if depth = some 0 ∨ !endsItem c.peek? then none else some (chomp, depth, c)

/-- The blank lines before a block, the widest indentation among them and the first line, and the
place where the first line starts. -/
def blockLead : Nat → Cursor → Nat → List Char × Nat × Cursor
  | 0, c, widest => ([], widest, c)
  | bound + 1, c, widest =>
    if c.peek? = some ' ' then blockLead bound c.next (max widest c.next.column)
    else match c.lineBreak? with
      | none => ([], widest, c)
      | some (b, c) =>
        let (bs, widest, c) := blockLead bound c widest
        (b :: bs, widest, c)

/-- The place after at most so many columns of spaces. -/
def skipIndent (indent : Nat) (c : Cursor) : Cursor :=
  c.advance ((c.rest.take (indent - c.column)).takeWhile (· = ' ')).length

/-- The blank lines between lines of a block. -/
def blockBreaks (indent : Nat) : Nat → Cursor → Scanned
  | 0, c => ([], c)
  | bound + 1, c =>
    let c := c.skipIndent indent
    match c.lineBreak? with
    | none => ([], c)
    | some (b, c) =>
      let (bs, c) := blockBreaks indent bound c
      (b :: bs, c)

/-- A line of a block starts here. -/
def atBlockLine (indent : Nat) (c : Cursor) : Bool := c.column = indent && c.peek?.isSome

/-- A space or a tab comes next. -/
def atBlank (c : Cursor) : Bool := c.peek? = some ' ' || c.peek? = some '\t'

/-- The lines of a block, `lead` being the breaks before the first: the text without its last
break, the last break, and the breaks after that. -/
def blockLines (folds : Bool) (indent : Nat) :
    Nat → List Char → Cursor → List Char × List Char × List Char × Cursor
  | 0, lead, c => ([], [], lead, c)
  | bound + 1, lead, c =>
    let startsBlank := c.atBlank
    let (line, c) := c.span (!isBreak ·)
    let (last, c) := match c.lineBreak? with
      | some (b, c) => ([b], c)
      | none => ([], c)
    let (breaks, c) := blockBreaks indent c.gapBound c
    if c.atBlockLine indent then
      let joint :=
        if folds ∧ last = ['\n'] ∧ !startsBlank ∧ !c.atBlank then
          if breaks = [] then [' '] else []
        else last
      let (more, last, tail, c) := blockLines folds indent bound breaks c
      (lead ++ line ++ joint ++ more, last, tail, c)
    else (lead ++ line, last, breaks, c)

/-- A block scalar inside a collection at `indent`; the place is at its sign. -/
def block? (c : Cursor) (bound : Nat) (indent : Int) : Option Scanned := do
  let folds := c.peek? = some '>'
  let (chomp, depth, c) ← c.next.blockMarks?
  let c ← c.endOfLine?
  let least := (max (indent + 1) 1).toNat
  let (lead, width, c) := match depth with
    | none =>
      let (bs, widest, c) := blockLead c.gapBound c 0
      (bs, max least widest, c)
    | some n =>
      let width := least + n - 1
      let (bs, c) := blockBreaks width c.gapBound c
      (bs, width, c)
  let (text, last, tail, c) :=
    if c.atBlockLine width then blockLines folds width bound lead c
    else ([], [], lead, c)
  return (text ++ (if chomp = .strip then [] else last) ++ (if chomp = .keep then tail else []), c)

end Cursor

end CatalogSync.Yaml
