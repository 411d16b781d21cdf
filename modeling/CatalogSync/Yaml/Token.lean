import CatalogSync.Text.Utf8
import CatalogSync.Yaml.ScalarText

/-!
The tokens of a YAML text. Indentation outside of brackets becomes tokens that open and close block
collections. A key that stands before its colon without a mark of its own is recognised only at the
colon: where such a key may have started is remembered, and the tokens that belong in front of it
are put in there. `TokenStream.ofText` gives the tokens of a text, up to a fault where there is one.

The tokens are the ones that the loader documents: marks and directives of documents, starts and ends
of collections, entries, keys, values, anchors, aliases, tags and scalars. As YAML 1.1 has it, a key
without a mark stands on one line and is no longer than 1024 characters.
-/

namespace CatalogSync.Yaml

inductive Token where
  | versionDirective (major : Nat)
  | tagDirective (handle lead : List Char)
  | otherDirective
  | documentStart
  | documentEnd
  | blockSequenceStart
  | blockMappingStart
  | blockEnd
  | flowSequenceStart
  | flowSequenceEnd
  | flowMappingStart
  | flowMappingEnd
  | flowEntry
  | blockEntry
  | key
  | value
  | alias (name : List Char)
  | anchor (name : List Char)
  | tag (handle : Option (List Char)) (suffix : List Char)
  | scalar (text : LooseText) (isPlain : Bool)
deriving DecidableEq, Repr

/-- A place where a key without a mark may have started: how many tokens came before it, and whether
nothing but a key may stand there. -/
structure OpenKey where
  depth : Nat
  tokens : Nat
  required : Bool
  place : Cursor
deriving Repr

/-- The state between two tokens: the tokens so far, the last one first, and their number; and what
bears on the next ones. -/
structure Scanner where
  place : Cursor
  tokens : List Token := []
  count : Nat := 0
  depth : Nat := 0
  indent : Int := -1
  outer : List Int := []
  keyAllowed : Bool := true
  openKeys : List OpenKey := []

namespace Scanner

/-- Adds a token at the end. -/
def push (s : Scanner) (t : Token) : Scanner :=
  { s with tokens := t :: s.tokens, count := s.count + 1 }

/-- Adds a token behind the first `n`. -/
def insert (s : Scanner) (n : Nat) (t : Token) : Scanner :=
  { s with tokens := s.tokens.insertIdx (s.count - n) t, count := s.count + 1 }

/-- Goes on at another place. -/
def goto (s : Scanner) (c : Cursor) : Scanner := { s with place := c }

/-- A key must follow up to its colon on one line and within this many characters. -/
def keyReach : Nat := 1024

def inFlow (s : Scanner) : Bool := s.depth ≠ 0

/-- The key that may have started at the present depth. -/
def openKey? (s : Scanner) : Option OpenKey := s.openKeys.find? (·.depth = s.depth)

/-- The key started too far back to reach a colon from here. -/
def isStale (s : Scanner) (k : OpenKey) : Bool :=
  k.place.line ≠ s.place.line || keyReach < s.place.index - k.place.index

/-- Forgets keys that started too far back; a required one among them is an error. -/
def dropStale? (s : Scanner) : Option Scanner :=
  if s.openKeys.any fun k => s.isStale k && k.required then none
  else some { s with openKeys := s.openKeys.filter (!s.isStale ·) }

/-- Forgets the key at the present depth; a required one is an error. -/
def dropKey? (s : Scanner) : Option Scanner :=
  if (s.openKey?.map (·.required)).getD false then none
  else some { s with openKeys := s.openKeys.filter (·.depth ≠ s.depth) }

/-- Remembers that a key may start here. -/
def saveKey? (s : Scanner) : Option Scanner :=
  if s.keyAllowed then do
    let s ← s.dropKey?
    let key : OpenKey := {
      depth := s.depth
      tokens := s.count
      required := !s.inFlow && s.indent = s.place.column
      place := s.place }
    return { s with openKeys := s.openKeys ++ [key] }
  else some s

/-- Closes the block collections that are indented deeper than a column. -/
def unwind (s : Scanner) (column : Int) : Scanner :=
  if s.inFlow then s else close s s.outer
where
  close (s : Scanner) : List Int → Scanner
    | [] => s
    | i :: outer =>
      if column < s.indent then close { s.push .blockEnd with indent := i, outer := outer } outer
      else s

/-- Opens a block collection at a column, unless one is open there or further in: the state, and
whether one was opened. -/
def addIndent (s : Scanner) (column : Int) : Scanner × Bool :=
  if s.indent < column then ({ s with indent := column, outer := s.indent :: s.outer }, true)
  else (s, false)

/-- Goes on to the next token, past spaces, comments and ends of lines. -/
def toNext : Nat → Scanner → Scanner
  | 0, s => s
  | bound + 1, s =>
    let c := s.place.skipSpaces.skipComment
    match c.lineBreak? with
    | none => s.goto c
    | some (_, c) => toNext bound { s with place := c, keyAllowed := s.keyAllowed || !s.inFlow }

/-- A letter, a digit, a hyphen or an underscore of ASCII. -/
def isNameChar (c : Char) : Bool := c.isAlphanum || c = '-' || c = '_'

/-- A name that is not empty, and the place after it. -/
def name? (c : Cursor) : Option Scanned :=
  let (name, c) := c.span isNameChar
  if name = [] then none else some (name, c)

/-- The bytes that percent signs and pairs of hexadecimal digits stand for. -/
def escapedBytes? : Nat → Cursor → Option (List UInt8 × Cursor)
  | 0, c => some ([], c)
  | bound + 1, c =>
    match c.rest with
    | '%' :: a :: b :: _ => do
      let high ← Json.hexValue? a
      let low ← Json.hexValue? b
      let (bytes, c) ← escapedBytes? bound (c.advance 3)
      return ((high * 16 + low).toUInt8 :: bytes, c)
    | '%' :: _ => none
    | _ => some ([], c)

/-- A character that may stand in the address of a tag. -/
def isAddressChar (c : Char) : Bool :=
  c.isAlphanum || "-;/?:@&=+$,_.!~*'()[]".toList.contains c

/-- The parts of an address. -/
def addressParts? : Nat → Cursor → Option Scanned
  | 0, c => some ([], c)
  | bound + 1, c =>
    match c.peek? with
    | some '%' => do
      let (bytes, c) ← escapedBytes? c.rest.length c
      match Text.decode bytes with
      | .error _ => none
      | .ok text =>
        let (more, c) ← addressParts? bound c
        return (text ++ more, c)
    | some a =>
      if isAddressChar a then (addressParts? bound c.next).map fun p => (a :: p.1, p.2)
      else some ([], c)
    | none => some ([], c)

/-- An address that is not empty. -/
def address? (c : Cursor) : Option Scanned :=
  match c.peek? with
  | some a =>
    if a = '%' || isAddressChar a then addressParts? (c.rest.length + 1) c else none
  | none => none

/-- The handle of a tag: an exclamation mark, alone before a space, or a name and another one. -/
def handle? (c : Cursor) : Option Scanned :=
  match c.rest with
  | '!' :: rest =>
    if rest.head? = some ' ' then some (c.take 1)
    else
      let n := (rest.takeWhile isNameChar).length
      if rest[n]? = some '!' then some (c.take (n + 2)) else none
  | _ => none

/-- A decimal number. -/
def number (c : Cursor) : Except Refusal (Nat × Cursor) :=
  let (ds, c) := c.span Char.isDigit
  if ds = [] then .error .malformed
  else if Numeral.maxLength < ds.length then .error (.longInteger ds.length)
  else .ok (digitsValue ds, c)

/-- The handle and the lead of a directive for tags. -/
def tagDirective? (c : Cursor) : Option (Token × Cursor) := do
  let (handle, c) ← handle? c.skipSpaces
  if c.peek? ≠ some ' ' then none
  else
    let (lead, c) ← address? c.skipSpaces
    if !endsItem c.peek? then none else return (.tagDirective handle lead, ← c.endOfLine?)

/-- The number of a directive for the version. -/
def versionDirective (c : Cursor) : Except Refusal (Token × Cursor) := do
  let (major, c) ← number c.skipSpaces
  if c.peek? ≠ some '.' then .error .malformed
  else
    let (_, c) ← number c.next
    if !endsItem c.peek? then .error .malformed
    else return (.versionDirective major, ← orMalformed c.endOfLine?)

/-- A directive; the place is after the percent sign. -/
def directive (c : Cursor) : Except Refusal (Token × Cursor) := do
  let (name, c) ← orMalformed (name? c)
  if !endsItem c.peek? then .error .malformed
  else if name = "YAML".toList then versionDirective c
  else if name = "TAG".toList then orMalformed (tagDirective? c)
  else return (.otherDirective, ← orMalformed (c.skip (!isBreak ·)).endOfLine?)

/-- A character that may follow the name of an anchor or an alias. -/
def endsAnchor (c : Option Char) : Bool :=
  endsWord c || (c.map "?:,]\x7d%@\x60".toList.contains).getD false

/-- The name of an anchor or an alias; the place is after its sign. -/
def anchorName? (c : Cursor) : Option Scanned := do
  let (name, c) ← name? c
  if endsAnchor c.peek? then return (name, c) else none

/-- A handle stands in front of the next gap. -/
def hasHandle (c : Cursor) : Bool :=
  (c.rest.drop 1).takeWhile (fun a => !(a = ' ' || isBreak a)) |>.contains '!'

/-- A tag; the place is at its exclamation mark. -/
def tag? (c : Cursor) : Option (Token × Cursor) := do
  let (t, c) ←
    if c.peekAt? 1 = some '<' then do
      let (suffix, c) ← address? (c.advance 2)
      if c.peek? = some '>' then some (Token.tag none suffix, c.next) else none
    else if endsWord (c.peekAt? 1) then some (.tag none ['!'], c.next)
    else if hasHandle c then do
      let (handle, c) ← handle? c
      let (suffix, c) ← address? c
      some (.tag (some handle) suffix, c)
    else do
      let (suffix, c) ← address? c.next
      some (.tag (some ['!']) suffix, c)
  if endsItem c.peek? then return (t, c) else none

/-- A plain scalar may start here. -/
def startsPlain (inFlow : Bool) (c : Cursor) : Bool :=
  match c.peek? with
  | none => false
  | some a =>
    !(isGap a || "-?:,[]\x7b\x7d#&*!|>'\"%@\x60".toList.contains a)
      || (!endsWord (c.peekAt? 1) && (a = '-' || (!inFlow && (a = '?' || a = ':'))))

/-- A mark that bounds a document or starts a directive: block collections end before it. -/
def boundary (s : Scanner) (read : Cursor → Except Refusal (Token × Cursor)) :
    Except Refusal Scanner := do
  let s ← orMalformed (s.unwind (-1)).dropKey?
  let (t, c) ← read s.place
  return { s.push t with place := c, keyAllowed := false }

/-- A token that a key may start with. -/
def keyStart (s : Scanner) (read : Cursor → Except Refusal (Token × Cursor)) :
    Except Refusal Scanner := do
  let s ← orMalformed s.saveKey?
  let (t, c) ← read s.place
  return { s.push t with place := c, keyAllowed := false }

/-- An opening bracket. -/
def openFlow? (s : Scanner) (t : Token) : Option Scanner := do
  let s ← s.saveKey?
  return { s.push t with place := s.place.next, depth := s.depth + 1, keyAllowed := true }

/-- A closing bracket; there must be one to close. -/
def closeFlow? (s : Scanner) (t : Token) : Option Scanner := do
  let s ← s.dropKey?
  if s.depth = 0 then none
  else return { s.push t with place := s.place.next, depth := s.depth - 1, keyAllowed := false }

/-- A comma between brackets. -/
def flowEntry? (s : Scanner) : Option Scanner := do
  let s ← s.dropKey?
  return { s.push .flowEntry with place := s.place.next, keyAllowed := true }

/-- Opens a block collection here, where keys are allowed. -/
def openBlock? (s : Scanner) (t : Token) : Option Scanner :=
  if s.inFlow then some s
  else if !s.keyAllowed then none
  else match s.addIndent s.place.column with
    | (s, true) => some (s.push t)
    | (s, false) => some s

/-- The hyphen of a block sequence. -/
def blockEntry? (s : Scanner) : Option Scanner := do
  let s ← s.openBlock? .blockSequenceStart
  let s ← s.dropKey?
  return { s.push .blockEntry with place := s.place.next, keyAllowed := true }

/-- The question mark before a key. -/
def key? (s : Scanner) : Option Scanner := do
  let s ← s.openBlock? .blockMappingStart
  let s ← s.dropKey?
  return { s.push .key with place := s.place.next, keyAllowed := !s.inFlow }

/-- The colon before a value. Where a key may have started before it, the key is marked there. -/
def value? (s : Scanner) : Option Scanner := do
  match s.openKey? with
  | some k =>
    let s := { s with openKeys := s.openKeys.filter (·.depth ≠ s.depth) }.insert k.tokens .key
    let s := if s.inFlow then s else
      match s.addIndent k.place.column with
      | (s, true) => s.insert k.tokens .blockMappingStart
      | (s, false) => s
    return { s.push .value with place := s.place.next, keyAllowed := false }
  | none =>
    let s ← s.openBlock? .blockMappingStart
    let s ← s.dropKey?
    return { s.push .value with place := s.place.next, keyAllowed := !s.inFlow }

/-- A block scalar. -/
def block? (bound : Nat) (s : Scanner) : Option Scanner := do
  let s ← s.dropKey?
  let (text, c) ← s.place.block? bound s.indent
  return { s.push (.scalar (String.ofList text) false) with place := c, keyAllowed := true }

/-- A plain scalar. -/
def plain? (bound : Nat) (s : Scanner) : Option Scanner := do
  let s ← s.saveKey?
  let (text, c, crossed) := s.place.plain bound s.inFlow (s.indent + 1)
  return { s.push (.scalar (String.ofList text) true) with place := c, keyAllowed := crossed }

/-- A mark of the structure, a block scalar or a plain scalar that starts here with the character
`a`. -/
def bareToken? (bound : Nat) (s : Scanner) (a : Char) : Option Scanner :=
  let isWord := endsWord (s.place.peekAt? 1)
  match a with
  | '[' => s.openFlow? .flowSequenceStart
  | '{' => s.openFlow? .flowMappingStart
  | ']' => s.closeFlow? .flowSequenceEnd
  | '}' => s.closeFlow? .flowMappingEnd
  | ',' => s.flowEntry?
  | _ =>
    if a = '-' ∧ isWord then s.blockEntry?
    else if a = '?' ∧ (s.inFlow ∨ isWord) then s.key?
    else if a = ':' ∧ (s.inFlow ∨ isWord) then s.value?
    else if (a = '|' ∨ a = '>') ∧ !s.inFlow then s.block? bound
    else if startsPlain s.inFlow s.place then s.plain? bound
    else none

/-- The token that starts here with the character `a`; the bound is more than the characters that
are left. -/
def token (bound : Nat) (s : Scanner) (a : Char) : Except Refusal Scanner :=
  let isFirst := s.place.column = 0
  if a = '%' ∧ isFirst then s.boundary fun c => directive c.next
  else if isFirst ∧ s.place.atSeparator then
    s.boundary fun c => .ok (if a = '-' then .documentStart else .documentEnd, c.advance 3)
  else if a = '*' then
    s.keyStart fun c => (orMalformed (anchorName? c.next)).map fun p => (.alias p.1, p.2)
  else if a = '&' then
    s.keyStart fun c => (orMalformed (anchorName? c.next)).map fun p => (.anchor p.1, p.2)
  else if a = '!' then s.keyStart fun c => orMalformed (tag? c)
  else if a = '\'' ∨ a = '"' then
    s.keyStart fun c => (c.quoted bound).map fun p => (.scalar p.1 false, p.2)
  else orMalformed (s.bareToken? bound a)

/-- The tokens in front of which no key can be marked any more. -/
def settled (s : Scanner) : List Token :=
  let starts := (s.openKeys.filter (!s.isStale ·)).map (·.tokens)
  (s.tokens.drop (s.count - starts.foldl min s.count)).reverse

/-- The state before the next token, past what stands between, the block collections closed that
end there; the bound is more than the characters that are left. -/
def approach? (bound : Nat) (s : Scanner) : Option Scanner :=
  (toNext bound s).dropStale?.map fun s => s.unwind s.place.column

end Scanner

/-- Tokens, and the fault that there is after them, if any. -/
structure TokenStream where
  tokens : List Token
  fault : Option Refusal := none
deriving Repr

/-- Reads tokens to the end of the text, or up to a fault. Those that are not settled when a fault
comes up are lost. The bound is more than the characters that are left: every token takes one at
least. -/
def Scanner.run : Nat → Scanner → TokenStream
  | 0, s => ⟨s.settled, some .malformed⟩
  | bound + 1, s =>
    match s.approach? (bound + 1) with
    | none => ⟨s.settled, some .malformed⟩
    | some here =>
      match here.place.peek? with
      | some a =>
        match here.token (bound + 1) a with
        | .ok after => Scanner.run bound after
        | .error refusal => ⟨s.settled, some refusal⟩
      | none =>
        match (here.unwind (-1)).dropKey? with
        | some done => ⟨done.tokens.reverse, none⟩
        | none => ⟨s.settled, some .malformed⟩

/-- A character that may stand in a YAML text. -/
def isAllowed (c : Char) : Bool :=
  let n := c.toNat
  n = 0x09 || n = 0x0A || n = 0x0D || (0x20 ≤ n && n ≤ 0x7E) || n = 0x85
    || (0xA0 ≤ n && n ≤ 0xD7FF) || (0xE000 ≤ n && n ≤ 0xFFFD) || 0x10000 ≤ n

/-- The tokens of a text; a byte order mark in front of it is passed over. -/
def TokenStream.ofText (text : List Char) : TokenStream :=
  if text.all isAllowed then
    let start : Cursor := ⟨text, 0, 0, 0⟩
    let start := if start.peek? = some byteOrderMark then start.next else start
    Scanner.run (text.length + 2) { place := start }
  else ⟨[], some .malformed⟩

end CatalogSync.Yaml
