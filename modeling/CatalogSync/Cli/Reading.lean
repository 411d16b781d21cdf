import CatalogSync.Cli.Grammar
import CatalogSync.Text.Quoted
import CatalogSync.Text.Word

/-!
Reading the words of a command line by a grammar. Every word is first told apart by itself: it is a
flag, it is plain, or it is the separator after which all words are plain. Then flags take effect in
their order, and plain words go to the positionals. Words that nothing claims are left over.

A long flag may be cut short as long as it stays unambiguous, and may hold its value after an equals
sign. Short flags may share one dash, the last of them followed by its value. No flag has a name in
which half of a surrogate pair stands; one in a value goes with the value.
-/

namespace CatalogSync.Cli

/-- Why reading ends early. -/
inductive Stop where
  /-- The help was asked for. -/
  | help
  /-- The version was asked for. -/
  | version
  /-- The words do not follow the grammar. -/
  | misuse (message : LooseText)
deriving DecidableEq, Repr

/-- The word that makes all later ones plain. -/
def separatorWord : String := "--"

/-- One word of a command line, told apart by itself. What is attached to a flag stands in its word
after an equals sign or, with a short flag, right after the letter. -/
inductive Piece (σ : Type) where
  | plain (word : LooseText)
  | separator
  | flag (word : LooseText) (flag : Flag σ) (name : String) (attached : Option LooseText)
  /-- The word looks like a flag, but the grammar has no such flag. -/
  | unknown (word : LooseText)

namespace Piece

variable {σ : Type}

def word : Piece σ → LooseText
  | plain word => word
  | separator => separatorWord
  | flag word _ _ _ => word
  | unknown word => word

def isSeparator : Piece σ → Bool
  | separator => true
  | _ => false

end Piece

/-- A negative number, whole or with a fraction; a line feed after it does not count. -/
def isNegativeNumber (s : List Char) : Bool :=
  match if s.getLast? = some '\n' then s.dropLast else s with
  | '-' :: digits =>
    let fraction := match Text.cutAt? '.' digits with
      | some (whole, part) => whole.all Text.isDigit && !part.isEmpty && part.all Text.isDigit
      | none => false
    (!digits.isEmpty && digits.all Text.isDigit) || fraction
  | _ => false

/-- The choices in a message. -/
def choiceList (choices : List String) : String :=
  ", ".intercalate (choices.map Text.quotedString)

/-- The failure of a word that is none of the choices. -/
def badChoice (label : String) (choices : List String) (word : LooseText) : Stop :=
  .misuse (s!"argument {label}: invalid choice: {String.ofList (Text.quotedLoose word)} "
    ++ s!"(choose from {choiceList choices})")

/-- Fails where there are choices and the word is none of them. -/
def checkChoice (label : String) (choices : List String) (word : LooseText) : Except Stop Unit :=
  if choices = [] ∨ word ∈ choices.map LooseText.text then .ok ()
  else .error (badChoice label choices word)

namespace Flag

variable {σ : Type}

/-- Lets a flag take effect; `value` is what a flag that takes a value was given. -/
def take (f : Flag σ) (value : LooseText) (s : σ) : Except Stop σ :=
  match f.action with
  | .help => .error .help
  | .version => .error .version
  | .switch change => .ok (change s)
  | .value _ choices store =>
    if value = .text separatorWord then .ok (store none s)
    else do
      checkChoice f.label choices value
      return store (some value) s

/-- The failure of a flag that has no use for the value it was given. -/
def refuses (f : Flag σ) (text : LooseText) : Stop :=
  let shown := String.ofList (Text.quotedLoose text)
  .misuse s!"argument {f.label}: ignored explicit argument {shown}"

/-- The failure of a flag that is given no value. -/
def lacksValue (f : Flag σ) : Stop := .misuse s!"argument {f.label}: expected one argument"

end Flag

/-- What one word of flags amounts to: the flags that are complete, each with its value, and a last
one that waits for its value. -/
structure Cluster (σ : Type) where
  complete : List (Flag σ × LooseText)
  waiting : Option (Flag σ) := none

namespace Positional

variable {σ : Type}

/-- The pieces that a positional takes from the front, and what is left. Separators around its word
go with it. -/
def claim? (p : Positional σ) (pieces : List (Piece σ)) :
    Option (List (Piece σ) × List (Piece σ)) :=
  let leading := pieces.takeWhile (·.isSeparator)
  match p.arity, pieces.dropWhile (·.isSeparator) with
  | .rest, .plain _ :: _ => some (pieces, [])
  | .optional, .plain word :: rest
  | .one, .plain word :: rest =>
    some (leading ++ .plain word :: rest.takeWhile (·.isSeparator),
      rest.dropWhile (·.isSeparator))
  | .optional, rest => some (leading, rest)
  | _, _ => none

/-- The words of what a positional took. The first separator is no word, unless the positional takes
everything. -/
def wordsOf (p : Positional σ) (taken : List (Piece σ)) : List LooseText :=
  let words := taken.map (·.word)
  if p.arity = .rest then words else words.erase (.text separatorWord)

/-- Lets a positional take effect. -/
def take (p : Positional σ) (taken : List (Piece σ)) (s : σ) : Except Stop σ := do
  match p.wordsOf taken with
  | [] => return p.store [] s
  | word :: rest =>
    checkChoice p.label p.choices word
    return p.store (word :: rest) s

/-- Hands pieces to positionals in their order, as far as they go; gives the positionals and the
pieces that are left. -/
def takeAll : List (Positional σ) → List (Piece σ) → σ →
    Except Stop (σ × List (Positional σ) × List (Piece σ))
  | [], pieces, s => .ok (s, [], pieces)
  | p :: ps, pieces, s =>
    match p.claim? pieces with
    | none => .ok (s, p :: ps, pieces)
    | some (taken, rest) => do takeAll ps rest (← p.take taken s)

end Positional

/-- How far reading has come. -/
structure Progress (σ : Type) where
  state : σ
  /-- The positionals that still wait for their words. -/
  positionals : List (Positional σ)
  /-- The words that nothing claims. -/
  extras : List LooseText := []

namespace Grammar

variable {σ : Type}

/-- The flags that a word may mean without naming one in full: those that start with what comes
before its equals sign or, after a single dash, the one named by its first letter. -/
def candidates (g : Grammar σ) (word : LooseText) : List (String × Flag σ × Option LooseText) :=
  match word.chars with
  | '-' :: '-' :: _ =>
    let (start, attached) := match Text.cutAt? '=' word.chars with
      | some (start, text) => (start, some (word.takeBack text))
      | none => (word.chars, none)
    (g.named.filter fun n => Text.startsWith start n.1.toList).map fun n => (n.1, n.2, attached)
  | dash :: letter :: text =>
    (g.named.filter fun n => n.1.toList = [dash, letter]).map fun n =>
      (n.1, n.2, some (word.takeBack text))
  | _ => []

/-- The flag that stands before the equals sign of a word. -/
def assigned? (g : Grammar σ) (word : LooseText) : Option (Piece σ) := do
  let (name, text) ← Text.cutAt? '=' word.chars
  let f ← g.flag? (String.ofList name)
  return .flag word f (String.ofList name) (some (word.takeBack text))

/-- Tells a word apart that starts with a dash and names no flag in full. -/
def guess (g : Grammar σ) (word : LooseText) : Except Stop (Piece σ) :=
  match g.candidates word with
  | [(name, f, attached)] => .ok (.flag word f name attached)
  | [] =>
    if isNegativeNumber word.chars ∨ ' ' ∈ word.chars then .ok (.plain word)
    else .ok (.unknown word)
  | several =>
    let names := ", ".intercalate (several.map (·.1))
    .error (.misuse (.text "ambiguous option: " ++ word ++ .text s!" could match {names}"))

/-- Tells a word apart. -/
def classify (g : Grammar σ) (word : LooseText) : Except Stop (Piece σ) :=
  let name := String.ofList word.chars
  if word.chars.head? ≠ some '-' then .ok (.plain word)
  else match g.flag? name with
    | some f => .ok (.flag word f name none)
    | none =>
      if word = .text "-" then .ok (.plain word)
      else match g.assigned? word with
        | some piece => .ok piece
        | none => g.guess word

/-- Tells the words of a command line apart. -/
def classifyAll (g : Grammar σ) : List LooseText → Except Stop (List (Piece σ))
  | [] => .ok []
  | word :: rest =>
    if word = .text separatorWord then .ok (.separator :: rest.map .plain)
    else do return (← g.classify word) :: (← classifyAll g rest)

/-- The cluster of a flag that stands alone. -/
def alone (f : Flag σ) : Cluster σ :=
  if f.takesValue then { complete := [], waiting := some f } else { complete := [(f, "")] }

/-- The cluster of a flag and characters of the text attached to it. After a short flag that takes no
value, the text goes on with the letter of the next; one that no flag has is refused with all that
follows. -/
def cluster (g : Grammar σ) (attached : LooseText) (f : Flag σ) (short : Bool) :
    List Char → Except Stop (Cluster σ)
  | [] => if f.takesValue then .ok { complete := [(f, "")] } else .error (f.refuses "")
  | letter :: text =>
    let remaining := attached.takeBack (letter :: text)
    if f.takesValue then .ok { complete := [(f, remaining)] }
    else if !short then .error (f.refuses remaining)
    else match g.flag? (String.ofList ['-', letter]) with
      | none => .error (f.refuses remaining)
      | some next => do
        let tail ← match text with
          | [] => .ok (alone next)
          | c :: more => cluster g attached next true (c :: more)
        return { tail with complete := (f, "") :: tail.complete }

/-- The cluster of a flag and what is attached to it. -/
def clusterOf (g : Grammar σ) (f : Flag σ) (name : String) :
    Option LooseText → Except Stop (Cluster σ)
  | none => .ok (alone f)
  | some text => g.cluster text f (name.toList[1]? ≠ some '-') text.chars

/-- Lets flags take effect in their order. -/
def takeFlags : List (Flag σ × LooseText) → σ → Except Stop σ
  | [], s => .ok s
  | (f, value) :: rest, s => do takeFlags rest (← f.take value s)

/-- Reads pieces from the front. -/
def readPieces (g : Grammar σ) (p : Progress σ) : List (Piece σ) → Except Stop (Progress σ)
  | [] => .ok p
  | .unknown word :: rest => readPieces g { p with extras := p.extras ++ [word] } rest
  | .flag _ f name attached :: rest => do
    let c ← g.clusterOf f name attached
    match c.waiting, rest with
    | none, rest =>
      let s ← takeFlags c.complete p.state
      readPieces g { p with state := s } rest
    | some last, .plain value :: rest =>
      let s ← takeFlags (c.complete ++ [(last, value)]) p.state
      readPieces g { p with state := s } rest
    | some last, _ => .error last.lacksValue
  | piece :: rest => do
    let (s, positionals, left) ← Positional.takeAll p.positionals (piece :: rest) p.state
    if left.length < (piece :: rest).length then
      readPieces g { p with state := s, positionals := positionals } left
    else readPieces g { p with extras := p.extras ++ [piece.word] } rest
termination_by pieces => pieces.length
decreasing_by all_goals (simp only [List.length_cons] at *; omega)

/-- Reads the words of a command line; gives what they amount to and the words left over. -/
def read (g : Grammar σ) (words : List LooseText) (start : σ) :
    Except Stop (σ × List LooseText) := do
  let pieces ← g.classifyAll words
  let p ← g.readPieces { state := start, positionals := g.positionals } pieces
  match p.positionals.filter (·.arity ≠ .optional) with
  | [] => return (p.state, p.extras)
  | missing =>
    let labels := ", ".intercalate (missing.map (·.label))
    throw (.misuse s!"the following arguments are required: {labels}")

end Grammar

end CatalogSync.Cli
