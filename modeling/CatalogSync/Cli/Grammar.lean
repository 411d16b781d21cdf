import CatalogSync.Text.Loose

/-!
The grammar of a command line. Flags start with a dash and may stand anywhere; positionals are told
apart by their order. What a flag or a positional does is a function on the state `σ` that reading
builds up. The words are texts as the system hands them over: bytes of an argument that are no text
are halves of surrogate pairs in them.
-/

namespace CatalogSync.Cli

/-- What a flag does when it is given. -/
inductive FlagAction (σ : Type) where
  /-- Shows the help of the grammar. -/
  | help
  /-- Shows the version of the program. -/
  | version
  /-- Changes the state. -/
  | switch (change : σ → σ)
  /-- Takes a value; without choices any value will do. The separator alone is no value. -/
  | value (metavar : String) (choices : List String) (store : Option LooseText → σ → σ)

/-- A flag with its names, each with its dashes. -/
structure Flag (σ : Type) where
  names : List String
  action : FlagAction σ
  help : String

/-- How many words a positional takes. -/
inductive Arity where
  | one
  | optional
  /-- One word and everything after it, flags too. -/
  | rest
deriving DecidableEq, Repr

/-- A positional. `label` names it in messages, `metavar` in the usage. Choices bind its first
word; those that are listed come with a help text each. -/
structure Positional (σ : Type) where
  label : String
  metavar : String := label
  arity : Arity := .one
  choices : List String := []
  listing : List (String × String) := []
  help : String := ""
  store : List LooseText → σ → σ

/-- The grammar of a program or of one of its commands; its flags stand in titled sections. -/
structure Grammar (σ : Type) where
  program : String
  description : List String := []
  sections : List (String × List (Flag σ))
  positionals : List (Positional σ)
  epilog : List String := []

/-- How choices are shown in the usage. -/
def choiceMetavar (choices : List String) : String :=
  "\x7b" ++ ",".intercalate choices ++ "\x7d"

namespace Flag

variable {σ : Type}

def takesValue (f : Flag σ) : Bool :=
  match f.action with
  | .value _ _ _ => true
  | _ => false

/-- The name of a flag in messages. -/
def label (f : Flag σ) : String := "/".intercalate f.names

/-- The flag that every grammar has. -/
def forHelp : Flag σ := ⟨["-h", "--help"], .help, "show this help message and exit"⟩

end Flag

namespace Grammar

variable {σ : Type}

def flags (g : Grammar σ) : List (Flag σ) := g.sections.flatMap (·.2)

/-- The names of all flags, in their order. -/
def named (g : Grammar σ) : List (String × Flag σ) :=
  g.flags.flatMap fun f => f.names.map fun name => (name, f)

def flag? (g : Grammar σ) (name : String) : Option (Flag σ) :=
  (g.named.find? (·.1 = name)).map (·.2)

end Grammar

end CatalogSync.Cli
