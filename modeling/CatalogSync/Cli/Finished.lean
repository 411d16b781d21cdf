import CatalogSync.Fault

/-!
How a run of the program ends: with an exit code or with a fault that nothing handles, and with what
was printed until then. The stream for output takes texts that UTF-8 encodes, and half of a surrogate
pair is a fault there; the stream for errors takes its escape.
-/

namespace CatalogSync.Cli

/-- The exit codes of the program. -/
inductive ExitCode where
  | success
  /-- A file could not be read or written, or a database could not be reached. -/
  | workFailed
  /-- The command line or a schema does not follow its grammar. -/
  | malformed
  /-- The settings, the registry or the names given do not allow the command. -/
  | badInput
deriving DecidableEq, Repr

namespace ExitCode

def number : ExitCode → Nat
  | success => 0
  | workFailed => 1
  | malformed => 2
  | badInput => 4

/-- All exit codes, success first. -/
def all : List ExitCode := [success, workFailed, malformed, badInput]

end ExitCode

structure Finished where
  exit : Except Fault ExitCode
  /-- What was printed. -/
  output : String := ""
  /-- What was printed to the stream for errors. -/
  errors : String := ""

end CatalogSync.Cli
