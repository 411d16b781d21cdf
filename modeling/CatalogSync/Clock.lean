import CatalogSync.Number.Binary64

/-!
Time as the program measures it. A clock shows a time and moves on by one tick whenever it is read;
a timer remembers when it was started and, once stopped, the time between.
-/

namespace CatalogSync

/-- A clock that moves on by its tick at every reading. -/
structure Clock where
  now : Binary64 := .zero
  tick : Binary64
deriving DecidableEq, Repr

/-- The time shown, and the clock after that. -/
def Clock.read (c : Clock) : Binary64 × Clock := (c.now, { c with now := c.now.add c.tick })

/-- The measurement of one step. -/
structure Timer where
  label : String
  started : Option Binary64 := none
  elapsed : Binary64 := .zero
deriving DecidableEq, Repr

namespace Timer

def start (t : Timer) (now : Binary64) : Timer := { t with started := some now }

/-- The timer with the time since its start; one that was never started keeps what it has. -/
def stop (t : Timer) (now : Binary64) : Timer :=
  match t.started with
  | some started => { t with elapsed := now.sub started }
  | none => t

end Timer

end CatalogSync
