import CatalogSync.Proofs.Cli.Exit
import CatalogSync.Proofs.Cli.Perform
import CatalogSync.Proofs.Collect

/-!
Runs of the program on the registry, one after another. The file of the registry keeps its entries in
order through all of them, and each run changes it as its command says or not at all.
-/

namespace CatalogSync.Cli

section
variable {r : Registry} {w : Workspace} {request : Request} {files : FileTree} [Room]

/-! ### The command of a run -/

variable {surroundings : Surroundings} {args : List LooseText}

end

section
open scoped Room

/-- No database is in reach. -/
def desk : Surroundings where
  databases url := inspect url { connectError := some "out of reach" } true
  time := ""

/-- What is left when a database was added and a file was bound to it. -/
def shopBound : Workspace :=
  (run desk ["map", "shop", "json", "shop.json"]
    (run desk ["add", "shop", "mysql://host/shop"] .bare).2).2

end

end CatalogSync.Cli
