import CatalogSync.Cli.Run

/-!
The files that a run may look at, worked out from what is known of the files so far. The settings
tell where the registry is, and the registry which files are bound; with every round in which the
files named so far are made known, the footprint reaches further, and after two it is complete.
-/

namespace CatalogSync.Cli

variable [Room]

/-- How often the footprint can grow. -/
def footprintRounds : Nat := 2

/-- The paths that a request names itself. -/
def Request.paths : Request → List Path
  | .bind _ _ (some (.text path)) => [Path.ofString path]
  | _ => []

/-- The file of the registry and the files that it binds. -/
def registryFootprint (settings : Settings) (w : Workspace) : List Path :=
  let path := settings.registryPath
  match Registry.load ({ path := path }, w) with
  | .ok () (r, _) =>
    path :: r.entries.flatMap fun e => e.mappings.map fun m => Path.ofString m.path
  | .error _ _ => [path]

/-- The paths that a run of the program may look at. -/
def footprint (storage : Option LooseText) (args : List LooseText) (w : Workspace) : List Path :=
  match Invocation.parse args with
  | .error _ => []
  | .ok i =>
    let config := i.config.join.bind (·.text?)
    let named := config.toList.map Path.ofString ++ i.request.paths
    match findSettings storage i.config w with
    | .ok (.inr settings) w => named ++ registryFootprint settings w
    | _ => named

end CatalogSync.Cli
