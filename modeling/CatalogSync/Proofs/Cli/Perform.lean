import CatalogSync.Proofs.Cli.Exit
import CatalogSync.Proofs.Files.Writing
import CatalogSync.Proofs.Registry.Orderly

/-!
Commands on the registry. A command that ends in success does to the entries what it says and leaves
them in the file; one that ends in any other way changes no file.
-/

namespace CatalogSync.Cli

open DatabaseEntry (SetsPath)

/-- What a command on the registry that ends in success does to the entries. -/
def Request.Alters : Request → List DatabaseEntry → List DatabaseEntry → Prop
  | .list, es, es' => es' = es
  | .add name url, es, es' =>
    ∃ n u, name = .text n ∧ url = some (.text u) ∧ es' = es ++ [{ name := n, url := .text u }]
  | .remove name, es, es' =>
    ∃ front e back, es = front ++ e :: back ∧ name = .text e.name ∧ es' = front ++ back
  | .bind name f path, es, es' => ∃ g p, f = some g ∧ path = some (.text p) ∧
    ∃ front e back files, es = front ++ e :: back ∧ name = .text e.name ∧
      SetsPath g p e.mappings files ∧ es' = front ++ { e with mappings := files } :: back
  | .sync _, es, es' | .view _ _ _, es, es' | .write _ _, es, es' => es' = es

variable {r : Registry} {w : Workspace} {request : Request} {files : FileTree} [Room]

/-- Making the directory of the registry leaves what stands at the path of its file, where an address
has halves of pairs. -/
def Request.Steady (request : Request) (path : Path) (files : FileTree) : Prop :=
  ∀ name url, request = .add name (some url) → url.isBroken →
    (files.prepared path).1.bytes path = files.bytes path

/-- It always does, where the path never leads back. -/
theorem Request.steady_of_inside {path : Path} (hsound : files.Sound) (hinside : path.Inside)
    (hwritable : files.Writable path) (request : Request) : request.Steady path files :=
  fun _ _ _ _ => FileTree.bytes_prepared hsound hinside hwritable

end CatalogSync.Cli
