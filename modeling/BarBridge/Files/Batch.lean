import BarBridge.Artifact
import BarBridge.Files.Tree

/-!
# Writing a batch of artifacts

Artifacts are written below an output directory one after the other. The first that cannot be
written ends the batch: those before it stay written, those behind it are not touched.
-/

namespace BarBridge.FileTree

/-- Writes artifacts below a directory. Answers the tree and the paths written. -/
def writeBatch (t : FileTree) (cwd root : String) :
    List Artifact → FileTree × Except IoCause (List String)
  | [] => (t, .ok [])
  | a :: rest =>
    match t.writeFile cwd (Path.join root a.path) a.contents with
    | (t, .error cause) => (t, .error cause)
    | (t, .ok ()) =>
      match writeBatch t cwd root rest with
      | (t, .ok paths) => (t, .ok (Path.join root a.path :: paths))
      | (t, .error cause) => (t, .error cause)

end BarBridge.FileTree
