import ContainerProfiles.Request
import ContainerProfiles.Store.FileTree
import ContainerProfiles.Store.Layout

namespace ContainerProfiles

-- What can be asked of the files below a folder, as data, and the answers. Paths begin at the folder.

inductive FileOperation where
  | listing
  | read (path : String)
  | write (path content : String)
  | makeFolders (path : String)
  -- Folders stay.
  | removeFile (path : String)
  -- Every place of the part gets the other text instead.
  | amend (path part other : String)

inductive FileReply where
  | done
  | listing (paths : List String)
  | content (text : String)
  | amended (changed : Bool)

namespace FileTree

def changing (r : Except FileFault Unit × FileTree) : Except FileFault FileReply × FileTree :=
  (r.1.map (fun _ => .done), r.2)

def amend (t : FileTree) (path part other : String) : Except FileFault FileReply × FileTree :=
  match t.read path with
  | .error fault => (.error fault, t)
  | .ok text =>
      let amended := text.replace part other
      let (outcome, t) := t.commit (t.write path amended)
      (outcome.map (fun _ => .amended (text ≠ amended)), t)

def perform (t : FileTree) (folder : String) : FileOperation → Except FileFault FileReply × FileTree
  | .listing => ((t.locate folder).map (fun found => .listing (t.listing found.1)), t)
  | .read path => ((t.read (joinPath folder path)).map .content, t)
  | .write path content => changing (t.deposit (joinPath folder path) content)
  | .makeFolders path => changing (t.makeFolders (joinPath folder path))
  | .removeFile path => changing (t.commit (t.removeFile (joinPath folder path)))
  | .amend path part other => t.amend (joinPath folder path) part other

end FileTree

namespace Request

def fileOperation (n : Node) : Reading (Option FileOperation) := do
  match verb n with
  | "tree" => return some .listing
  | "read" => return some (.read (← text n "path"))
  | "write" => return some (.write (← text n "path") (← text n "content"))
  | "mkdir" => return some (.makeFolders (← text n "path"))
  | "delete" => return some (.removeFile (← text n "path"))
  | "tamper" => return some (.amend (← text n "path") (← text n "find") (← text n "replace"))
  | _ => return none

end Request
end ContainerProfiles
