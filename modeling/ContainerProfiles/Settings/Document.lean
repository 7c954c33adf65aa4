import ContainerProfiles.Document.Toml.Printer
import ContainerProfiles.Document.Toml.Reader
import ContainerProfiles.OperationError
import ContainerProfiles.Settings.Basic
import ContainerProfiles.Store.FileTree

namespace ContainerProfiles.Settings

-- Settings as a TOML document. Every key may be missing, and keys that mean nothing are passed over.

def ofNode? (format : Format) (n : Node) : Option Settings := do
  let standard : Settings := {}
  let r ← n.record? format
    ["lock_timeout_ms", "default_version", "default_profile", "current_container", "runtime_type"]
    .ignored
  return {
    lockTimeout := ← r.optional "lock_timeout_ms"
      (fun n => (n.natural? UInt64.size).map UInt64.ofNat) standard.lockTimeout
    defaultVersion := ← r.optional "default_version" Node.text? standard.defaultVersion
    defaultProfile := ← r.optional "default_profile" Node.text? standard.defaultProfile
    currentContainer := ← r.optional "current_container" Node.text? standard.currentContainer
    runtime := ← r.optional "runtime_type" (fun n => (n.choice? format).bind RuntimeType.ofText?)
      standard.runtime }

def toNode (s : Settings) : Node :=
  .table [("lock_timeout_ms", .integer s.lockTimeout.toNat),
    ("default_version", .text s.defaultVersion), ("default_profile", .text s.defaultProfile),
    ("current_container", .text s.currentContainer), ("runtime_type", .text s.runtime.text)]

-- `path` names the document in the error.
def load (path text : String) : Except SettingsError Settings :=
  match (Toml.read text).bind (ofNode? .toml) with
  | none => .error (.unreadable path)
  | some s => do
      s.check
      return s

-- Numbers of a TOML document have a sign, so half of the timeouts cannot be written.
def save (s : Settings) : Except SettingsError String :=
  if UInt64.size / 2 ≤ s.lockTimeout.toNat then .error .timeoutTooLarge
  else
    .ok ("lock_timeout_ms = " ++ toString s.lockTimeout
      ++ "\ndefault_version = " ++ Toml.string s.defaultVersion
      ++ "\ndefault_profile = " ++ Toml.string s.defaultProfile
      ++ "\ncurrent_container = " ++ Toml.string s.currentContainer
      ++ "\nruntime_type = " ++ Toml.string s.runtime.text ++ "\n")

-- The folders above the file are made first, also when the settings cannot be written then.
def saveTo (s : Settings) (tree : FileTree) (path : String) : Except OperationError Unit × FileTree :=
  match tree.makeFolders (FileTree.parent path) with
  | (.error fault, tree) => (.error (.file fault), tree)
  | (.ok (), tree) =>
      match s.save with
      | .error cause => (.error (.settings cause), tree)
      | .ok text =>
          let (outcome, tree) := tree.commit (tree.write path text)
          (outcome.mapError .file, tree)

end ContainerProfiles.Settings
