import ContainerProfiles.Document.Node
import ContainerProfiles.Profile.Document

namespace ContainerProfiles

-- Requests: documents that name what is to be done under `do`, with its arguments beside it. An argument that is
-- missing or `null` is told apart from one of the wrong shape, and a version that cannot be read from both.

inductive RequestError where
  | malformed
  | version (cause : ProfileError)
deriving DecidableEq

abbrev Reading (α : Type) := Except RequestError α

namespace Request

def field? (n : Node) (name : String) : Option Node :=
  match n with
  | .table entries => (entries.find? (fun e => e.1 = name)).map (·.2)
  | _ => none

def decode (one : Node → Option α) (n : Node) : Reading α :=
  match one n with
  | some x => .ok x
  | none => .error .malformed

def get (one : Node → Option α) (n : Node) (name : String) : Reading α :=
  match field? n name with
  | some v => decode one v
  | none => .error .malformed

def get? (one : Node → Option α) (n : Node) (name : String) : Reading (Option α) :=
  match field? n name with
  | none | some .null => .ok none
  | some v => (decode one v).map some

def getOr (one : Node → Option α) (n : Node) (name : String) (missing : α) : Reading α :=
  (get? one n name).map (·.getD missing)

def text (n : Node) (name : String) : Reading String := get Node.text? n name
def text? (n : Node) (name : String) : Reading (Option String) := get? Node.text? n name
def texts (n : Node) (name : String) : Reading (List String) := get (Node.list? Node.text?) n name
-- A flag is set by `true` and by nothing else.
def flag (n : Node) (name : String) : Bool := ((field? n name).bind Node.truth?).getD false
def number (n : Node) (name : String) : Reading Nat := get (Node.natural? UInt64.size) n name

def attributes (n : Node) (name : String) : Reading Attributes := getOr Node.attributes? n name ∅

def resources (n : Node) (name : String) : Reading (List Resource) :=
  getOr (Node.list? Resource.ofNode?) n name []

def requirements (n : Node) (name : String) : Reading (List Requirement) :=
  getOr (Node.list? Requirement.ofNode?) n name []

def profile (n : Node) (name : String) : Reading Profile := get Profile.ofNode? n name
def profiles (n : Node) (name : String) : Reading (List Profile) :=
  getOr (Node.list? Profile.ofNode?) n name []

def readVersion (s : String) : Reading Version := (Version.read s).mapError .version

def version (n : Node) (name : String) : Reading Version := do readVersion (← text n name)

def version? (n : Node) (name : String) : Reading (Option Version) := do
  match ← text? n name with
  | some s => return some (← readVersion s)
  | none => return none

-- What is to be done.
def verb (n : Node) : String := ((field? n "do").bind Node.text?).getD ""

end Request
end ContainerProfiles
