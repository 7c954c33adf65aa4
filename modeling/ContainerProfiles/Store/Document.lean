import ContainerProfiles.Digest.Blake3
import ContainerProfiles.Document.Json.Fitting
import ContainerProfiles.Document.Json.Printer
import ContainerProfiles.Profile.Document
import ContainerProfiles.Store.Error

namespace ContainerProfiles

-- The documents of a store on files. The document of a profile carries the digest of itself without that field.

structure VersionDocument where
  version : Version
  attributes : Attributes := ∅
  createdAt : String

structure ProfileDocument where
  profile : Profile
  updatedAt : String
  checksum : Option String := none

namespace VersionDocument

def schema : Schema :=
  .record "VersionDocument"
    [⟨"version", Version.schema, true⟩, ⟨"attributes", .attributes, false⟩,
     ⟨"created_at", .text, true⟩]

def ofNode? (n : Node) : Option VersionDocument := do
  let r ← n.record? .json ["version", "attributes", "created_at"] .ignored
  return {
    version := ← r.required "version" Version.ofNode?
    attributes := ← r.optional "attributes" Node.attributes? ∅
    createdAt := ← r.required "created_at" Node.text? }

def toNode (d : VersionDocument) : Node :=
  .table [("version", .text d.version.text), ("attributes", Node.ofAttributes d.attributes),
    ("created_at", .text d.createdAt)]

end VersionDocument

namespace ProfileDocument

def schema : Schema :=
  .record "ProfileDocument"
    [⟨"profile", Profile.schema, true⟩, ⟨"updated_at", .text, true⟩,
     ⟨"checksum", .nullable .text, false⟩]

def ofNode? (n : Node) : Option ProfileDocument := do
  let r ← n.record? .json ["profile", "updated_at", "checksum"] .ignored
  return {
    profile := ← r.required "profile" Profile.ofNode?
    updatedAt := ← r.required "updated_at" Node.text?
    checksum := ← r.optional "checksum" (Node.nullable? Node.text?) none }

def toNode (d : ProfileDocument) : Node :=
  .table ([("profile", d.profile.toNode), ("updated_at", .text d.updatedAt)]
    ++ (d.checksum.map (fun sum => ("checksum", Node.text sum))).toList)

def digest (d : ProfileDocument) : String :=
  Digest.ofText (Json.print (toNode { d with checksum := none }))

def sealed (p : Profile) (now : String) : ProfileDocument :=
  let d : ProfileDocument := { profile := p, updatedAt := now }
  { d with checksum := some d.digest }

-- A document without a checksum is taken as it is. `path` names the document in the error.
def open? (d : ProfileDocument) (path : String) : Except StoreError Profile :=
  match d.checksum with
  | none => .ok d.profile
  | some expected =>
      if d.digest = expected then .ok d.profile
      else .error (.integrity path expected d.digest)

end ProfileDocument

def formatSchema : Schema := .record "StoreVersion" [⟨"format_version", .word, true⟩]

-- The number in the format marker of a store.
def formatOfNode? (n : Node) : Option Nat := do
  let r ← n.record? .json ["format_version"] .ignored
  r.required "format_version" (Node.natural? UInt32.size)

def formatNode : Node := .table [("format_version", .integer StoreError.format)]

-- The schema finds every fault that has a place in the text; what it lets pass can be read.
def readDocument (schema : Schema) (ofNode? : Node → Option α) (text : String) :
    Except StoreError α :=
  match Json.readAs schema text with
  | .error c => .error (.malformed c.message)
  | .ok n =>
      match ofNode? n with
      | some d => .ok d
      | none => .error (.malformed "unexpected shape")

end ContainerProfiles
