import ContainerProfiles.Document.Json.Printer
import ContainerProfiles.Event.Document
import ContainerProfiles.Profile.Document

namespace ContainerProfiles.CommandLine

-- What the commands print: lines for a reader, or a document in JSON.

def lines (ls : List String) : String := String.join (ls.map (· ++ "\n"))

def document (n : Node) : String := Json.print n ++ "\n"

-- Filled up with blanks to a width in characters.
def column (width : Nat) (s : String) : String :=
  s ++ String.ofList (List.replicate (width - s.length) ' ')

def configurationLines (c : Configuration) : List String :=
  c.attributes.entries.map (fun e => "  [" ++ c.name ++ "] " ++ e.1 ++ " = " ++ e.2)

def marks (r : ResourceItem) : String :=
  match r.shared, r.isAbstract with
  | false, false => ""
  | true, false => " (shared)"
  | false, true => " (abstract)"
  | true, true => " (shared, abstract)"

-- An optional requirement is marked by its own text and once more at the end.
def itemLines : Item → List String
  | .configuration item =>
      ("config    " ++ item.id) :: item.configurations.flatMap configurationLines
  | .resource item => ["resource  " ++ item.id ++ " -> " ++ item.resource.identity ++ marks item]
  | .requirement item =>
      ["require   " ++ item.id ++ " -> " ++ item.requirement.text
        ++ (if item.requirement.optional then " (optional)" else "")]

def profileLines (p : Profile) : List String :=
  ["profile:  " ++ p.identity, "version:  " ++ p.version.text]
    ++ (if p.parents.isEmpty then [] else ["parents:  " ++ String.intercalate ", " p.parents])
    ++ p.attributes.entries.map (fun e => "attr:     " ++ e.1 ++ " = " ++ e.2)
    ++ p.items.flatMap itemLines

def versionLines : List ProfileVersion → List String
  | [] => ["no profile versions found"]
  | listed =>
      (column 12 "VERSION" ++ " PROFILES")
        :: listed.map (fun v => column 12 v.version.text ++ " " ++ toString v.profiles.length)

def tableLines (version : Version) : List Profile → List String
  | [] => ["no profiles in version " ++ version.text]
  | profiles =>
      (column 24 "PROFILE" ++ " " ++ column 6 "ITEMS" ++ " PARENTS")
        :: profiles.map (fun p =>
          column 24 p.identity ++ " " ++ column 6 (toString p.items.length) ++ " "
            ++ String.intercalate "," p.parents)

-- What provisioning a throwaway container came to.
structure DryRun where
  container : ContainerId
  effective : Option ProfileId
  installed : List ResourceId
  configuration : Dict String Attributes
  events : List ProvisionEvent
  error : Option String

namespace DryRun

def toNode (r : DryRun) : Node :=
  .table [("container", .text r.container), ("effective_profile", Node.ofText? r.effective),
    ("installed", .list (r.installed.map .text)),
    ("configuration", .table (r.configuration.entries.map (fun e => (e.1, Node.ofAttributes e.2)))),
    ("events", .list (r.events.map (fun e => .table e.fields))), ("error", Node.ofText? r.error)]

def shownLines (r : DryRun) : List String :=
  r.effective.toList.map ("effective profile: " ++ ·)
    ++ r.installed.map ("install   " ++ ·)
    ++ r.configuration.entries.flatMap (fun e =>
      ("configure " ++ e.1) :: e.2.entries.map (fun a => "  " ++ a.1 ++ " = " ++ a.2))

end DryRun
end ContainerProfiles.CommandLine
