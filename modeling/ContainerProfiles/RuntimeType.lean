import ContainerProfiles.Dict
import ContainerProfiles.Profile.Error
import ContainerProfiles.Text.Cut

namespace ContainerProfiles

-- The kinds of runtime a container may live in, and the directives that restrict a configuration to some of them.

inductive RuntimeType where
  | karaf | tomcat | wildfly | other
deriving DecidableEq, Inhabited

namespace RuntimeType

def all : List RuntimeType := [.karaf, .tomcat, .wildfly, .other]

def text : RuntimeType → String
  | .karaf => "karaf"
  | .tomcat => "tomcat"
  | .wildfly => "wildfly"
  | .other => "other"

def ofText? (s : String) : Option RuntimeType := all.find? (fun t => t.text = s)

-- Upper case ASCII letters count as lower case ones.
def lowered (s : String) : String := String.ofList (s.toList.map Char.toLower)

def read (s : String) : Except ProfileError RuntimeType :=
  match ofText? (lowered (Text.trim s)) with
  | some t => .ok t
  | none => .error (.unknownRuntimeType s)

end RuntimeType

namespace Directives

def includeKey : String := "include.runtime.type"
def excludeKey : String := "exclude.runtime.type"

-- The non-blank pieces of a directive; a directive without any says nothing.
def listed (directives : Attributes) (key : String) : Option (List String) :=
  match directives.get? key with
  | none => none
  | some raw =>
      let names := ((Text.pieces ',' raw).map (fun p => RuntimeType.lowered (Text.trim p))).filter
        (· ≠ "")
      if names.isEmpty then none else some names

def admits (directives : Attributes) (current : RuntimeType) : Bool :=
  let included := match listed directives includeKey with
    | none => true
    | some names => names.contains current.text
  let excluded := match listed directives excludeKey with
    | none => false
    | some names => names.contains current.text
  included && !excluded

end Directives
end ContainerProfiles
