import ContainerProfiles.Version.Reader

namespace ContainerProfiles

-- Why a profile, or the definition it is made from, is refused.

inductive ProfileError where
  | unreadable (reason : String)
  | malformed (reason : String)
  | unsupportedDefinition (version : Nat)
  | emptyIdentity (what : String)
  | selfParent (profile : String)
  | duplicateParent (profile parent : String)
  | duplicateItem (profile item : String)
  | invalidVersion (input : String) (fault : Version.Fault)
  | missingVersion (profile : String)
  | invalidCapability (spec : String)
  | unknownRuntimeType (name : String)
deriving DecidableEq

namespace ProfileError

def message : ProfileError → String
  | unreadable reason => "failed to read profile definition: " ++ reason
  | malformed reason => "failed to parse profile definition: " ++ reason
  | unsupportedDefinition version =>
      "unsupported definition_version: " ++ toString version ++ ", expected 1"
  | emptyIdentity what => what ++ " identity must not be empty"
  | selfParent profile => s!"profile '{profile}' lists itself as parent"
  | duplicateParent profile parent => s!"profile '{profile}' lists parent '{parent}' more than once"
  | duplicateItem profile item => s!"profile '{profile}' declares item '{item}' more than once"
  | invalidVersion input fault => s!"invalid version '{input}': " ++ fault.text
  | missingVersion profile => s!"profile '{profile}' declares no version and none was supplied"
  | invalidCapability spec => s!"invalid capability '{spec}', expected '<namespace>:<name>'"
  | unknownRuntimeType name => s!"unknown runtime type: {name}"

end ProfileError

def Version.read (s : String) : Except ProfileError Version :=
  (Version.parse s).mapError (.invalidVersion s)

end ContainerProfiles
