import ContainerProfiles.Profile.Basic
import ContainerProfiles.Provision.Provisioner

namespace ContainerProfiles

-- One pass that brings what is installed on a container in line with an effective profile: configurations first,
-- then removals from the newest on, then what is missing in the order of the plan. A step that fails ends the
-- pass, and the steps before it stay.

structure Pass where
  outcome : Except ProvisionError Unit
  provisioner : Provisioner
  installed : List Installed

-- A resource that has to be there.
structure Wanted where
  resource : Resource
  shared : Bool
deriving DecidableEq

namespace Profile

-- Resources the profile installs on its own account.
def explicitItems (p : Profile) : List ResourceItem := p.resourceItems.filter (!·.isAbstract)

def requirements (p : Profile) : List Requirement := p.requirementItems.map (·.requirement)

-- The repository's resources with the explicit ones fixed.
def environment (p : Profile) (env : Environment) : Environment :=
  (p.explicitItems.map (·.resource)).foldl Environment.addFixed env

end Profile

namespace Provisioner

def applyConfigurations (p : Provisioner) (runtime : RuntimeType) :
    List ConfigurationItem → Except ProvisionError Unit × Provisioner
  | [] => (.ok (), p)
  | item :: rest =>
      match item.attributesFor runtime with
      | none => p.applyConfigurations runtime rest
      | some attributes =>
          match p.configure item.id attributes with
          | .error e => (.error e, p)
          | .ok p => p.applyConfigurations runtime rest

-- An identity keeps its first place and takes its last declaration.
def addWanted (plan : List Wanted) (w : Wanted) : List Wanted :=
  alterFirst (fun v => v.resource.identity = w.resource.identity) (fun _ => w) w plan

def plan (p : Provisioner) (effective : Profile) : Except ProvisionError (List Wanted) :=
  let found := (effective.environment p.repository.environment).resolve effective.requirements
  if found.satisfied then
    let resolved := found.resources.map (fun r => Wanted.mk r false)
    let explicit := effective.explicitItems.map (fun i => Wanted.mk i.resource i.shared)
    .ok ((resolved ++ explicit).foldl addWanted [])
  else .error (.unsatisfied found.unsatisfied)

-- Follows the list from its end; `kept` is what stays of the part already seen.
def releaseFrom (p : Provisioner) (stays : ResourceId → Bool) (kept : List Installed) :
    List Installed → Pass
  | [] => ⟨.ok (), p, kept⟩
  | r :: rest =>
      if stays r.identity then p.releaseFrom stays (r :: kept) rest
      else
        match p.release r with
        | .error e => ⟨.error e, p, rest.reverse ++ r :: kept⟩
        | .ok p => p.releaseFrom stays kept rest

def releaseUnwanted (p : Provisioner) (stays : ResourceId → Bool) (installed : List Installed) :
    Pass :=
  p.releaseFrom stays [] installed.reverse

def installMissing (p : Provisioner) (installed : List Installed) : List Wanted → Pass
  | [] => ⟨.ok (), p, installed⟩
  | w :: rest =>
      if installed.any (fun r => r.identity = w.resource.identity) then
        p.installMissing installed rest
      else
        match p.put w.resource w.shared with
        | .error e => ⟨.error e, p, installed⟩
        | .ok (r, p) => p.installMissing (installed ++ [r]) rest

def reconcile (p : Provisioner) (runtime : RuntimeType) (effective : Profile)
    (installed : List Installed) : Pass :=
  match p.applyConfigurations runtime effective.configurationItems with
  | (.error e, p) => ⟨.error e, p, installed⟩
  | (.ok (), p) =>
      match p.plan effective with
      | .error e => ⟨.error e, p, installed⟩
      | .ok plan =>
          let stays (id : ResourceId) := plan.any (fun w => w.resource.identity = id)
          let cleared := p.releaseUnwanted stays installed
          match cleared.outcome with
          | .error _ => cleared
          | .ok () => cleared.provisioner.installMissing cleared.installed plan

-- Everything goes, the newest first.
def releaseAll (p : Provisioner) (installed : List Installed) : Pass :=
  p.releaseUnwanted (fun _ => false) installed

end Provisioner
end ContainerProfiles
