import ContainerProfiles.Provision.Error
import ContainerProfiles.Provision.Repository

namespace ContainerProfiles

-- What was last applied to each target. Applying what a target holds already is no write.
structure Targets where
  held : Dict String Attributes := ∅
  writes : Nat := 0

namespace Targets

def apply (t : Targets) (target : String) (attributes : Attributes) :
    Except ProvisionError (Bool × Targets) :=
  if target = "" then .error .emptyTarget
  else if t.held.get? target = some attributes then .ok (false, t)
  else .ok (true, { held := t.held.insert target attributes, writes := t.writes + 1 })

end Targets

-- A resource on a container.
structure Installed where
  identity : ResourceId
  handle : Handle
  shared : Bool
deriving DecidableEq

structure SharedResource where
  handle : Handle
  -- How many containers use it; at least one.
  users : Nat
deriving DecidableEq

-- What is refused for the time being, whatever else speaks for it.
structure Refusals where
  uninstalls : KeySet ResourceId := ∅
  targets : KeySet String := ∅
  updates : KeySet String := ∅

inductive Refusal where
  | uninstall (id : ResourceId)
  | target (name : String)
  | update (profile : String)

namespace Refusals

def contains (held : Refusals) : Refusal → Bool
  | .uninstall id => held.uninstalls.contains id
  | .target name => held.targets.contains name
  | .update id => held.updates.contains id

def add (held : Refusals) : Refusal → Refusals
  | .uninstall id => { held with uninstalls := KeySet.add held.uninstalls id }
  | .target name => { held with targets := KeySet.add held.targets name }
  | .update id => { held with updates := KeySet.add held.updates id }

def erase (held : Refusals) : Refusal → Refusals
  | .uninstall id => { held with uninstalls := held.uninstalls.erase id }
  | .target name => { held with targets := held.targets.erase name }
  | .update id => { held with updates := held.updates.erase id }

end Refusals

-- What provisioning acts upon: the repository, the configuration targets, and the resources that containers share.
-- A shared resource is installed for its first user and uninstalled with its last.
structure Provisioner where
  repository : Repository := .ofResources []
  targets : Targets := {}
  shared : Dict ResourceId SharedResource := ∅
  refusals : Refusals := {}

namespace Provisioner

def configure (p : Provisioner) (target : String) (attributes : Attributes) :
    Except ProvisionError Provisioner := do
  if p.refusals.targets.contains target then throw (.targetRefused target)
  let (_, targets) ← p.targets.apply target attributes
  return { p with targets }

def install (p : Provisioner) (r : Resource) : Except ProvisionError (Handle × Provisioner) := do
  let (handle, repository) ← p.repository.install r
  return (handle, { p with repository })

def uninstall (p : Provisioner) (handle : Handle) : Except ProvisionError Provisioner := do
  if p.refusals.uninstalls.contains handle.resource.identity then
    throw (.uninstallRefused handle.resource.identity)
  return { p with repository := ← p.repository.uninstall handle }

def installShared (p : Provisioner) (r : Resource) : Except ProvisionError (Handle × Provisioner) :=
  match p.shared.get? r.identity with
  | some use =>
      .ok (use.handle,
        { p with shared := p.shared.insert r.identity { use with users := use.users + 1 } })
  | none => do
      let (handle, p) ← p.install r
      return (handle, { p with shared := p.shared.insert r.identity ⟨handle, 1⟩ })

def releaseShared (p : Provisioner) (id : ResourceId) : Except ProvisionError Provisioner :=
  match p.shared.get? id with
  | none => .ok p
  | some use =>
      if use.users > 1 then
        .ok { p with shared := p.shared.insert id { use with users := use.users - 1 } }
      else do
        let p ← p.uninstall use.handle
        return { p with shared := p.shared.erase id }

def put (p : Provisioner) (r : Resource) (shared : Bool) :
    Except ProvisionError (Installed × Provisioner) := do
  let (handle, p) ← if shared then p.installShared r else p.install r
  return (⟨r.identity, handle, shared⟩, p)

def release (p : Provisioner) (r : Installed) : Except ProvisionError Provisioner :=
  if r.shared then p.releaseShared r.identity else p.uninstall r.handle

def sharedUsers (p : Provisioner) (id : ResourceId) : Nat := ((p.shared.get? id).map (·.users)).getD 0

end Provisioner
end ContainerProfiles
