import ContainerProfiles.Dict
import ContainerProfiles.Event.Basic

namespace ContainerProfiles

-- Who is told. A listener of the call itself hears first, then the others in the order in which they were
-- registered. A latch counts down with every container provisioned and opens at zero.

structure Latch where
  container : ContainerId
  remaining : Nat

namespace Latch

def hear (l : Latch) (e : ProvisionEvent) : Latch :=
  if e.container = l.container && e.stage = .provisioned then
    { l with remaining := l.remaining - 1 }
  else l

def isOpen (l : Latch) : Bool := l.remaining = 0

end Latch

inductive Listener where
  -- Writes down what it hears.
  | recorder (name : String)
  -- Looks at the container whenever provisioning begins.
  | observer
  | latch (name : String)
deriving DecidableEq

structure Audience where
  provision : List Listener := []
  profile : List String := []
  latches : Dict String Latch := ∅

namespace Audience

def addProvision (a : Audience) (l : Listener) : Audience :=
  { a with provision := a.provision ++ [l] }

def addProfile (a : Audience) (name : String) : Audience := { a with profile := a.profile ++ [name] }

-- A latch takes the place of an older one of its name.
def addLatch (a : Audience) (name : String) (l : Latch) : Audience :=
  { a with
    provision := a.provision.filter (· ≠ .latch name) ++ [.latch name]
    latches := a.latches.insert name l }

abbrev Sight := Option (LifecycleState × List ResourceId)

-- `seen` is how the container shows itself at this moment.
def noticeOf (seen : Sight) (e : ProvisionEvent) : Listener → List Notice
  | .recorder name => [.heard name (.provision e)]
  | .observer =>
      match e.stage, seen with
      | .provisioning, some (state, installed) => [.observed state installed]
      | _, _ => []
  | .latch _ => []

def provisionNotices (a : Audience) (seen : Sight) (caller : Option String) (e : ProvisionEvent) :
    List Notice :=
  (caller.toList.map Listener.recorder ++ a.provision).flatMap (noticeOf seen e)

def profileNotices (a : Audience) (caller : Option String) (e : ProfileEvent) : List Notice :=
  (caller.toList ++ a.profile).map (fun name => .heard name (.profile e))

-- The latches that listen have counted this event.
def count (a : Audience) (e : ProvisionEvent) : Audience :=
  { a with
    latches := a.provision.foldl (fun latches l => match l with
      | .latch name =>
          match latches.get? name with
          | some latch => latches.insert name (latch.hear e)
          | none => latches
      | _ => latches) a.latches }

end Audience
end ContainerProfiles
