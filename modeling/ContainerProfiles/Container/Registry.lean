import ContainerProfiles.Container.Basic
import ContainerProfiles.OperationError

namespace ContainerProfiles

-- The live containers. Identities of destroyed containers are remembered until they are used again.

structure ContainerRegistry where
  live : Dict ContainerId Container := ∅
  destroyed : KeySet ContainerId := ∅

namespace ContainerRegistry

def contains (r : ContainerRegistry) (id : ContainerId) : Bool := r.live.contains id

def isDestroyed (r : ContainerRegistry) (id : ContainerId) : Bool := r.destroyed.contains id

def size (r : ContainerRegistry) : Nat := r.live.size

-- In the order of their identities.
def list (r : ContainerRegistry) : List Container := r.live.values

def get (r : ContainerRegistry) (id : ContainerId) : Except OperationError Container :=
  match r.live.get? id with
  | some c => .ok c
  | none => .error (.containerNotFound id)

-- As `get`, where a destroyed container cannot be brought to the `aim` any more.
def getFor (r : ContainerRegistry) (id : ContainerId) (aim : String) :
    Except OperationError Container :=
  if r.isDestroyed id && !r.contains id then .error (.invalidTransition id .destroyed aim)
  else r.get id

def register (r : ContainerRegistry) (c : Container) : Except OperationError ContainerRegistry :=
  if r.contains c.identity then .error (.containerExists c.identity)
  else .ok { live := r.live.insert c.identity c, destroyed := r.destroyed.erase c.identity }

-- Only what is live becomes destroyed.
def remove (r : ContainerRegistry) (id : ContainerId) : ContainerRegistry :=
  if r.contains id then { live := r.live.erase id, destroyed := r.destroyed.add id } else r

-- Changes a live container; another identity changes nothing.
def modify (r : ContainerRegistry) (id : ContainerId) (change : Container → Container) :
    ContainerRegistry :=
  match r.live.get? id with
  | some c => { r with live := r.live.insert id (change c) }
  | none => r

end ContainerRegistry

-- A container someone keeps: it stays as it was when it was removed.
inductive KeptContainer where
  | live (id : ContainerId)
  | gone (last : Container)

namespace KeptContainer

def see (r : ContainerRegistry) : KeptContainer → Option Container
  | live id => r.live.get? id
  | gone last => some last

-- To be asked before `id` is removed.
def beforeRemoval (r : ContainerRegistry) (id : ContainerId) : KeptContainer → KeptContainer
  | live kept =>
      if kept = id then
        match r.live.get? id with
        | some c => gone c
        | none => live kept
      else live kept
  | kept => kept

end KeptContainer
end ContainerProfiles
