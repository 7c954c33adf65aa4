import ContainerProfiles.Lock.Basic

namespace ContainerProfiles

-- Locks under keys, and the keys each thread holds. Nothing gives a lock back while an acquisition waits, so one
-- that is not free at once runs out of time.

-- Keys are told apart by what they name: containers, versions.
def lockKey (scope id : String) : String := scope ++ "/" ++ id

structure LockHandle where
  key : String
  mode : LockMode
  owner : Thread
  -- Which table the handle was given out by.
  generation : Nat
deriving DecidableEq

namespace LockHandle

def covers (h : LockHandle) (key : String) (mode : LockMode) : Bool :=
  h.key = key && h.mode.grants mode

def check (h : LockHandle) (key : String) (mode : LockMode) : Except LockError Unit :=
  if h.covers key mode then .ok () else .error (.notCovered key mode h.key h.mode)

end LockHandle

-- The keys one thread holds in each mode, the latest first.
structure HeldKeys where
  read : List String := []
  write : List String := []

namespace HeldKeys

def push (held : HeldKeys) (key : String) : LockMode → HeldKeys
  | .read => { held with read := key :: held.read }
  | .write => { held with write := key :: held.write }

def drop (held : HeldKeys) (key : String) : LockMode → HeldKeys
  | .read => { held with read := held.read.erase key }
  | .write => { held with write := held.write.erase key }

def grants (held : HeldKeys) (key : String) : LockMode → Bool
  | .write => key ∈ held.write
  | .read => key ∈ held.write || key ∈ held.read

end HeldKeys

structure LockTable where
  -- In milliseconds.
  timeout : UInt64
  generation : Nat := 0
  locks : Dict String LockState := ∅
  held : Dict Thread HeldKeys := ∅

namespace LockTable

def state (t : LockTable) (key : String) : LockState := (t.locks.get? key).getD {}

def heldBy (t : LockTable) (me : Thread) : HeldKeys := (t.held.get? me).getD {}

-- Whether `me` would be given the lock now.
def permit (t : LockTable) (me : Thread) (key : String) (mode : LockMode) : Except LockError Unit :=
  if (t.state key).permits me mode then .ok () else .error (.timeout key mode t.timeout)

def acquire (t : LockTable) (me : Thread) (key : String) (mode : LockMode) :
    Except LockError (LockHandle × LockTable) := do
  t.permit me key mode
  return (⟨key, mode, me, t.generation⟩,
    { t with
      locks := t.locks.insert key ((t.state key).enter me mode)
      held := t.held.insert me ((t.heldBy me).push key mode) })

-- A handle of an earlier table leaves the locks of this one alone.
def release (t : LockTable) (h : LockHandle) : LockTable :=
  let held := t.held.insert h.owner ((t.heldBy h.owner).drop h.key h.mode)
  if h.generation = t.generation then
    { t with held, locks := t.locks.insert h.key ((t.state h.key).leave h.owner h.mode) }
  else { t with held }

def holds (t : LockTable) (me : Thread) (key : String) (mode : LockMode) : Bool :=
  (t.heldBy me).grants key mode

def checkHeld (t : LockTable) (me : Thread) (key : String) (mode : LockMode) :
    Except LockError Unit :=
  if t.holds me key mode then .ok () else .error (.notHeld key mode)

-- New locks under every key; what the threads hold of the old ones stays with them.
def renew (t : LockTable) (timeout : UInt64) : LockTable :=
  { t with timeout, generation := t.generation + 1, locks := ∅ }

end LockTable

-- Handles that threads put aside, each under names of its own. One whose place is taken is given back.
structure LockSlots where
  handles : Dict (List String) LockHandle := ∅

namespace LockSlots

def handle? (s : LockSlots) (me : Thread) (name : String) : Option LockHandle :=
  s.handles.get? [me, name]

def put (s : LockSlots) (t : LockTable) (me : Thread) (name : String) (h : LockHandle) :
    LockTable × LockSlots :=
  (((s.handle? me name).map t.release).getD t, ⟨s.handles.insert [me, name] h⟩)

def clear (s : LockSlots) (me : Thread) (name : String) : LockSlots :=
  ⟨s.handles.erase [me, name]⟩

end LockSlots
end ContainerProfiles
