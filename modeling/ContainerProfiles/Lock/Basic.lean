import ContainerProfiles.Dict

namespace ContainerProfiles

-- A lock that one thread may hold for writing or several for reading, each as often as it likes. A writer may also
-- read; a reader that asks to write waits for every reader, itself included.

abbrev Thread := String

inductive LockMode where
  | read | write
deriving DecidableEq

namespace LockMode

def text : LockMode → String
  | read => "read"
  | write => "write"

-- Holding for writing is enough wherever reading is asked for.
def grants : LockMode → LockMode → Bool
  | write, _ => true
  | read, wanted => wanted = read

end LockMode

structure LockState where
  writer : Option Thread := none
  writeHolds : Nat := 0
  -- How often each reading thread holds the lock; never zero.
  readers : Dict Thread Nat := ∅

namespace LockState

def permits (s : LockState) (me : Thread) : LockMode → Bool
  | .write => s.writer = some me || (s.writer.isNone && s.readers.isEmpty)
  | .read => s.writer = some me || s.writer.isNone

def readHolds (s : LockState) (me : Thread) : Nat := (s.readers.get? me).getD 0

def enter (s : LockState) (me : Thread) : LockMode → LockState
  | .write => { s with writer := some me, writeHolds := s.writeHolds + 1 }
  | .read => { s with readers := s.readers.insert me (s.readHolds me + 1) }

-- A thread that does not hold the lock in this mode changes nothing.
def leave (s : LockState) (me : Thread) : LockMode → LockState
  | .write =>
      if s.writer = some me then
        { s with
          writer := if s.writeHolds ≤ 1 then none else some me
          writeHolds := s.writeHolds - 1 }
      else s
  | .read =>
      if s.readHolds me = 0 then s
      else if s.readHolds me = 1 then { s with readers := s.readers.erase me }
      else { s with readers := s.readers.insert me (s.readHolds me - 1) }

end LockState

inductive LockError where
  | timeout (key : String) (mode : LockMode) (milliseconds : UInt64)
  | notHeld (key : String) (mode : LockMode)
  | notCovered (key : String) (mode : LockMode) (heldKey : String) (heldMode : LockMode)
deriving DecidableEq

namespace LockError

def message : LockError → String
  | timeout key mode milliseconds =>
      s!"timed out after {milliseconds}ms waiting for {mode.text} lock on {key}"
  | notHeld key mode => s!"{mode.text} lock on {key} not held by current thread"
  | notCovered key mode heldKey heldMode =>
      s!"{mode.text} lock on {key} required, got {heldMode.text} lock on {heldKey}"

end LockError
end ContainerProfiles
