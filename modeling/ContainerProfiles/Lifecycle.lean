namespace ContainerProfiles

-- The states a container goes through. It is started from created or stopped, stopped from started, and destroyed
-- from any state but destroyed.

inductive LifecycleState where
  | created | started | stopped | destroyed
deriving DecidableEq, Inhabited

namespace LifecycleState

def all : List LifecycleState := [.created, .started, .stopped, .destroyed]

def text : LifecycleState → String
  | .created => "created"
  | .started => "started"
  | .stopped => "stopped"
  | .destroyed => "destroyed"

def ofText? (s : String) : Option LifecycleState := all.find? (fun t => t.text = s)

def canBecome : LifecycleState → LifecycleState → Bool
  | created, started | stopped, started => true
  | started, stopped => true
  | created, destroyed | started, destroyed | stopped, destroyed => true
  | _, _ => false

theorem not_canBecome_of_destroyed (next : LifecycleState) : destroyed.canBecome next = false := by
  cases next <;> rfl

end LifecycleState
end ContainerProfiles
