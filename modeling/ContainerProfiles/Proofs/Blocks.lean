import ContainerProfiles.Proofs.ForestRuns
import ContainerProfiles.Proofs.Refusals
import ContainerProfiles.Proofs.Telling

namespace ContainerProfiles

-- What one operation tells of one container is a block: a pass from its beginning to its end, a pass that could
-- not begin, or a removal. The block and the answer of the operation say the same.

namespace ProvisionEvent

def began (id : ContainerId) (effective : ProfileId) : ProvisionEvent :=
  { container := id, stage := .provisioning, profile := some effective }

def passed (id : ContainerId) (effective : ProfileId) : ProvisionEvent :=
  { container := id, stage := .provisioned, profile := some effective }

def failed (id : ContainerId) (effective : Option ProfileId) (text : String) : ProvisionEvent :=
  { container := id, stage := .error, profile := effective, error := some text }

def removed (id : ContainerId) : ProvisionEvent := { container := id, stage := .removed }

end ProvisionEvent

-- Both events of a pass name the same effective profile.
inductive Block (id : ContainerId) : List ProvisionEvent → Prop
  | passed (effective : ProfileId) : Block id [.began id effective, .passed id effective]
  | failed (effective : ProfileId) (text : String) :
      Block id [.began id effective, .failed id (some effective) text]
  | unread (text : String) : Block id [.failed id none text]
  | removed : Block id [.removed id]

theorem Block.about {id : ContainerId} {events : List ProvisionEvent} (block : Block id events) :
    ∀ e ∈ events, e.container = id := by
  intro e member
  cases block with
  | passed effective =>
      simp only [List.mem_cons, List.not_mem_nil, or_false] at member
      rcases member with rfl | rfl <;> rfl
  | failed effective text =>
      simp only [List.mem_cons, List.not_mem_nil, or_false] at member
      rcases member with rfl | rfl <;> rfl
  | unread text =>
      rw [List.mem_singleton.mp member]
      rfl
  | removed =>
      rw [List.mem_singleton.mp member]
      rfl

-- The block of a pass against one effective profile, however the pass ended.
def PassBlock (id : ContainerId) (effective : ProfileId) (events : List ProvisionEvent) : Prop :=
  events = [.began id effective, .passed id effective] ∨
    ∃ text, events = [.began id effective, .failed id (some effective) text]

theorem PassBlock.block {id : ContainerId} {effective : ProfileId} {events : List ProvisionEvent}
    (told : PassBlock id effective events) : Block id events := by
  rcases told with rfl | ⟨text, rfl⟩
  · exact .passed effective
  · exact .failed effective text

-- An answer together with what was told: a pass that ended well is a success, one that did not is the error
-- whose text was told. Without a pass there may be either.
inductive Reported (id : ContainerId) : Except OperationError α → List ProvisionEvent → Prop
  | silent (x : Except OperationError α) : Reported id x []
  | passed (effective : ProfileId) (a : α) : Reported id (.ok a) [.began id effective, .passed id effective]
  | failed (effective : ProfileId) (e : OperationError) :
      Reported id (.error e) [.began id effective, .failed id (some effective) e.message]
  | unread (e : OperationError) : Reported id (.error e) [.failed id none e.message]

namespace Reported

variable {id : ContainerId} {x : Except OperationError α} {events : List ProvisionEvent}

theorem block (reported : Reported id x events) : events = [] ∨ Block id events := by
  cases reported with
  | silent x => exact .inl rfl
  | passed effective a => exact .inr (.passed effective)
  | failed effective e => exact .inr (.failed effective e.message)
  | unread e => exact .inr (.unread e.message)

theorem map (f : α → β) (reported : Reported id x events) : Reported id (x.map f) events := by
  cases reported with
  | silent x => exact .silent _
  | passed effective a => exact .passed effective (f a)
  | failed effective e => exact .failed effective e
  | unread e => exact .unread e

end Reported

namespace Deployment

variable {s t : Deployment} {me : Thread} {caller : Option String} {events : List ProvisionEvent}

-- No started container is there under this identity.
def Idle (s : Deployment) (id : ContainerId) : Prop :=
  ∀ c, s.containers.live.get? id = some c → c.state ≠ .started

theorem reconcile_reports (s : Deployment) (caller : Option String) (c : Container) (merged : Profile) :
    ∃ events, Tells s caller events (s.reconcile caller c merged).2 ∧
      Reported c.identity (s.reconcile caller c merged).1 events ∧
      PassBlock c.identity merged.identity events := by
  unfold reconcile
  dsimp only
  split
  · refine ⟨_, ?_, .passed merged.identity (), .inl rfl⟩
    exact ((s.announce_tells caller _).trans (announce_tells _ caller _)).after rfl rfl
  · refine ⟨_, ?_, .failed merged.identity _, .inr ⟨_, rfl⟩⟩
    exact ((s.announce_tells caller _).trans (announce_tells _ caller _)).after rfl rfl

-- The events about one container among those of several blocks.
def of (id : ContainerId) (events : List ProvisionEvent) : List ProvisionEvent :=
  events.filter (fun e => e.container = id)

theorem of_self {id : ContainerId} (about : ∀ e ∈ events, e.container = id) : of id events = events :=
  List.filter_eq_self.mpr fun e member => decide_eq_true (about e member)

theorem of_other {id other : ContainerId} (about : ∀ e ∈ events, e.container = id) (apart : other ≠ id) :
    of other events = [] :=
  List.filter_eq_nil_iff.mpr fun e member same => apart ((of_decide_eq_true same).symm.trans (about e member))

theorem about_of_block {id : ContainerId} (block : events = [] ∨ Block id events) :
    ∀ e ∈ events, e.container = id := by
  rcases block with rfl | block
  · intro e member
    cases member
  · exact block.about

end Deployment
end ContainerProfiles
