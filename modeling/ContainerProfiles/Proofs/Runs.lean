import ContainerProfiles.Proofs.Changes
import ContainerProfiles.Proofs.Passes

namespace ContainerProfiles

-- Runs: operations in any order, and between them what happens around a deployment.

inductive Action where
  | perform (me : Thread) (caller : Option String) (op : Operation)
  | lockContainer (me : Thread) (id : ContainerId) (mode : LockMode)
  | lockVersion (me : Thread) (v : Version) (mode : LockMode)
  | unlock (handle : LockHandle)
  | addResource (r : Resource)
  | failInstall (id : ResourceId)
  | refuse (r : Refusal)
  | allow (r : Refusal)
  | listen (l : Listener)
  | listenProfile (name : String)
  | listenLatch (name : String) (l : Latch)

-- Between the actions, either service may be switched on or off by itself.
inductive Turn where
  | action (a : Action)
  | switch (profiles containers : Bool)

namespace Deployment

-- A lock that is not granted leaves the deployment as it was.
def locked (s : Deployment) (taken : Except OperationError (LockHandle × Deployment)) : Deployment :=
  match taken with
  | .ok (_, next) => next
  | .error _ => s

def act (s : Deployment) : Action → Deployment
  | .perform me caller op => (s.perform me caller op).2
  | .lockContainer me id mode => s.locked (s.lockContainer me id mode)
  | .lockVersion me v mode => s.locked (s.lockVersion me v mode)
  | .unlock handle => s.unlock handle
  | .addResource r =>
      { s with provisioner.repository := s.provisioner.repository.addResource r }
  | .failInstall id =>
      { s with provisioner.repository := s.provisioner.repository.failInstall id }
  | .refuse r => { s with provisioner.refusals := s.provisioner.refusals.add r }
  | .allow r => { s with provisioner.refusals := s.provisioner.refusals.erase r }
  | .listen l => { s with audience := s.audience.addProvision l }
  | .listenProfile name => { s with audience := s.audience.addProfile name }
  | .listenLatch name l => { s with audience := s.audience.addLatch name l }

def run (s : Deployment) (actions : List Action) : Deployment := actions.foldl act s

def turn (s : Deployment) : Turn → Deployment
  | .action a => s.act a
  | .switch profiles containers =>
      { s with
        profileService := { s.profileService with active := profiles }
        containerService := { s.containerService with active := containers } }

def turns (s : Deployment) (ts : List Turn) : Deployment := ts.foldl turn s

theorem run_keeps {P : Deployment → Prop} {s : Deployment} {actions : List Action} (start : P s)
    (step : ∀ t, ∀ a ∈ actions, P t → P (t.act a)) : P (s.run actions) := by
  induction actions generalizing s with
  | nil => exact start
  | cons a rest ih =>
      exact ih (step s a List.mem_cons_self start) fun t b later => step t b (.tail _ later)

theorem turns_keep {P : Deployment → Prop} {s : Deployment} {ts : List Turn} (start : P s)
    (step : ∀ t, ∀ x ∈ ts, P t → P (t.turn x)) : P (s.turns ts) := by
  induction ts generalizing s with
  | nil => exact start
  | cons x rest ih =>
      exact ih (step s x List.mem_cons_self start) fun t y later => step t y (.tail _ later)

theorem run_append (s : Deployment) (before after : List Action) :
    s.run (before ++ after) = (s.run before).run after := List.foldl_append

theorem turns_append (s : Deployment) (before after : List Turn) :
    s.turns (before ++ after) = (s.turns before).turns after := List.foldl_append

-- Where nobody touches the services, the turns are a run.
theorem turns_actions (s : Deployment) (actions : List Action) : s.turns (actions.map .action) = s.run actions :=
  List.foldl_map

theorem changes_keep {P : Deployment → Prop} {s t : Deployment} (start : P s)
    (step : ∀ t u, Change t u → P t → P u) (changes : Changes s t) : P t := by
  induction changes with
  | refl => exact start
  | tail _ change ih => exact step _ _ change ih

theorem perform_keeps {P : Deployment → Prop} {s : Deployment} (start : P s)
    (step : ∀ t u, Change t u → P t → P u) (exchange : ∀ me p t, Replaced s me p t → P s → P t)
    (me : Thread) (caller : Option String) (op : Operation) : P (s.perform me caller op).2 := by
  rcases s.perform_changes me caller op with changes | ⟨p, _, replaced⟩
  · exact changes_keep start step changes
  · exact exchange me p _ replaced start

theorem andThen_keeps {P : Deployment → Prop} {first : Outcome α} {second : α → Deployment → Outcome β}
    (begins : P first.2) (goes : ∀ x t, P t → P (second x t).2) : P (andThen first second).2 := by
  obtain ⟨outcome, t⟩ := first
  cases outcome with
  | error e => exact begins
  | ok x => exact goes x t begins

variable {s t : Deployment} {me : Thread} {caller : Option String}

theorem andThen_of_ok {first : Outcome α} {second : α → Deployment → Outcome β} {x : α}
    (succeeds : first = (.ok x, t)) : andThen first second = second x t := by
  rw [succeeds]
  rfl

-- Both services run.
def opened (s : Deployment) (store : Store) : Deployment :=
  { s with
    profileService := s.profileService.activate
    containerService := s.containerService.activate
    store }

theorem start_eq (s : Deployment) (me : Thread) :
    s.start me = andThen ((s.opened s.store).ensureVersion me) fun _ t =>
      andThen (t.ensureProfile me) fun _ t => andThen (t.ensureContainer me)
        fun c t => (.ok c, { t with current := some t.settings.currentContainer }) := rfl

-- How a start asks for the current container.
def currentRequest (s : Deployment) : ContainerRequest :=
  { identity := s.settings.currentContainer, version := some s.defaultVersion,
    profiles := [s.settings.defaultProfile] }

theorem Assigns.beside {id : ContainerId} {out : Outcome Container} (assigns : s.Assigns me caller id out) :
    Beside s out.2 := by
  cases assigns with
  | refused e => exact .refl s
  | settled c => exact .refl s
  | assigned live reassigned => exact s.changeAndProvision_beside me caller _

theorem Touches.beside {id : ContainerId} {how : Container → Container → Prop} {out : Outcome Container}
    (touches : s.Touches id how out) : Beside s out.2 := by
  cases touches <;> exact ⟨_, _, _, _, rfl⟩

theorem create_beside (s : Deployment) (me : Thread) (r : ContainerRequest) : Beside s (s.create me r).2 := by
  rw [create_eq]
  split <;> exact ⟨_, _, _, _, rfl⟩

theorem destroy_beside (s : Deployment) (me : Thread) (id : ContainerId) (caller : Option String) :
    Beside s (s.destroy me id caller).2 := by
  unfold destroy
  split
  · exact .refl s
  · dsimp only
    split <;> exact ⟨_, _, _, _, rfl⟩

theorem ensureContainer_beside (s : Deployment) (me : Thread) : Beside s (s.ensureContainer me).2 := by
  unfold ensureContainer
  refine andThen_keeps (P := Beside s) ?_ fun _ t kept => ?_
  · split
    · exact .refl s
    · exact andThen_keeps (P := Beside s) (s.create_beside me _) fun _ _ kept => kept
  · split
    · exact kept
    · split
      · exact kept
      · exact kept.trans (t.startContainer_assigns me _ none).beside

structure Fixed (s t : Deployment) : Prop where
  settings : t.settings = s.settings
  defaultVersion : t.defaultVersion = s.defaultVersion
  locks : t.locks = s.locks

theorem Fixed.trans {u : Deployment} (one : Fixed s t) (two : Fixed t u) : Fixed s u :=
  ⟨two.settings.trans one.settings, two.defaultVersion.trans one.defaultVersion, two.locks.trans one.locks⟩

theorem Beside.fixed (beside : Beside s t) : Fixed s t := by
  obtain ⟨_, _, _, _, rfl⟩ := beside
  exact ⟨rfl, rfl, rfl⟩

theorem Replaced.fixed {p : Profile} (replaced : Replaced s me p t) : Fixed s t := by
  obtain ⟨_, _, _, _⟩ := replaced
  exact ⟨rfl, rfl, rfl⟩

theorem Change.fixed (change : Change s t) : Fixed s t := by
  cases change with
  | reassigned caller _ _ => exact (s.changeAndProvision_beside _ caller _).fixed
  | updated caller replaced => exact replaced.fixed.trans (reprovisions_beside _ _ caller _ _).fixed
  | _ => exact ⟨rfl, rfl, rfl⟩

-- Locks are taken and given back by calls of their own; an operation holds its own no longer than it runs.
theorem perform_fixed (s : Deployment) (me : Thread) (caller : Option String) (op : Operation) :
    Fixed s (s.perform me caller op).2 :=
  perform_keeps (P := Fixed s) ⟨rfl, rfl, rfl⟩ (fun _ _ change fixed => fixed.trans change.fixed)
    (fun _ _ _ replaced fixed => fixed.trans replaced.fixed) me caller op

theorem locked_eq (s : Deployment) (component : Component) (me : Thread) (key : String) (mode : LockMode) :
    ∃ locks, s.locked (do component.check; s.lock me key mode) = { s with locks } := by
  cases component.check with
  | error e => exact ⟨s.locks, rfl⟩
  | ok _ =>
      unfold lock
      cases s.locks.acquire me key mode with
      | error e => exact ⟨s.locks, rfl⟩
      | ok taken => exact ⟨taken.2, rfl⟩

theorem lockContainer_eq (s : Deployment) (me : Thread) (id : ContainerId) (mode : LockMode) :
    ∃ locks, s.act (.lockContainer me id mode) = { s with locks } :=
  s.locked_eq s.containerService me (containerKey id) mode

theorem lockVersion_eq (s : Deployment) (me : Thread) (v : Version) (mode : LockMode) :
    ∃ locks, s.act (.lockVersion me v mode) = { s with locks } :=
  s.locked_eq s.profileService me (versionKey v) mode

-- Everything but an operation leaves the store and the containers alone.
theorem act_aside (s : Deployment) {a : Action} (aside : ∀ me caller op, a ≠ .perform me caller op) :
    (s.act a).store = s.store ∧ (s.act a).containers = s.containers := by
  cases a with
  | perform me caller op => exact absurd rfl (aside me caller op)
  | lockContainer me id mode =>
      obtain ⟨locks, same⟩ := s.lockContainer_eq me id mode
      rw [same]
      exact ⟨rfl, rfl⟩
  | lockVersion me v mode =>
      obtain ⟨locks, same⟩ := s.lockVersion_eq me v mode
      rw [same]
      exact ⟨rfl, rfl⟩
  | _ => exact ⟨rfl, rfl⟩

end Deployment
end ContainerProfiles
