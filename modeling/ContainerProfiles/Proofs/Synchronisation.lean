import ContainerProfiles.Proofs.Desired
import ContainerProfiles.Proofs.Listening
import ContainerProfiles.Proofs.Onlookers

namespace ContainerProfiles

-- Started containers keep step with what is stored. A change either provisions the containers that it makes a
-- difference to, or makes none: what the last pass installed is still what is asked for, unless that pass failed.

-- No exchange of a profile behind the back of the containers, no lock held from one operation to the next,
-- and nothing new in the repository.
def Action.Orderly : Action → Prop
  | .perform _ _ (.replaceProfile _) => False
  | .lockContainer .. | .lockVersion .. | .unlock _ | .addResource _ => False
  | _ => True

-- The operations that give the container another assignment.
def Operation.Assigns : Operation → ContainerId → Prop
  | .startContainer other, id | .assignVersion other _, id => other = id
  | .addProfiles other _, id | .removeProfiles other _, id => other = id
  | _, _ => False

namespace Deployment

variable {s t : Deployment} {me : Thread} {name : String} {env : Environment}

-- A listener stays, nobody holds a lock, and the repository offers the same.
structure Attended (s : Deployment) (name : String) (env : Environment) : Prop where
  listening : .recorder name ∈ s.audience.provision
  unlocked : s.locks.locks = ∅
  offer : s.provisioner.repository.environment = env

theorem Attended.finishPass (attended : s.Attended name env) (id : ContainerId) {pass : Pass}
    (offer : pass.provisioner.repository.environment = s.provisioner.repository.environment) :
    (s.finishPass id pass).Attended name env :=
  ⟨attended.listening, attended.unlocked, offer.trans attended.offer⟩

theorem Attended.announce (attended : s.Attended name env) (caller : Option String) (e : ProvisionEvent) :
    (s.announce caller e).Attended name env :=
  ⟨attended.listening, attended.unlocked, attended.offer⟩

theorem Attended.reconcile (attended : s.Attended name env) (caller : Option String) (c : Container)
    (merged : Profile) : (s.reconcile caller c merged).2.Attended name env := by
  have offer := s.provisioner.reconcile_environment s.settings.runtime merged c.installed
  unfold Deployment.reconcile
  dsimp only
  split <;> exact ((attended.announce caller _).announce caller _).finishPass _ offer

structure Synced (s : Deployment) (name : String) (env : Environment)
    (excused : ContainerId → Container → Prop) : Prop where
  grounded : s.Grounded
  attended : s.Attended name env
  once : ∀ id c, s.containers.live.get? id = some c → c.installedIds.Nodup
  synced : ∀ id c, s.containers.live.get? id = some c → c.state = .started → s.LastPassed name id →
    excused id c ∨ c.InSync s.store env

variable {excused : ContainerId → Container → Prop}

theorem Synced.weaken {others : ContainerId → Container → Prop} (synced : s.Synced name env excused)
    (weaker : ∀ id c, s.containers.live.get? id = some c → excused id c → others id c) :
    s.Synced name env others :=
  ⟨synced.grounded, synced.attended, synced.once, fun id c live running passed =>
    (synced.synced id c live running passed).imp_left (weaker id c live)⟩

theorem Synced.reconcile (synced : s.Synced name env excused) (caller : Option String) {c : Container}
    (live : s.containers.live.get? c.identity = some c) (version : c.version = some v)
    (computed : s.effectiveFor me v c.profiles = .ok merged)
    (kept : (s.reconcile caller c merged).2.Grounded) :
    (s.reconcile caller c merged).2.Synced name env (fun id d => id ≠ c.identity ∧ excused id d) := by
  refine ⟨kept, synced.attended.reconcile caller c merged, ?_, ?_⟩
  · intro id d live'
    rw [reconcile_containers, ContainerRegistry.get?_modify] at live'
    split at live'
    · obtain ⟨before, live'', rfl⟩ := Option.map_eq_some_iff.mp live'
      exact s.provisioner.reconcile_nodup s.settings.runtime merged (synced.once _ c live)
    · exact synced.once id d live'
  · intro id d live' running passed
    rw [(s.reconcile_beside caller c _).store]
    rw [reconcile_containers, ContainerRegistry.get?_modify] at live'
    split at live'
    · rename_i same
      subst same
      rw [live] at live'
      cases live'
      have done := (lastPassed_reconcile_self synced.attended.listening caller c merged).mp passed
      exact .inr (synced.attended.offer ▸ reconcile_inSync synced.grounded live version computed done)
    · rename_i other
      have before := (s.lastPassed_reconcile_other caller c merged name (Ne.symm other)).mp passed
      exact (synced.synced id d live' running before).imp_left fun excuse => ⟨other, excuse⟩

theorem Synced.announce (synced : s.Synced name env excused) (caller : Option String) {e : ProvisionEvent}
    (failed : e.stage ≠ .provisioned) :
    (s.announce caller e).Synced name env (fun id d => id ≠ e.container ∧ excused id d) := by
  refine ⟨synced.grounded, synced.attended.announce caller e, synced.once, fun id d live running passed => ?_⟩
  by_cases same : e.container = id
  · exact absurd ((lastPassed_announce_self synced.attended.listening same).mp passed) failed
  · have before := (lastPassed_announce_other same).mp passed
    exact (synced.synced id d live running before).imp_left fun excuse => ⟨Ne.symm same, excuse⟩

-- After an attempt to provision it, a container needs no excuse.
theorem Synced.provision (synced : s.Synced name env excused) (me : Thread) (caller : Option String)
    (id : ContainerId) :
    (s.provision me caller id).2.Synced name env (fun other d => other ≠ id ∧ excused other d) := by
  have kept := provision_grounded synced.grounded me caller id
  obtain ⟨m, memory, sound, assigned⟩ := synced.grounded
  revert kept
  refine s.provision_elim me caller (P := fun out => out.2.Grounded →
    out.2.Synced name env (fun other d => other ≠ id ∧ excused other d)) id ?_ ?_ ?_
  · intro idle _
    refine ⟨synced.grounded, synced.attended, synced.once, fun other d live running passed => ?_⟩
    refine (synced.synced other d live running passed).imp_left fun excuse => ⟨fun same => ?_, excuse⟩
    -- a started container has a version
    have unversioned := (assigned other d live).2.unversioned (idle d (same ▸ live) running)
    rw [running] at unversioned
    cases unversioned.1
  · exact fun _ _ _ _ _ _ _ _ => synced.announce caller (by simp)
  · intro c v merged live _ version computed kept
    obtain ⟨rfl, _⟩ := assigned id c live
    exact synced.reconcile caller live version computed kept

theorem Attended.permitContainer (attended : s.Attended name env) (me : Thread) (id : ContainerId)
    (mode : LockMode) : s.permitContainer me id mode = .ok () := by
  unfold Deployment.permitContainer LockTable.permit LockTable.state
  rw [attended.unlocked]
  cases mode <;> rfl

theorem Attended.permitVersion (attended : s.Attended name env) (active : s.profileService.check = .ok ())
    (me : Thread) (v : Version) (mode : LockMode) : s.permitVersion me v mode = .ok () := by
  unfold Deployment.permitVersion LockTable.permit LockTable.state
  rw [active, attended.unlocked]
  cases mode <;> rfl

theorem inherits_of_heir {c : Container} (holds : s.Grounded) (attended : s.Attended name env)
    (active : s.profileService.check = .ok ()) {id : ContainerId}
    (live : s.containers.live.get? id = some c) (heir : c.Heir s.store p) (me : Thread) :
    s.inherits me c p = .ok true := by
  obtain ⟨m, memory, sound, assigned⟩ := holds
  obtain ⟨_, entry, memory', version, found, ancestral⟩ := heir
  cases memory.symm.trans memory'
  obtain ⟨entry', found', present⟩ := (assigned id c live).2.stored _ version
  cases found.symm.trans found'
  have fitting := sound _ _ found
  obtain ⟨listed, walked⟩ := Catalog.linearize_succeeds fitting.closed fitting.acyclic present
  have lineage := (answers_of_stored memory sound found walked me).1
  rw [attended.permitVersion active] at lineage
  have member := (Catalog.mem_linearize fitting.keyed walked).mpr ancestral
  unfold inherits
  rw [if_pos version, lineage]
  exact congrArg Except.ok (decide_eq_true member)

theorem Synced.reprovision (synced : s.Synced name env excused) (active : s.profileService.check = .ok ())
    (me : Thread) (caller : Option String) (p : Profile) (id : ContainerId) :
    (s.reprovision me caller p id).Synced name env
      (fun other c => excused other c ∧ ¬ (other = id ∧ c.Heir s.store p)) := by
  have passed : (s.provision me caller id).2.Synced name env
      (fun other c => excused other c ∧ ¬ (other = id ∧ c.Heir s.store p)) :=
    (synced.provision me caller id).weaken fun _ _ _ excuse => ⟨excuse.2, fun same => excuse.1 same.1⟩
  by_cases heir : ∃ c, s.containers.live.get? id = some c ∧ c.Heir s.store p
  · obtain ⟨c, live, heir⟩ := heir
    have found : (do s.permitContainer me id .write; s.inherits me (← s.containers.get id) p) = .ok true := by
      rw [synced.attended.permitContainer, get_eq_ok.mpr live]
      exact inherits_of_heir synced.grounded synced.attended active live heir me
    unfold Deployment.reprovision
    rw [found]
    exact passed
  · rcases s.reprovision_cases me caller p id with same | again
    · rw [same]
      refine synced.weaken fun other c live excuse => ⟨excuse, ?_⟩
      rintro ⟨rfl, inherits⟩
      exact heir ⟨c, live, inherits⟩
    · rw [again]
      exact passed

-- Whoever inherits from the profile is provisioned when its turn comes.
theorem Synced.reprovisions {ids : List ContainerId} (active : s.profileService.check = .ok ()) (me : Thread)
    (caller : Option String) (p : Profile)
    (synced : s.Synced name env (fun id c => id ∈ ids ∧ c.Heir s.store p)) :
    (ids.foldl (fun t id => t.reprovision me caller p id) s).Synced name env (fun _ _ => False) := by
  induction ids generalizing s with
  | nil => exact synced.weaken fun _ _ _ excuse => by cases excuse.1
  | cons id rest ih =>
      have beside := s.reprovision_beside me caller p id
      have service := beside.same (·.profileService) fun _ _ _ _ => rfl
      refine ih (service.symm ▸ active) ?_
      refine (synced.reprovision active me caller p id).weaken fun other c _ excuse => ?_
      obtain ⟨⟨listed, heir⟩, remains⟩ := excuse
      rw [beside.store]
      rcases List.mem_cons.mp listed with same | later
      · exact absurd ⟨same, heir⟩ remains
      · exact ⟨later, heir⟩

theorem Replaced.active (replaced : Replaced s me p t) : t.profileService.check = .ok () := by
  obtain ⟨_, _, prepared, _⟩ := replaced
  simp only [prepareReplacement, Deployment.permitVersion, bind_eq_ok] at prepared
  obtain ⟨_, ⟨_, active, _⟩, _⟩ := prepared
  exact active

theorem Replaced.synced (replaced : Replaced s me p t) (synced : s.Synced name env (fun _ _ => False)) :
    t.Synced name env (fun _ c => c.Heir t.store p) := by
  have kept := replaced.grounded synced.grounded
  obtain ⟨m, memory, sound, assigned⟩ := synced.grounded
  obtain ⟨n, after, replaces⟩ := replaced.replaces memory sound
  obtain ⟨caller, e, _, _⟩ := replaced
  refine ⟨kept, ⟨synced.attended.listening, synced.attended.unlocked, synced.attended.offer⟩, synced.once,
    fun id c live running passed => ?_⟩
  have before := (lastPassed_announceProfile _ caller e name id).mp passed
  have inSync := (synced.synced id c live running before).resolve_left fun none => none
  rw [memory] at inSync
  rw [after]
  by_cases heir : c.Heir (.memory n) p
  · exact .inl heir
  · exact .inr (inSync.replace replaces heir)

theorem modify_carried {r : ContainerRegistry} {change : Container → Container} {id other : ContainerId}
    {d : Container} (live : (r.modify id change).live.get? other = some d)
    (carried : ∀ c : Container, c.Carried (change c)) :
    ∃ c : Container, r.live.get? other = some c ∧ c.Carried d := by
  rw [ContainerRegistry.get?_modify] at live
  split at live
  · rename_i same
    obtain ⟨c, before, rfl⟩ := Option.map_eq_some_iff.mp live
    exact ⟨c, same ▸ before, carried c⟩
  · exact ⟨d, live, .refl d⟩

theorem linkChild_carried {r : ContainerRegistry} {parent : Option ContainerId} {child id : ContainerId}
    {d : Container} (live : (linkChild r child parent).live.get? id = some d) :
    ∃ c : Container, r.live.get? id = some c ∧ c.Carried d := by
  cases parent with
  | none => exact ⟨d, live, .refl d⟩
  | some p => exact modify_carried live fun _ => ⟨rfl, rfl, rfl, rfl⟩

theorem unlinkChild_carried {r : ContainerRegistry} {parent : Option ContainerId} {child id : ContainerId}
    {d : Container} (live : (unlinkChild r child parent).live.get? id = some d) :
    ∃ c : Container, r.live.get? id = some c ∧ c.Carried d := by
  cases parent with
  | none => exact ⟨d, live, .refl d⟩
  | some p => exact modify_carried live fun _ => ⟨rfl, rfl, rfl, rfl⟩

-- Containers are carried over as they are, or need not be in step.
theorem Synced.carry {others : ContainerId → Container → Prop}
    (synced : s.Synced name env (fun _ _ => False)) (kept : t.Grounded) (attended : t.Attended name env)
    (store : t.store = s.store)
    (each : ∀ id d, t.containers.live.get? id = some d →
      ((t.LastPassed name id → s.LastPassed name id) ∧
        ∃ c : Container, s.containers.live.get? id = some c ∧ c.Carried d) ∨
      (d.installedIds.Nodup ∧ (d.state = .started → t.LastPassed name id → others id d))) :
    t.Synced name env others := by
  refine ⟨kept, attended, fun id d live => ?_, fun id d live running passed => ?_⟩
  · rcases each id d live with ⟨_, c, before, carried⟩ | ⟨distinct, _⟩
    · rw [Container.installedIds, carried.installed]
      exact synced.once id c before
    · exact distinct
  · rcases each id d live with ⟨told, c, before, carried⟩ | ⟨_, excuse⟩
    · have inSync := synced.synced id c before (carried.state ▸ running) (told passed)
      exact .inr (store ▸ (inSync.resolve_left fun none => none).carry carried)
    · exact .inl (excuse running passed)

theorem Reassigned.synced {c : Container} (reassigned : Reassigned s me c changed)
    (synced : s.Synced name env (fun _ _ => False)) {id : ContainerId}
    (live : s.containers.live.get? id = some c) (caller : Option String) :
    (s.changeAndProvision me caller changed).2.Synced name env (fun _ _ => False) := by
  rw [changeAndProvision_snd]
  have between : (s.modify changed.identity (fun _ => changed)).Synced name env
      (fun other _ => other = changed.identity) := by
    obtain ⟨listening, unlocked, offer⟩ := synced.attended
    refine synced.carry (reassigned.grounded synced.grounded live) ⟨listening, unlocked, offer⟩ rfl
      fun other d live' => ?_
    rw [Deployment.modify, ContainerRegistry.get?_modify] at live'
    split at live'
    · rename_i same
      obtain ⟨_, _, rfl⟩ := Option.map_eq_some_iff.mp live'
      refine .inr ⟨?_, fun _ _ => same⟩
      rw [Container.installedIds, reassigned.unmoved.2]
      exact synced.once id c live
    · exact .inl ⟨fun told => told, d, live', .refl d⟩
  exact (between.provision me caller changed.identity).weaken fun _ _ _ excuse => excuse.1 excuse.2

-- A container that could not be emptied has stopped.
theorem Synced.unrelease (synced : s.Synced name env (fun _ _ => False)) {id : ContainerId} {c : Container}
    (live : s.containers.live.get? id = some c) (idle : changed.state ≠ .started)
    (caller : Option String) (text : String)
    (kept : Grounded (((s.modify id (fun _ => changed)).announce caller
      { container := id, stage := .error, error := some text }).finishPass id
        (s.provisioner.releaseAll c.installed))) :
    (((s.modify id (fun _ => changed)).announce caller
      { container := id, stage := .error, error := some text }).finishPass id
        (s.provisioner.releaseAll c.installed)).Synced name env (fun _ _ => False) := by
  obtain ⟨listening, unlocked, offer⟩ := synced.attended
  have released := (s.provisioner.releaseAll_environment c.installed).trans offer
  refine synced.carry kept ⟨listening, unlocked, released⟩ rfl fun other d live' => ?_
  rw [Deployment.finishPass, Deployment.modify, ContainerRegistry.get?_modify] at live'
  dsimp only [Deployment.announce, Deployment.modify] at live'
  rw [ContainerRegistry.get?_modify, ContainerRegistry.get?_modify, live, if_pos rfl] at live'
  split at live'
  · cases live'
    exact .inr ⟨s.provisioner.releaseAll_nodup (synced.once id c live), fun running => absurd running idle⟩
  · rename_i apart
    exact .inl ⟨(lastPassed_announce_other (Ne.symm apart)).mp, d, live', .refl d⟩

theorem Synced.leave (synced : s.Synced name env (fun _ _ => False)) (caller : Option String) (c : Container)
    (id : ContainerId) (kept : (s.removed caller c id).Grounded) :
    (s.removed caller c id).Synced name env (fun _ _ => False) := by
  obtain ⟨listening, unlocked, offer⟩ := synced.attended
  have released := (s.provisioner.releaseAll_environment c.installed).trans offer
  refine synced.carry kept ⟨listening, unlocked, released⟩ rfl fun other d live => ?_
  obtain ⟨e, before, carried⟩ := unlinkChild_carried live
  rw [ContainerRegistry.get?_remove] at before
  split at before
  · cases before
  · rename_i apart
    dsimp only [Deployment.finishPass, Deployment.announce, Deployment.modify] at before
    rw [ContainerRegistry.get?_modify, if_neg apart] at before
    exact .inl ⟨(lastPassed_announce_other (Ne.symm apart)).mp, e, before, carried⟩

theorem Change.synced (change : Change s t) (synced : s.Synced name env (fun _ _ => False)) :
    t.Synced name env (fun _ _ => False) := by
  have kept := change.grounded synced.grounded
  obtain ⟨listening, unlocked, offer⟩ := synced.attended
  cases change with
  | switched _ _ _ =>
      exact synced.carry kept ⟨listening, unlocked, offer⟩ rfl fun id d live =>
        .inl ⟨fun told => told, d, live, .refl d⟩
  | told caller e =>
      exact synced.carry kept ⟨listening, unlocked, offer⟩ rfl fun id d live =>
        .inl ⟨(s.lastPassed_announceProfile caller e name id).mp, d, live, .refl d⟩
  | stored edits =>
      obtain ⟨m, memory, sound, assigned⟩ := synced.grounded
      obtain ⟨n, after, edit⟩ := edits m memory sound
      refine ⟨kept, ⟨listening, unlocked, offer⟩, synced.once, fun id c live running passed => .inr ?_⟩
      have inSync := (synced.synced id c live running passed).resolve_left fun none => none
      rw [memory] at inSync
      dsimp only
      rw [after]
      exact inSync.edit sound edit (ContainerRegistry.mem_list.mpr ⟨id, live⟩) (assigned id c live).2
  | @created r me absent checked =>
      refine synced.carry kept ⟨listening, unlocked, offer⟩ rfl fun id d live => ?_
      obtain ⟨c, joined, carried⟩ := linkChild_carried live
      rw [Dict.get?_insert] at joined
      split at joined
      · cases joined
        refine .inr ⟨?_, fun running => ?_⟩
        · rw [Container.installedIds, carried.installed]
          exact List.nodup_nil
        · rw [carried.state] at running
          cases running
      · exact .inl ⟨fun told => told, c, joined, carried⟩
  | @retouched c changed id live retouched =>
      refine synced.carry kept ⟨listening, unlocked, offer⟩ rfl fun other d live' => ?_
      rw [Deployment.modify, ContainerRegistry.get?_modify, live] at live'
      split at live'
      · rename_i same
        subst same
        cases live'
        cases retouched with
        | dressed _ _ => exact .inl ⟨fun told => told, c, live, rfl, rfl, rfl, rfl⟩
        | stopped _ => exact .inr ⟨synced.once other c live, nofun⟩
      · exact .inl ⟨fun told => told, d, live', .refl d⟩
  | reassigned caller live reassigned => exact reassigned.synced synced live caller
  | @unreleased c changed id caller text live same =>
      refine synced.unrelease live (fun running => ?_) caller text kept
      rw [same] at running
      split at running
      · cases running
      · rename_i idle
        exact idle (by simpa [Container.isStarted] using running)
  | @destroyed c id caller live _ => exact synced.leave caller c id kept
  | @updated me next p caller replaced =>
      have before := replaced.synced synced
      refine Synced.reprovisions replaced.active me caller p (before.weaken fun id c live heir => ⟨?_, heir⟩)
      obtain ⟨m, memory, _, assigned⟩ := before.grounded
      obtain ⟨_, _, _, version, _⟩ := heir
      have named := (assigned id c live).1
      exact named ▸ mem_usersOf live version (fun _ => true) rfl

theorem Synced.act (synced : s.Synced name env (fun _ _ => False)) {a : Action} (orderly : a.Orderly) :
    (s.act a).Synced name env (fun _ _ => False) := by
  have kept := act_grounded synced.grounded a
  have aside : ∀ {t : Deployment}, t.Grounded → t.Attended name env → t.store = s.store →
      t.containers = s.containers → t.log = s.log → t.Synced name env (fun _ _ => False) := by
    intro t kept attended store containers log
    refine synced.carry kept attended store fun id d live => .inl ⟨?_, d, containers ▸ live, .refl d⟩
    unfold LastPassed
    rw [log]
    exact fun told => told
  obtain ⟨listening, unlocked, offer⟩ := synced.attended
  cases a with
  | perform me caller op =>
      rcases s.perform_changes me caller op with changes | ⟨p, rfl, _⟩
      · exact changes_keep synced (fun _ _ => Change.synced) changes
      · exact orderly.elim
  | lockContainer me id mode => exact orderly.elim
  | lockVersion me v mode => exact orderly.elim
  | unlock handle => exact orderly.elim
  | addResource r => exact orderly.elim
  | listen l => exact aside kept ⟨List.mem_append_left _ listening, unlocked, offer⟩ rfl rfl rfl
  | listenLatch latch l =>
      have stays : Listener.recorder name ∈ s.audience.provision.filter (· ≠ .latch latch) :=
        List.mem_filter.mpr ⟨listening, by simp⟩
      exact aside kept ⟨List.mem_append_left _ stays, unlocked, offer⟩ rfl rfl rfl
  | _ => exact aside kept ⟨listening, unlocked, offer⟩ rfl rfl rfl

-- A pass over a container changes nothing of it but what is installed.
theorem provision_there (live : s.containers.live.get? c.identity = some c) (me : Thread) (caller : Option String) :
    ∃ installed, (s.provision me caller c.identity).2.containers.live.get? c.identity = some { c with installed } := by
  refine s.provision_elim me caller (P := fun out => ∃ installed,
    out.2.containers.live.get? c.identity = some { c with installed }) c.identity ?_ ?_ ?_
  · exact fun _ => ⟨c.installed, live⟩
  · exact fun _ _ _ _ _ _ _ => ⟨c.installed, live⟩
  · intro d _ merged live' _ _ _
    cases live.symm.trans live'
    refine ⟨(s.passOf c merged).installed, ?_⟩
    rw [reconcile_containers, ContainerRegistry.get?_modify, if_pos rfl, live]
    rfl

theorem changeAndProvision_succeeds {changed : Container} (live : s.containers.live.get? changed.identity = some c)
    (me : Thread) (caller : Option String) : (∃ d, (s.changeAndProvision me caller changed).1 = .ok d) ↔
      ((s.modify changed.identity fun _ => changed).provision me caller changed.identity).1 = .ok () := by
  have there := modify_there live
  obtain ⟨installed, after⟩ := provision_there there me caller
  unfold changeAndProvision
  rcases ends : (s.modify changed.identity fun _ => changed).provision me caller changed.identity with ⟨outcome, t⟩
  rw [ends] at after
  cases outcome with
  | error e => exact ⟨nofun, nofun⟩
  | ok _ => exact ⟨fun _ => rfl, fun _ => ⟨_, get_eq_ok.mpr after⟩⟩

-- What a listener that stays makes of the operations on assignments: nothing happens, or there is a pass over the
-- container if it is started, and the last thing heard of the container says whether the operation succeeds.
def Attests (s : Deployment) (name : String) : Prop :=
  ∀ me caller op id, op.Assigns id →
    let after := s.perform me caller op
    after.2 = s ∨ ∀ c, after.2.containers.live.get? id = some c → c.state = .started →
      (after.2.LastPassed name id ↔ ∃ reply, after.1 = .ok reply)

theorem Assigns.attested {out : Outcome Container} {id : ContainerId} (assigns : s.Assigns me caller id out)
    (holds : s.Grounded) (listening : .recorder name ∈ s.audience.provision) :
    out.2 = s ∨ ∀ c, out.2.containers.live.get? id = some c → c.state = .started →
      (out.2.LastPassed name id ↔ ∃ d, out.1 = .ok d) := by
  cases assigns with
  | refused e => exact .inl rfl
  | settled c => exact .inl rfl
  | @assigned c changed live reassigned =>
      refine .inr fun d after running => ?_
      have kept := reassigned.grounded holds live
      obtain ⟨_, _, _, before⟩ := holds
      obtain rfl : changed.identity = id := reassigned.unmoved.1.trans (before id c live).1
      have there := modify_there live
      obtain ⟨installed, left⟩ := provision_there there me caller
      rw [changeAndProvision_snd, left] at after
      cases after
      obtain ⟨_, _, _, assigned⟩ := kept
      cases version : changed.version with
      | none =>
          -- a started container has a version
          have created := ((assigned _ _ there).2.unversioned version).1
          rw [running] at created
          cases created
      | some v =>
          have told := lastPassed_provision (s := s.modify changed.identity fun _ => changed) listening me caller there
            running version
          rw [changeAndProvision_snd]
          exact told.trans (changeAndProvision_succeeds live me caller).symm

theorem Synced.attests (synced : s.Synced name env excused) : s.Attests name := by
  intro me caller op id assigns
  have replied : ∀ {out : Outcome Container}, s.Assigns me caller id out →
      out.2 = s ∨ ∀ c, out.2.containers.live.get? id = some c → c.state = .started →
        (out.2.LastPassed name id ↔ ∃ reply, out.1.map Reply.container = .ok reply) := by
    rintro ⟨outcome, t⟩ ended
    refine (ended.attested synced.grounded synced.attended.listening).imp_right fun told c live running => ?_
    rw [told c live running]
    cases outcome with
    | error e => exact ⟨nofun, nofun⟩
    | ok d => exact ⟨fun _ => ⟨_, rfl⟩, fun _ => ⟨_, rfl⟩⟩
  cases op with
  | startContainer => exact assigns ▸ replied (s.startContainer_assigns me _ caller)
  | assignVersion => exact assigns ▸ replied (s.assignVersion_assigns me _ _ caller)
  | addProfiles => exact assigns ▸ replied (s.addProfiles_assigns me _ _ caller)
  | removeProfiles => exact assigns ▸ replied (s.removeProfiles_assigns me _ _ caller)
  | _ => exact assigns.elim

-- The run as it is with one more listener from the beginning. Listeners change nothing of it.
def overheard (s : Deployment) (name : String) : Deployment :=
  { s with audience := s.audience.addProvision (.recorder name) }

-- Containers whose most recent pass went through have installed, each once, what their effective profile
-- asks for now. With the same assignment that is the same.
def InStep (s : Deployment) (passed : ContainerId → Prop) : Prop :=
  ∀ id c, s.containers.live.get? id = some c → c.state = .started → passed id →
    c.installedIds.Nodup ∧ c.InSync s.store s.provisioner.repository.environment ∧
    (∀ me v merged, c.version = some v → s.effectiveFor me v c.profiles = .ok merged →
      ∀ r, r ∈ c.installedIds ↔ r ∈ merged.desired s.provisioner.repository.environment) ∧
    ∀ other d, s.containers.live.get? other = some d → d.state = .started → passed other →
      d.version = c.version → d.profiles = c.profiles → c.installedIds.Perm d.installedIds

theorem Synced.inStep (synced : s.Synced name env (fun _ _ => False)) : s.InStep (s.LastPassed name) := by
  have inSync : ∀ id c, s.containers.live.get? id = some c → c.state = .started → s.LastPassed name id →
      c.InSync s.store env :=
    fun id c live running passed => (synced.synced id c live running passed).resolve_left fun none => none
  rw [← synced.attended.offer] at inSync
  intro id c live running passed
  have own := inSync id c live running passed
  refine ⟨synced.once id c live, own, fun me v merged version computed r => ?_, ?_⟩
  · exact desired_of_inSync synced.grounded live own version computed r
  · intro other d live' running' passed' version profiles
    refine (List.perm_ext_iff_of_nodup (synced.once id c live) (synced.once other d live')).mpr fun r => ?_
    exact own.agree (inSync other d live' running' passed') version profiles r

theorem InStep.alike {passed : ContainerId → Prop} (inStep : t.InStep passed) (alike : Alike s t) :
    s.InStep passed := by
  obtain ⟨_, _, rfl⟩ := alike
  exact inStep

theorem run_inStep {actions : List Action}
    (built : build chosen (.memory {}) { repository := { environment, failing } } heard time = .ok s)
    (orderly : ∀ a ∈ actions, a.Orderly) (name : String) :
    Alike (s.run actions) ((s.overheard name).run actions) ∧
      (s.run actions).InStep ((s.overheard name).run actions |>.LastPassed name) ∧
      ((s.overheard name).run actions).Attests name ∧
      (s.run actions).provisioner.repository.environment = environment := by
  have alike : Alike (s.run actions) ((s.overheard name).run actions) := Alike.run ⟨_, s.log, rfl⟩ actions
  have start : (s.overheard name).Synced name environment (fun _ _ => False) := by
    simp only [build, bind_eq_ok, pure_eq_ok] at built
    obtain ⟨_, _, _, _, rfl⟩ := built
    refine ⟨⟨{}, rfl, MemoryStore.sound_empty, ?_⟩, ⟨?_, rfl, rfl⟩, ?_, ?_⟩
    · intro id c live
      cases live
    · exact List.mem_append_right _ (List.mem_singleton_self _)
    · intro id c live
      cases live
    · intro id c live
      cases live
  have synced : ((s.overheard name).run actions).Synced name environment (fun _ _ => False) :=
    run_keeps (P := fun t => t.Synced name environment (fun _ _ => False)) start
      fun t a member synced => synced.act (orderly a member)
  refine ⟨alike, synced.inStep.alike alike, synced.attests, ?_⟩
  have offer := synced.attended.offer
  obtain ⟨_, _, same⟩ := alike
  rw [same] at offer
  exact offer

-- The listener learns of a start that went through, and the container has installed what its profile asks for.
theorem run_inStep_started :
    ∃ s c, build {} (.memory {}) { repository := { environment := loggers, failing := [] } } {} "" = .ok s ∧
      (∀ a ∈ launching, a.Orderly) ∧ (s.run launching).containers.live.get? "b" = some c ∧ c.state = .started ∧
      c.installedIds = ["log:1.0.0", "lib:1.0.0", "app:1.0.0"] ∧
      ((s.overheard "ear").run launching).LastPassed "ear" "b" ∧
      (s.run launching).InStep ((s.overheard "ear").run launching |>.LastPassed "ear") := by
  have built := build_unstarted [logger]
  have settles : ∀ a ∈ settling, a.Orderly := by simp [settling, doing, Action.Orderly]
  have launches : ∀ a ∈ launching, a.Orderly := by simp [launching, settling, doing, Action.Orderly]
  obtain ⟨alike, _, attests, _⟩ := run_inStep built settles "ear"
  have inStep := (run_inStep built launches "ear").2.1
  rw [run_settling] at alike
  generalize ends : ((unstarted [logger]).overheard "ear").run settling = heard at alike attests
  have before : heard.containers = oneStarted.containers := alike.same (·.containers) fun _ _ => rfl
  have starts : oneStarted.perform "main" none (.startContainer "b") =
      acting .container (.ok (onSite "b" .started (siteInstalled 3 4)), bothStarted) :=
    congrArg (acting Reply.container) startContainer_other
  obtain ⟨reply, next⟩ := alike.perform "main" none (.startContainer "b")
  rw [starts] at reply next
  have after : (heard.perform "main" none (.startContainer "b")).2.containers = bothStarted.containers :=
    next.same (·.containers) fun _ _ => rfl
  have live : bothStarted.containers.live.get? "b" = some (onSite "b" .started (siteInstalled 3 4)) := rfl
  have told : (heard.perform "main" none (.startContainer "b")).2.LastPassed "ear" "b" := by
    rcases attests "main" none (.startContainer "b") "b" rfl with same | passed
    · have idle : oneStarted.containers.live.get? "b" = some (onSite "b" .created []) := rfl
      rw [← before, ← same, after, live] at idle
      cases idle
    · exact (passed _ (after ▸ live) rfl).mpr ⟨_, reply.symm⟩
  refine ⟨unstarted [logger], onSite "b" .started (siteInstalled 3 4), built, launches, ?_, rfl, rfl, ?_, inStep⟩
  · rw [run_launching]
    exact live
  · rw [launching, run_append, ends]
    exact told

end Deployment
end ContainerProfiles
