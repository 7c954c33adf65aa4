import ContainerProfiles.Proofs.StoredProfiles

namespace ContainerProfiles

-- Containers and the store speak of the same profiles. Whatever is assigned to a live container is stored under
-- its version, however the assignment came about, and nothing of it can be taken away.

namespace Container

theorem mem_addProfiles {c : Container} {ids : List ProfileId} {id : ProfileId} :
    id ∈ (c.addProfiles ids).profiles ↔ id ∈ c.profiles ∨ id ∈ ids := by
  unfold addProfiles
  dsimp only
  generalize c.profiles = assigned
  induction ids generalizing assigned with
  | nil => simp
  | cons first rest ih =>
      rw [List.foldl_cons, ih]
      split
      · rename_i old
        constructor
        · rintro (member | member)
          · exact .inl member
          · exact .inr (.tail _ member)
        · rintro (member | member)
          · exact .inl member
          · rcases List.mem_cons.mp member with rfl | later
            · exact .inl old
            · exact .inr later
      · rw [List.mem_append, List.mem_singleton, List.mem_cons]
        exact or_assoc

theorem addProfiles_nodup {c : Container} (distinct : c.profiles.Nodup) (ids : List ProfileId) :
    (c.addProfiles ids).profiles.Nodup := by
  unfold addProfiles
  dsimp only
  generalize c.profiles = assigned at distinct
  induction ids generalizing assigned with
  | nil => exact distinct
  | cons first rest ih =>
      refine ih _ ?_
      dsimp only
      split
      · exact distinct
      · rename_i new
        exact List.nodup_append.mpr ⟨distinct, List.pairwise_singleton _ _, fun a old b last same =>
          new (List.mem_singleton.mp last ▸ same ▸ old)⟩

-- What a live container is assigned, against what is stored.
structure Assigned (m : MemoryStore) (c : Container) : Prop where
  alive : c.state ≠ .destroyed
  distinct : c.profiles.Nodup
  unversioned : c.version = none → c.state = .created ∧ c.profiles = []
  occupied : c.state ≠ .created → c.profiles ≠ []
  stored : ∀ v, c.version = some v → ∃ entry, m.versions.get? v = some entry ∧
    ∀ id ∈ c.profiles, entry.profiles.contains id

theorem Retouched.assigned {c : Container} (retouched : c.Retouched changed) (holds : Assigned m c) :
    Assigned m changed := by
  cases retouched with
  | dressed _ _ => exact ⟨holds.alive, holds.distinct, holds.unversioned, holds.occupied, holds.stored⟩
  | stopped running =>
      refine ⟨by simp, holds.distinct, fun none => ?_, fun _ => holds.occupied (by simp [running]),
        holds.stored⟩
      have created := (holds.unversioned none).1
      rw [running] at created
      cases created

end Container

open Container (Assigned)

namespace MemoryStore

-- Whatever was stored of the assignment is stored still.
theorem assigned_of_kept {m n : MemoryStore} {c : Container} (holds : Assigned m c)
    (kept : ∀ v entry, c.version = some v → m.versions.get? v = some entry →
      ∃ after, n.versions.get? v = some after ∧
        ∀ id ∈ c.profiles, entry.profiles.contains id → after.profiles.contains id) : Assigned n c := by
  refine ⟨holds.alive, holds.distinct, holds.unversioned, holds.occupied, fun v version => ?_⟩
  obtain ⟨entry, found, present⟩ := holds.stored v version
  obtain ⟨after, found', stays⟩ := kept v entry version found
  exact ⟨after, found', fun id member => stays id member (present id member)⟩

-- A version put in its place keeps the assignments if it keeps the profiles that are assigned.
theorem assigned_of_put {m : MemoryStore} {c : Container} (holds : Assigned m c)
    (found : m.versions.get? v = some entry)
    (stays : c.version = some v → ∀ id ∈ c.profiles, entry.profiles.contains id →
      after.profiles.contains id) : Assigned (m.put v after) c := by
  refine assigned_of_kept holds fun w other version found' => ?_
  rw [get?_put]
  split
  · rename_i same
    subst same
    cases found.symm.trans found'
    exact ⟨after, rfl, stays version⟩
  · exact ⟨other, found', fun _ _ present => present⟩

theorem Edit.assigned {r : ContainerRegistry} {m : MemoryStore} {c : Container} (edit : Edit r m n)
    (live : c ∈ r.list) (holds : Assigned m c) : Assigned n c := by
  cases edit with
  | same => exact holds
  | @versionAdded v attributes profiles absent _ =>
      refine assigned_of_kept holds fun w entry version found => ?_
      rw [get?_put, if_neg fun same => by rw [same, absent] at found; cases found]
      exact ⟨entry, found, fun _ _ present => present⟩
  | @versionRemoved v unused =>
      refine assigned_of_kept holds fun w entry version found => ?_
      have other : w ≠ v := fun same => unused c live holds.alive (same ▸ version)
      rw [Dict.get?_erase, if_neg other]
      exact ⟨entry, found, fun _ _ present => present⟩
  | profileAdded found _ _ =>
      exact assigned_of_put holds found fun _ id _ present => Dict.contains_insert.mpr (.inr present)
  | profileRemoved found _ unused =>
      refine assigned_of_put holds found fun version id member present => ?_
      refine Dict.contains_erase.mpr ⟨fun same => ?_, present⟩
      exact unused c live version (same ▸ member)

theorem Replaces.assigned {m : MemoryStore} {c : Container} (replaces : m.Replaces p n)
    (holds : Assigned m c) : Assigned n c := by
  obtain ⟨found, _, _⟩ := replaces
  exact assigned_of_put holds found fun _ id _ present => Dict.contains_insert.mpr (.inr present)

end MemoryStore

-- Every live container stands under its own identity with an assignment in order.
def ContainerRegistry.Assigned (r : ContainerRegistry) (m : MemoryStore) : Prop :=
  ∀ id c, r.live.get? id = some c → c.identity = id ∧ Container.Assigned m c

namespace ContainerRegistry

variable {r : ContainerRegistry} {m : MemoryStore}

theorem Assigned.modify (holds : r.Assigned m) (id : ContainerId) {change : Container → Container}
    (kept : ∀ c, r.live.get? id = some c → Container.Assigned m c →
      (change c).identity = c.identity ∧ Container.Assigned m (change c)) :
    (r.modify id change).Assigned m := by
  intro other c live
  rw [get?_modify] at live
  split at live
  · rename_i same
    obtain ⟨before, live', rfl⟩ := Option.map_eq_some_iff.mp live
    obtain ⟨named, assigned⟩ := holds id before live'
    obtain ⟨identity, stays⟩ := kept before live' assigned
    exact ⟨identity.trans (named.trans same.symm), stays⟩
  · exact holds other c live

theorem Assigned.remove (holds : r.Assigned m) (id : ContainerId) : (r.remove id).Assigned m := by
  intro other c live
  rw [get?_remove] at live
  split at live
  · cases live
  · exact holds other c live

theorem mem_list {c : Container} : c ∈ r.list ↔ ∃ id, r.live.get? id = some c := Dict.mem_values

theorem Assigned.edit (holds : r.Assigned m) (edit : m.Edit r n) : r.Assigned n := by
  intro id c live
  obtain ⟨named, assigned⟩ := holds id c live
  exact ⟨named, edit.assigned (mem_list.mpr ⟨id, live⟩) assigned⟩

theorem Assigned.replace (holds : r.Assigned m) (replaces : m.Replaces p n) : r.Assigned n := by
  intro id c live
  obtain ⟨named, assigned⟩ := holds id c live
  exact ⟨named, replaces.assigned assigned⟩

theorem assigned_of_installed {c : Container} (holds : Container.Assigned m c) (installed : List Installed) :
    Container.Assigned m { c with installed } :=
  ⟨holds.alive, holds.distinct, holds.unversioned, holds.occupied, holds.stored⟩

end ContainerRegistry

namespace Deployment

variable {s t : Deployment} {me : Thread} {m : MemoryStore}

theorem checkAssignable_ok (memory : s.store = .memory m)
    (checked : s.checkAssignable me v ids = .ok ()) :
    s.permitVersion me v .read = .ok () ∧
      ∃ entry, m.versions.get? v = some entry ∧ ∀ id ∈ ids, entry.profiles.contains id := by
  simp only [checkAssignable, bind_eq_ok, checkListed_eq_ok memory] at checked
  obtain ⟨_, permitted, listed⟩ := checked
  exact ⟨permitted, listed⟩

theorem newContainer_assigned (memory : s.store = .memory m) {r : ContainerRequest}
    (checked : ∀ v, s.requestedVersion r = some v → s.checkAssignable me v r.profiles = .ok ()) :
    Assigned m (s.newContainer r) := by
  refine ⟨nofun, ?_, fun none => ?_, fun other => absurd rfl other, fun v version => ?_⟩
  · exact Container.addProfiles_nodup List.nodup_nil _
  · have empty : r.profiles = [] := by
      change s.requestedVersion r = Option.none at none
      unfold requestedVersion at none
      split at none
      · cases none
      · split at none
        · rename_i empty
          exact List.isEmpty_iff.mp empty
        · cases none
    refine ⟨rfl, ?_⟩
    simp [newContainer, Container.addProfiles, empty]
  · obtain ⟨_, entry, found, present⟩ := checkAssignable_ok memory (checked v version)
    refine ⟨entry, found, fun id member => ?_⟩
    rcases Container.mem_addProfiles.mp member with old | requested
    · cases old
    · exact present id requested

-- A checked version has whatever is assigned of it.
theorem assigned_of_listed {c : Container} (version : c.version = some v) (alive : c.state ≠ .destroyed)
    (distinct : c.profiles.Nodup) (occupied : c.state ≠ .created → c.profiles ≠ [])
    (listed : ∃ entry, m.versions.get? v = some entry ∧ ∀ id ∈ c.profiles, entry.profiles.contains id) :
    Assigned m c := by
  refine ⟨alive, distinct, fun none => ?_, occupied, fun w here => ?_⟩
  · rw [version] at none
    cases none
  · cases version.symm.trans here
    exact listed

-- What was assigned before belongs to the same version, or there was nothing.
theorem listed_of_extended {c : Container} (holds : Assigned m c) {w : Version} {ids : List ProfileId}
    (found : m.versions.get? (c.version.getD w) = some entry)
    (present : ∀ id ∈ ids, entry.profiles.contains id) {id : ProfileId} (known : id ∈ c.profiles ∨ id ∈ ids) : entry.profiles.contains id := by
  rcases known with old | new
  · cases before : c.version with
    | none => rw [(holds.unversioned before).2] at old; cases old
    | some v =>
        obtain ⟨entry', found', present'⟩ := holds.stored v before
        rw [before, Option.getD_some, found'] at found
        cases found
        exact present' id old
  · exact present id new

theorem Reassigned.assigned {c : Container} (memory : s.store = .memory m)
    (reassigned : Reassigned s me c changed) (holds : Assigned m c) :
    changed.identity = c.identity ∧ Assigned m changed := by
  refine ⟨reassigned.unmoved.1, ?_⟩
  cases reassigned with
  | @started profiles _ chosen checked =>
      refine assigned_of_listed rfl nofun ?_ (fun _ => ?_) (checkAssignable_ok memory checked).2
      · rw [chosen]
        split
        · exact List.pairwise_singleton _ _
        · exact holds.distinct
      · rw [chosen]
        split
        · exact List.cons_ne_nil _ _
        · rename_i some
          exact fun none => some (List.isEmpty_iff.mpr none)
  | moved checked =>
      exact assigned_of_listed rfl holds.alive holds.distinct holds.occupied
        (checkAssignable_ok memory checked).2
  | @extended ids checked =>
      obtain ⟨_, entry, found, present⟩ := checkAssignable_ok memory checked
      refine assigned_of_listed rfl holds.alive (Container.addProfiles_nodup holds.distinct ids)
        (fun other => ?_)
        ⟨entry, found, fun id member =>
          listed_of_extended holds found present (Container.mem_addProfiles.mp member)⟩
      obtain ⟨id, member⟩ := List.exists_mem_of_ne_nil _ (holds.occupied other)
      exact List.ne_nil_of_mem (Container.mem_addProfiles.mpr (.inl member))
  | unversioned ids none =>
      obtain ⟨created, empty⟩ := holds.unversioned none
      refine ⟨holds.alive, holds.distinct.filter _, fun _ => ⟨created, by simp [empty]⟩,
        fun other => absurd created other, fun v version => ?_⟩
      rw [none] at version
      cases version
  | @reduced v ids version _ left =>
      obtain ⟨entry, found, present⟩ := holds.stored v version
      exact assigned_of_listed version holds.alive (holds.distinct.filter _) (fun _ => left)
        ⟨entry, found, fun id member => present id (List.mem_filter.mp member).1⟩
  | emptied version checked =>
      exact assigned_of_listed version holds.alive (List.pairwise_singleton _ _)
        (fun _ => List.cons_ne_nil _ _) (checkAssignable_ok memory checked).2

def Grounded (s : Deployment) : Prop := ∃ m, s.store = .memory m ∧ m.Sound ∧ s.containers.Assigned m

theorem provision_assigned (holds : s.containers.Assigned m) (me : Thread) (caller : Option String)
    (id : ContainerId) : (s.provision me caller id).2.containers.Assigned m := by
  refine s.provision_elim me caller (P := fun out => out.2.containers.Assigned m) id (fun _ => holds)
    (fun _ _ _ _ _ _ _ => holds) fun c _ merged _ _ _ _ => ?_
  rw [reconcile_containers]
  exact holds.modify _ fun d _ assigned => ⟨rfl, ContainerRegistry.assigned_of_installed assigned _⟩

theorem Replaced.grounded (replaced : Replaced s me p t) (holds : s.Grounded) : t.Grounded := by
  obtain ⟨m, memory, sound, assigned⟩ := holds
  obtain ⟨n, after, replaces⟩ := replaced.replaces memory sound
  refine ⟨n, after, replaces.sound sound, ?_⟩
  obtain ⟨_, _, _, _⟩ := replaced
  exact assigned.replace replaces

theorem finishPass_assigned (holds : s.containers.Assigned m) (id : ContainerId) (pass : Pass) :
    (s.finishPass id pass).containers.Assigned m :=
  holds.modify id fun _ _ assigned => ⟨rfl, ContainerRegistry.assigned_of_installed assigned _⟩

theorem relink_assigned {r : ContainerRegistry} (holds : r.Assigned m) (id : ContainerId)
    (children : Container → KeySet ContainerId) :
    (r.modify id (fun c => { c with children := children c })).Assigned m :=
  holds.modify id fun _ _ assigned =>
    ⟨rfl, assigned.alive, assigned.distinct, assigned.unversioned, assigned.occupied, assigned.stored⟩

theorem provision_grounded (holds : s.Grounded) (me : Thread) (caller : Option String) (id : ContainerId) :
    (s.provision me caller id).2.Grounded := by
  obtain ⟨m, memory, sound, assigned⟩ := holds
  exact ⟨m, (s.provision_beside me caller id).store.trans memory, sound, provision_assigned assigned me caller id⟩

theorem Reassigned.grounded {c : Container} (reassigned : Reassigned s me c changed) (holds : s.Grounded)
    {id : ContainerId} (live : s.containers.live.get? id = some c) :
    (s.modify changed.identity (fun _ => changed)).Grounded := by
  obtain ⟨m, memory, sound, assigned⟩ := holds
  obtain ⟨identity, stays⟩ := reassigned.assigned memory (assigned id c live).2
  refine ⟨m, memory, sound, assigned.modify _ fun d live' _ => ?_⟩
  rw [identity, (assigned id c live).1, live] at live'
  cases live'
  exact ⟨identity, stays⟩

theorem Change.grounded (change : Change s t) (holds : s.Grounded) : t.Grounded := by
  obtain ⟨m, memory, sound, assigned⟩ := holds
  cases change with
  | switched _ _ _ => exact ⟨m, memory, sound, assigned⟩
  | told _ _ => exact ⟨m, memory, sound, assigned⟩
  | stored edits =>
      obtain ⟨n, after, edit⟩ := edits m memory sound
      exact ⟨n, after, edit.sound sound, assigned.edit edit⟩
  | @created r me absent checked =>
      have joined : ContainerRegistry.Assigned
          { live := s.containers.live.insert r.identity (s.newContainer r)
            destroyed := s.containers.destroyed.erase r.identity } m := by
        intro id c live
        rw [Dict.get?_insert] at live
        split at live
        · rename_i same
          cases live
          exact ⟨same.symm, newContainer_assigned memory checked⟩
        · exact assigned id c live
      refine ⟨m, memory, sound, ?_⟩
      unfold linkChild
      split
      · exact joined
      · exact relink_assigned joined _ _
  | retouched live retouched =>
      refine ⟨m, memory, sound, assigned.modify _ fun d live' holds => ?_⟩
      cases live.symm.trans live'
      exact ⟨by cases retouched <;> rfl, retouched.assigned holds⟩
  | @reassigned c me changed id caller live reassigned =>
      rw [changeAndProvision_snd]
      exact provision_grounded (reassigned.grounded ⟨m, memory, sound, assigned⟩ live) me caller _
  | @unreleased c changed id caller text live same =>
      refine ⟨m, memory, sound, finishPass_assigned (assigned.modify id fun d live' holds => ?_) id _⟩
      cases live.symm.trans live'
      rw [same]
      split
      · rename_i running
        have started : c.state = .started := by simpa [Container.isStarted] using running
        exact ⟨rfl, Container.Retouched.assigned (.stopped started) holds⟩
      · exact ⟨rfl, holds⟩
  | @destroyed c id caller live _ =>
      refine ⟨m, memory, sound, ?_⟩
      have gone := (finishPass_assigned (s := s.announce caller { container := id, stage := .removed })
        assigned id (s.provisioner.releaseAll c.installed)).remove id
      unfold removed unlinkChild
      dsimp only
      split
      · exact gone
      · exact relink_assigned gone _ _
  | updated caller replaced =>
      exact reprovisions_keep (replaced.grounded ⟨m, memory, sound, assigned⟩)
        (fun _ id holds => provision_grounded holds _ caller id) _ _

theorem act_grounded (holds : s.Grounded) (a : Action) : (s.act a).Grounded := by
  by_cases operation : ∃ me caller op, a = .perform me caller op
  · obtain ⟨me, caller, op, rfl⟩ := operation
    exact perform_keeps holds (fun _ _ => Change.grounded) (fun _ _ _ => Replaced.grounded) me caller op
  · obtain ⟨m, memory, sound, assigned⟩ := holds
    have aside := s.act_aside (a := a) fun me caller op same => operation ⟨me, caller, op, same⟩
    exact ⟨m, aside.1.trans memory, sound, aside.2 ▸ assigned⟩

theorem run_grounded (holds : s.Grounded) (actions : List Action) : (s.run actions).Grounded :=
  run_keeps holds fun _ a _ holds => act_grounded holds a

theorem mem_usersOf {id : ContainerId} {c : Container} (live : s.containers.live.get? id = some c)
    (version : c.version = some v) (test : Container → Bool) (passes : test c) :
    c.identity ∈ s.usersOf v test :=
  List.mem_map.mpr ⟨c, List.mem_filter.mpr ⟨ContainerRegistry.mem_list.mpr ⟨id, live⟩,
    by simp [version, passes]⟩, rfl⟩

theorem removeVersion_refused {id : ContainerId} {c : Container}
    (live : s.containers.live.get? id = some c) (alive : c.state ≠ .destroyed)
    (version : c.version = some v) (me : Thread) (listed : ProfileVersion) :
    (s.removeVersion me v).1 ≠ .ok listed := by
  have used := mem_usersOf live version (fun c => c.state ≠ .destroyed) (by simpa using alive)
  intro removed
  unfold removeVersion at removed
  cases prepared : s.prepareVersionRemoval me v with
  | error e => rw [prepared] at removed; cases removed
  | ok _ =>
      simp only [prepareVersionRemoval, bind_eq_ok, guard_eq_ok] at prepared
      obtain ⟨_, _, _, _, free, _⟩ := prepared
      have none : s.usersOf v (fun c => c.state ≠ .destroyed) = [] := by simpa using free
      rw [none] at used
      cases used

-- Neither what is assigned nor what it inherits from can be removed: one has a user, the other a child.
theorem removeProfile_refused {name : ContainerId} {c : Container} {id : ProfileId}
    (memory : s.store = .memory m) (sound : m.Sound) (found : m.versions.get? v = some entry)
    (live : s.containers.live.get? name = some c) (version : c.version = some v)
    (inherited : entry.profiles.Ancestral c.profiles id) (me : Thread) (p : Profile) :
    (s.removeProfile me v id).1 ≠ .ok p := by
  intro removed
  unfold removeProfile at removed
  cases prepared : s.prepareProfileRemoval me v id with
  | error e => rw [prepared] at removed; cases removed
  | ok _ =>
      simp only [prepareProfileRemoval, bind_eq_ok, guard_eq_ok, load_eq_ok memory sound] at prepared
      obtain ⟨_, _, _, ⟨entry', found', rfl⟩, _, _, alone, free, _⟩ := prepared
      cases found.symm.trans found'
      obtain ⟨root, assigned, path⟩ := inherited
      rcases path.cases_tail with rfl | ⟨child, _, edge⟩
      · have used := mem_usersOf live version (fun c => c.hasProfile id)
          (by simpa [Container.hasProfile] using assigned)
        have none : s.usersOf v (fun c => c.hasProfile id) = [] := by simpa using free
        rw [none] at used
        cases used
      · exact VersionState.leaf_of_childrenOf alone child edge

-- What is installed on the container, or would be, is computed from its own assignment.
theorem containerEffective_eq {id : ContainerId} {c : Container}
    (live : s.containers.live.get? id = some c) (version : c.version = some v) (occupied : c.profiles ≠ [])
    (me : Thread) : s.containerEffective me id = (do
      s.containerService.check
      s.permitContainer me id .read
      s.effectiveFor me v c.profiles) := by
  have own : (if c.profiles.isEmpty then [s.settings.defaultProfile] else c.profiles) = c.profiles :=
    if_neg fun empty => occupied (List.isEmpty_iff.mp empty)
  unfold containerEffective getContainer
  cases s.containerService.check with
  | error e => rfl
  | ok _ =>
      cases s.permitContainer me id .read with
      | error e => rfl
      | ok _ =>
          change (s.containers.get id >>= fun c => _) = _
          rw [get_eq_ok.mpr live]
          change s.effectiveFor me (c.version.getD _) (if c.profiles.isEmpty then _ else _) = _
          rw [own, version]
          rfl

-- Assignments are complete, lead to what is stored, and hold it in its place.
def WellAssigned (s : Deployment) : Prop :=
  ∃ m, s.store = .memory m ∧ ∀ id c, s.containers.live.get? id = some c →
    c.profiles.Nodup ∧
    (c.version = none → c.state = .created ∧ c.profiles = []) ∧
    (c.state = .started ∨ c.state = .stopped → c.version.isSome ∧ c.profiles ≠ []) ∧
    ∀ v, c.version = some v → ∃ entry, m.versions.get? v = some entry ∧
      (∀ p ∈ c.profiles, entry.profiles.contains p) ∧
      (∀ me listed, (s.removeVersion me v).1 ≠ .ok listed) ∧
      (∀ me p removed, entry.profiles.Ancestral c.profiles p → (s.removeProfile me v p).1 ≠ .ok removed) ∧
      ∃ listed, entry.profiles.linearize c.profiles = .ok listed ∧
        (∀ me, s.effectiveFor me v c.profiles = (s.permitVersion me v .read).map
          (fun _ => Profile.merge (Profile.effectiveIdentityFor v c.profiles) v listed)) ∧
        (c.profiles ≠ [] → ∀ me, s.containerEffective me id = (do
          s.containerService.check
          s.permitContainer me id .read
          s.effectiveFor me v c.profiles))

theorem Grounded.wellAssigned (holds : s.Grounded) : s.WellAssigned := by
  obtain ⟨m, memory, sound, assigned⟩ := holds
  refine ⟨m, memory, fun id c live => ?_⟩
  have own := (assigned id c live).2
  refine ⟨own.distinct, own.unversioned, fun active => ?_, fun v version => ?_⟩
  · have started : c.state ≠ .created := by
      rcases active with state | state <;> simp [state]
    refine ⟨?_, own.occupied started⟩
    cases version : c.version with
    | none => exact absurd (own.unversioned version).1 started
    | some v => rfl
  · obtain ⟨entry, found, present⟩ := own.stored v version
    have fitting := sound v entry found
    obtain ⟨listed, walked⟩ := Catalog.linearize_succeeds fitting.closed fitting.acyclic present
    refine ⟨entry, found, present, removeVersion_refused live own.alive version, ?_, listed, walked, ?_, ?_⟩
    · exact fun me p removed inherited =>
        removeProfile_refused memory sound found live version inherited me removed
    · exact fun me => (answers_of_stored memory sound found walked me).2.1
    · exact fun occupied me => containerEffective_eq live version occupied me

theorem run_wellAssigned (empty : s.store = .memory {}) (unused : s.containers = {})
    (actions : List Action) : (s.run actions).WellAssigned := by
  have start : s.Grounded := by
    refine ⟨{}, empty, MemoryStore.sound_empty, fun id c live => ?_⟩
    rw [unused] at live
    cases live
  exact (run_grounded start actions).wellAssigned

theorem run_wellAssigned_started :
    ∃ s, build {} (.memory {}) {} {} "" = .ok s ∧ s.store = .memory {} ∧ s.containers = {} ∧
      (s.run [.perform "main" none .start]).WellAssigned :=
  ⟨_, rfl, rfl, rfl, run_wellAssigned rfl rfl _⟩

end Deployment
end ContainerProfiles
