import ContainerProfiles.Proofs.RepeatedStarts
import ContainerProfiles.Proofs.RoomyStores
import ContainerProfiles.Proofs.Synchronisation

namespace ContainerProfiles.Deployment

-- Starts over files. A start that succeeds has supplied the default version and the default profile, as over
-- memory, and where both can be stored it goes on to the current container whatever else is in the store.

open FileTree
open Store (Housed)

variable {l : StoreLayout} {base : Path} {m n : MemoryStore} {s t : Deployment} {me : Thread}

section Leaving

variable (roomy : l.Roomy) (housed : Housed l base s.store m)

include roomy housed

theorem ensureVersion_leaves (me : Thread) :
    Leaves l base (fun _ n => n = m.withVersion s.defaultVersion) (s.ensureVersion me) := by
  unfold ensureVersion
  cases listed : s.versions with
  | error e => exact leaves_error housed e
  | ok versions =>
      have keys : versions = m.versions.keys := by
        simp only [Deployment.versions, bind_eq_ok, housed.reflects.versions, mapError_eq_ok] at listed
        obtain ⟨_, _, same⟩ := listed
        exact (Except.ok.inj same).symm
      dsimp only
      by_cases there : s.defaultVersion ∈ versions
      · rw [if_pos there]
        refine ⟨m, housed, fun _ _ => ?_⟩
        unfold MemoryStore.withVersion
        rw [if_pos (Dict.mem_keys.mp (keys ▸ there))]
      · rw [if_neg there]
        have named : ∀ p ∈ ([] : List Profile), Named p.identity := fun p listed => absurd listed List.not_mem_nil
        refine (addVersion_leaves roomy housed me _ named).done.mono ?_
        rintro _ n ⟨_, absent, rfl⟩
        unfold MemoryStore.withVersion
        rw [Dict.contains_false.mpr absent]
        rfl

theorem ensureProfile_leaves (me : Thread) :
    Leaves l base (fun _ n => n = m.withProfile s.defaultVersion s.settings.defaultProfile) (s.ensureProfile me) := by
  unfold ensureProfile
  cases got : s.getVersion me s.defaultVersion with
  | error e => exact leaves_error housed e
  | ok listed =>
      obtain ⟨entry, stored, rfl⟩ := getVersion_reflects housed.reflects got
      dsimp only
      by_cases there : s.settings.defaultProfile ∈ entry.profiles.keys
      · rw [if_pos there]
        refine ⟨m, housed, fun _ _ => ?_⟩
        unfold MemoryStore.withProfile
        rw [stored]
        exact (if_pos (Dict.mem_keys.mp there)).symm
      · rw [if_neg there]
        cases built : ((Profile.start s.settings.defaultProfile).withVersion s.defaultVersion).build with
        | error e => exact leaves_error housed _
        | ok p =>
            obtain ⟨_, _, same⟩ := bind_eq_ok.mp built
            cases pure_eq_ok.mp same
            have absent : ¬ entry.profiles.contains s.settings.defaultProfile := fun present =>
              there (Dict.mem_keys.mpr present)
            have accepted := MemoryStore.addProfile_ok
              (p := (Profile.start s.settings.defaultProfile).withVersion s.defaultVersion) stored
              (Dict.contains_false.mp (Bool.eq_false_iff.mpr absent))
            refine (addProfile_leaves roomy housed me _).done.mono ?_
            rintro _ n ⟨_, done⟩
            unfold MemoryStore.withProfile
            rw [stored]
            exact (Except.ok.inj (done.symm.trans accepted)).trans (if_neg absent).symm

-- It fails before it comes to the current container, or goes on to it with both supplied.
theorem start_housed (me : Thread) :
    ∃ store n, Housed l base store n ∧ ((∃ e, s.start me = (.error e, s.opened store)) ∨
      n = m.supplied s.defaultVersion s.settings.defaultProfile ∧
        s.start me = andThen ((s.opened store).ensureContainer me)
          fun c t => (.ok c, { t with current := some t.settings.currentContainer })) := by
  have versioned : ∀ outcome one, (s.opened s.store).ensureVersion me = (outcome, s.opened one) →
      ∃ n, Housed l base one n ∧ (outcome = .ok () → n = m.withVersion s.defaultVersion) := by
    intro outcome one ended
    obtain ⟨n, still, made⟩ := ensureVersion_leaves (s := s.opened s.store) roomy housed me
    rw [ended] at still made
    exact ⟨n, still, made ()⟩
  have profiled : ∀ outcome one store n, Housed l base one n →
      (s.opened one).ensureProfile me = (outcome, s.opened store) → ∃ k, Housed l base store k ∧
        (outcome = .ok () → k = n.withProfile s.defaultVersion s.settings.defaultProfile) := by
    intro outcome one store n housed ended
    obtain ⟨k, still, made⟩ := ensureProfile_leaves (s := s.opened one) roomy housed me
    rw [ended] at still made
    exact ⟨k, still, made ()⟩
  refine s.start_elim me (P := fun out => ∃ store n, Housed l base store n ∧
    ((∃ e, out = (.error e, s.opened store)) ∨ n = m.supplied s.defaultVersion s.settings.defaultProfile ∧
      out = andThen ((s.opened store).ensureContainer me)
        fun c t => (.ok c, { t with current := some t.settings.currentContainer }))) ?_ ?_ ?_
  · intro e store first
    obtain ⟨n, still, _⟩ := versioned _ _ first
    exact ⟨store, n, still, .inl ⟨e, rfl⟩⟩
  · intro one e store first second
    obtain ⟨n, between, _⟩ := versioned _ _ first
    obtain ⟨k, still, _⟩ := profiled _ _ _ n between second
    exact ⟨store, k, still, .inl ⟨e, rfl⟩⟩
  · intro one store first second
    obtain ⟨n, between, made⟩ := versioned _ _ first
    obtain rfl := made rfl
    obtain ⟨k, still, supplied⟩ := profiled _ _ _ _ between second
    exact ⟨store, k, still, .inr ⟨supplied rfl, rfl⟩⟩

end Leaving

-- The deployment that a start leaves, whether it succeeds or not.
theorem start_leaves (roomy : l.Roomy) (housed : Housed l base s.store m) (me : Thread) :
    Leaves l base (fun _ n => n = m.supplied s.defaultVersion s.settings.defaultProfile) (s.start me) := by
  obtain ⟨store, n, still, ⟨e, failed⟩ | ⟨supplied, starts⟩⟩ := start_housed roomy housed me
  · rw [failed]
    exact ⟨n, still, nofun⟩
  · have same := ((s.opened store).ensureContainer_beside me).store
    refine ⟨n, ?_, fun _ _ => supplied⟩
    rw [starts]
    exact andThen_keeps (P := fun t => Housed l base t.store n) (same ▸ still) fun _ _ still => still

-- After one that succeeds the locks are as they were and the profile service runs.
theorem start_running {c : Container} (started : s.start me = (.ok c, t)) :
    t.locks = s.locks ∧ t.profileService.active := by
  obtain ⟨store, ⟨e, failed⟩ | starts⟩ := s.start_filled me
  · cases failed.symm.trans started
  · have beside := (s.opened store).ensureContainer_beside me
    obtain ⟨_, u, ensured, rest⟩ := andThen_eq_ok.mp (starts.symm.trans started)
    rw [ensured] at beside
    cases rest
    exact ⟨beside.fixed.locks, congrArg Component.active (beside.same (·.profileService) fun _ _ _ _ => rfl)⟩

section Supplied

variable (housed : Housed l base s.store m) (active : s.profileService.active) (unlocked : s.Unlocked)

include housed active unlocked

theorem ensureVersion_succeeds (admitted : l.Admits s.defaultVersion) (me : Thread) :
    (s.ensureVersion me).1 = .ok () := by
  have listed : s.versions = .ok m.versions.keys := by
    unfold versions Component.check
    rw [if_pos active, housed.reflects.versions]
    rfl
  unfold ensureVersion
  rw [listed]
  dsimp only
  by_cases there : s.defaultVersion ∈ m.versions.keys
  · rw [if_pos there]
  · rw [if_neg there]
    let empty : ProfileVersion := { version := s.defaultVersion, profiles := [], attributes := ∅ }
    have absent : m.versions.get? s.defaultVersion = none :=
      Dict.contains_false.mp (Bool.eq_false_iff.mpr fun present => there (Dict.mem_keys.mpr present))
    have prepared : s.prepareVersion me empty [] = .ok (.ofProfiles empty []) := by
      simp only [prepareVersion, bind_eq_ok, guard_eq_ok, mapError_eq_ok, pure_eq_ok]
      refine ⟨(), unlocked.permitVersion active me _ _, none, ?_, Bool.false_ne_true, fun full => full rfl, (), rfl,
        trivial⟩
      rw [housed.reflects.version?, MemoryStore.version?, absent]
      rfl
    have added := addVersion_accepted housed.reflects admitted (fun _ none => absurd none List.not_mem_nil) prepared
    rcases outcome : s.addVersion me empty [] with ⟨x, t⟩
    rw [outcome] at added
    cases added
    rfl

theorem ensureProfile_succeeds (there : m.versions.contains s.defaultVersion) (named : Named s.settings.defaultProfile)
    (shown : Text.blank s.settings.defaultProfile = false)
    (plain : (Profile.bare s.settings.defaultProfile s.defaultVersion).isEffective = false) (me : Thread) :
    (s.ensureProfile me).1 = .ok () := by
  obtain ⟨entry, found⟩ := Dict.contains_iff.mp there
  have got : s.getVersion me s.defaultVersion = .ok
      { version := s.defaultVersion, profiles := entry.profiles.keys, attributes := entry.attributes } := by
    simp only [getVersion, storedVersion, bind_eq_ok, mapError_eq_ok, housed.reflects.version?,
      MemoryStore.version?, found]
    exact ⟨(), unlocked.permitVersion active me _ _, _, rfl, rfl⟩
  unfold ensureProfile
  rw [got]
  dsimp only
  by_cases present : s.settings.defaultProfile ∈ entry.profiles.keys
  · rw [if_pos present]
  · rw [if_neg present]
    let p := Profile.bare s.settings.defaultProfile s.defaultVersion
    have new : ¬ entry.profiles.contains s.settings.defaultProfile := fun inside => present (Dict.mem_keys.mpr inside)
    have valid : p.validate = .ok () := Profile.validate_bare shown _
    have built : ((Profile.start s.settings.defaultProfile).withVersion s.defaultVersion).build = .ok p := by
      change (do p.validate; return p) = _
      rw [valid]
      rfl
    have prepared : s.prepareProfile me p = .ok () := by
      simp only [prepareProfile, bind_eq_ok, guard_eq_ok]
      refine ⟨(), unlocked.permitVersion active me _ _, _, load_stored housed.reflects housed.keyed found, new, ?_⟩
      exact VersionState.check_alone ((Dict.get?_insert ..).trans (if_pos rfl)) valid plain rfl rfl
    obtain ⟨t, files, mirrors⟩ := housed.files
    have written := (Store.mirrored_write (mirrors.addProfile (p := p) named s.clock)).1
    rw [MemoryStore.addProfile_ok (p := p) found (Dict.contains_false.mp (Bool.eq_false_iff.mpr new))] at written
    rw [built]
    dsimp only
    unfold addProfile
    rw [prepared, files, Store.addProfile]
    rcases outcome : Store.onFiles (FileStore.addProfile ⟨l, t⟩ s.clock p) with ⟨x, after⟩
    rw [outcome] at written
    cases written
    rfl

end Supplied

-- Where both can be stored a start comes to the current container.
theorem start_supplies (roomy : l.Roomy) (housed : Housed l base s.store m) (unlocked : s.Unlocked)
    (admitted : l.Admits s.defaultVersion) (named : Named s.settings.defaultProfile)
    (shown : Text.blank s.settings.defaultProfile = false)
    (plain : (Profile.bare s.settings.defaultProfile s.defaultVersion).isEffective = false) (me : Thread) :
    ∃ store, Housed l base store (m.supplied s.defaultVersion s.settings.defaultProfile) ∧
      s.start me = andThen ((s.opened store).ensureContainer me)
        fun c t => (.ok c, { t with current := some t.settings.currentContainer }) := by
  obtain ⟨one, versioned⟩ := (s.opened s.store).ensureVersion_eq me
  have first := ensureVersion_succeeds (s := s.opened s.store) housed rfl unlocked admitted me
  obtain ⟨n, still, made⟩ := ensureVersion_leaves (s := s.opened s.store) roomy housed me
  rw [versioned] at still
  obtain rfl := made _ first
  obtain ⟨two, profiled⟩ := (s.opened one).ensureProfile_eq me
  have second := ensureProfile_succeeds (s := s.opened one) still rfl unlocked (m.contains_withVersion _) named shown
    plain me
  obtain ⟨n, still, made⟩ := ensureProfile_leaves (s := s.opened one) roomy still me
  rw [profiled] at still
  obtain rfl := made _ second
  refine ⟨two, still, ?_⟩
  rw [start_eq, andThen_of_ok (Prod.ext first versioned)]
  exact andThen_of_ok (Prod.ext second profiled)

-- The same deployment over another store.
def withStore (s : Deployment) (store : Store) : Deployment := { s with store }

@[simp] theorem withStore_settings (s : Deployment) (store : Store) : (s.withStore store).settings = s.settings := rfl

@[simp] theorem withStore_containers (s : Deployment) (store : Store) :
    (s.withStore store).containers = s.containers := rfl

@[simp] theorem withStore_provisioner (s : Deployment) (store : Store) :
    (s.withStore store).provisioner = s.provisioner := rfl

@[simp] theorem withStore_announce (s : Deployment) (store : Store) (caller : Option String) (e : ProvisionEvent) :
    (s.withStore store).announce caller e = (s.announce caller e).withStore store := rfl

@[simp] theorem withStore_modify (s : Deployment) (store : Store) (id : ContainerId) (f : Container → Container) :
    (s.withStore store).modify id f = (s.modify id f).withStore store := rfl

@[simp] theorem withStore_getContainer (s : Deployment) (store : Store) (me : Thread) (id : ContainerId) :
    (s.withStore store).getContainer me id = s.getContainer me id := rfl

def carryOver (store : Store) (out : Outcome α) : Outcome α := (out.1, out.2.withStore store)

theorem settle_over {α : Type} (store : Store) {x y : Except OperationError (α × Deployment)}
    (alike : y = x.map fun made => (made.1, made.2.withStore store)) :
    (s.withStore store).settle y = carryOver store (s.settle x) := by
  subst alike
  cases x <;> rfl

theorem andThen_over {α β : Type} {store : Store} {first : Outcome α} {second : α → Deployment → Outcome β}
    (goes : ∀ x t, first = (.ok x, t) → second x (t.withStore store) = carryOver store (second x t)) :
    andThen (carryOver store first) second = carryOver store (andThen first second) := by
  obtain ⟨outcome, t⟩ := first
  cases outcome with
  | error e => rfl
  | ok x => exact goes x t rfl

theorem reconcile_over (store : Store) (caller : Option String) (c : Container) (effective : Profile) :
    (s.withStore store).reconcile caller c effective = carryOver store (s.reconcile caller c effective) := by
  unfold reconcile
  simp only [withStore_announce, withStore_provisioner, withStore_settings]
  split <;> rfl

section Over

variable {store : Store} (same : s.store.SameContent store)

include same

theorem storedVersion_over (v : Version) : (s.withStore store).storedVersion v = s.storedVersion v := by
  unfold storedVersion withStore
  dsimp only
  rw [same.version?]

theorem checkAssignable_over (me : Thread) (v : Version) (ids : List ProfileId) :
    (s.withStore store).checkAssignable me v ids = s.checkAssignable me v ids := by
  unfold checkAssignable checkListed
  rw [storedVersion_over same]
  rfl

theorem effectiveFor_over (me : Thread) (v : Version) (ids : List ProfileId) :
    (s.withStore store).effectiveFor me v ids = s.effectiveFor me v ids := by
  have listed : (s.withStore store).store.profiles v = s.store.profiles v := same.profiles v
  unfold effectiveFor order load
  rw [storedVersion_over same, listed]
  rfl

theorem checkRequest_over (me : Thread) (r : ContainerRequest) :
    (s.withStore store).checkRequest me r = s.checkRequest me r := by
  unfold checkRequest
  simp only [checkAssignable_over same]
  rfl

theorem create_over (me : Thread) (r : ContainerRequest) :
    (s.withStore store).create me r = carryOver store (s.create me r) := by
  refine settle_over store ?_
  rw [checkRequest_over same]
  cases s.checkRequest me r with
  | error e => rfl
  | ok _ =>
      change (s.containers.register (s.newContainer r) >>= _) =
        Except.map _ (s.containers.register (s.newContainer r) >>= _)
      cases s.containers.register (s.newContainer r) <;> rfl

theorem prepareStart_over (me : Thread) (id : ContainerId) :
    (s.withStore store).prepareStart me id = s.prepareStart me id := by
  unfold prepareStart
  simp only [checkAssignable_over same]
  rfl

theorem provision_over (me : Thread) (caller : Option String) (id : ContainerId) :
    (s.withStore store).provision me caller id = carryOver store (s.provision me caller id) := by
  unfold provision
  simp only [effectiveFor_over same, withStore_containers]
  cases s.containers.live.get? id with
  | none => rfl
  | some c =>
      dsimp only
      cases c.isStarted with
      | false => rfl
      | true =>
          cases c.version with
          | none => rfl
          | some v =>
              dsimp only
              cases s.effectiveFor me v c.profiles with
              | error e => rfl
              | ok effective => exact reconcile_over store caller c effective

theorem changeAndProvision_over (me : Thread) (caller : Option String) (changed : Container) :
    (s.withStore store).changeAndProvision me caller changed =
      carryOver store (s.changeAndProvision me caller changed) := by
  have passes := provision_over (s := s.modify changed.identity fun _ => changed) same me caller changed.identity
  unfold changeAndProvision
  rw [withStore_modify, passes]
  rcases (s.modify changed.identity fun _ => changed).provision me caller changed.identity with ⟨outcome, t⟩
  cases outcome <;> rfl

theorem startContainer_over (me : Thread) (id : ContainerId) (caller : Option String) :
    (s.withStore store).startContainer me id caller = carryOver store (s.startContainer me id caller) := by
  unfold startContainer
  rw [prepareStart_over same]
  cases s.prepareStart me id with
  | error e => rfl
  | ok c => exact changeAndProvision_over same me caller c

theorem ensureContainer_over (me : Thread) :
    (s.withStore store).ensureContainer me = carryOver store (s.ensureContainer me) := by
  let create : Outcome Unit := if s.containers.contains s.settings.currentContainer then (.ok (), s)
    else andThen (s.create me s.currentRequest) fun _ t => (.ok (), t)
  have creates : (if (s.withStore store).containers.contains s.settings.currentContainer then (.ok (), s.withStore store)
      else andThen ((s.withStore store).create me s.currentRequest) fun _ t => (.ok (), t)) = carryOver store create := by
    unfold create
    by_cases there : s.containers.contains s.settings.currentContainer
    · rw [if_pos there]
      exact if_pos there
    · rw [if_neg there]
      refine (if_neg there).trans ?_
      rw [create_over same]
      exact andThen_over fun _ _ _ => rfl
  have kept : create.2.store = s.store := by
    unfold create
    split
    · rfl
    · refine andThen_keeps (P := fun t => t.store = s.store) ?_ fun _ _ still => still
      rw [(create_beside ..).store]
  unfold ensureContainer
  refine (congrArg (andThen · _) creates).trans (andThen_over fun _ t created => ?_)
  change create = _ at created
  rw [created] at kept
  simp only [withStore_getContainer, withStore_settings]
  cases t.getContainer me s.settings.currentContainer with
  | error e => rfl
  | ok c =>
      dsimp only
      by_cases running : c.isStarted
      · rw [if_pos running, if_pos running]
        rfl
      · rw [if_neg running, if_neg running]
        exact startContainer_over (kept ▸ same) me _ none

end Over

end ContainerProfiles.Deployment
