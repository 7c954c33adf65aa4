import ContainerProfiles.Proofs.FailedWalks
import ContainerProfiles.Proofs.PassHistory
import ContainerProfiles.Proofs.RepeatedStarts

namespace ContainerProfiles

-- The preview of a container that does not run, and its start. One walks up from the profiles of the container,
-- the other looks them up in the version.

namespace Catalog

-- A walk over some roots is a walk over the first ones and from there over the others.
theorem Walk.halt_append {c : Catalog} (walk : Walk c opened listed before order)
    (halt : Halt c opened order rest e) : Halt c opened listed (before ++ rest) e := by
  induction walk with
  | done => exact halt
  | again old _ ih => exact .again old (ih halt)
  | fresh new unopened found parents _ _ ih => exact .beside new unopened found parents (ih halt)

-- What is stored has its ancestors there and no cycle above it, so only a root can be missing.
theorem linearize_missing {c : Catalog} (sound : c.Sound v) {roots : List ProfileId} {id : ProfileId}
    (first : roots.find? (fun id => !c.contains id) = some id) : c.linearize roots = .error (.missing id) := by
  obtain ⟨absent, before, after, rfl, earlier⟩ := List.find?_eq_some_iff_append.mp first
  have stored : ∀ root ∈ before, c.contains root := by simpa using earlier
  obtain ⟨order, walked⟩ := linearize_succeeds sound.closed sound.acyclic stored
  have missing : c.get? id = none := Dict.contains_false.mp (by simpa using absent)
  have unlisted : id ∉ identities order := by
    intro member
    have present := (linearize_ordered sound.keyed walked).stored member
    simp [present] at absent
  apply linearize_eq_error.mpr
  exact (linearize_eq_ok.mp walked).halt_append (.absent unlisted List.not_mem_nil missing)

end Catalog

namespace Deployment

variable {s : Deployment} {me : Thread} {m : MemoryStore} {chosen : Settings} {id : ContainerId} {c : Container}

theorem storedVersion_missing (memory : s.store = .memory m) (absent : m.versions.get? v = none) :
    s.storedVersion v = .error (.versionNotFound v) := by
  have read : s.store.version? v = .ok none := by simp [memory, Store.version?, MemoryStore.version?, absent]
  unfold storedVersion
  rw [read]
  rfl

theorem checkListed_missing (memory : s.store = .memory m) (found : m.versions.get? v = some entry)
    {ids : List ProfileId} {id : ProfileId} (first : ids.find? (fun id => !entry.profiles.contains id) = some id) :
    s.checkListed v ids = .error (.profileNotFound v id) := by
  have keys : (fun id => !entry.profiles.keys.contains id) = fun id => !entry.profiles.contains id := by
    funext id
    rw [Bool.eq_iff_iff]
    simp [Dict.mem_keys]
  have listed := (storedVersion_eq_ok memory).mpr ⟨entry, found, rfl⟩
  rw [← keys] at first
  simp only [checkListed, listed, bind, Except.bind, first]
  rfl

-- There is an effective profile exactly where the check passes, and elsewhere both give the same error.
theorem effectiveFor_checks (stored : s.Stored) (active : s.profileService.active) (unlocked : s.Unlocked)
    (me : Thread) (v : Version) (ids : List ProfileId) :
    (s.effectiveFor me v ids).map (fun _ => ()) = s.checkListed v ids := by
  obtain ⟨m, memory, sound⟩ := stored
  have walks : s.order me v ids = s.load v >>= fun state => state.linearize v ids := by
    unfold order
    rw [unlocked.permitVersion active]
    rfl
  unfold effectiveFor
  rw [walks]
  cases found : m.versions.get? v with
  | none =>
      unfold load checkListed
      rw [storedVersion_missing memory found]
      rfl
  | some entry =>
      have fitting := sound v entry found
      rw [(load_eq_ok memory sound).mpr ⟨entry, found, rfl⟩]
      cases first : ids.find? (fun id => !entry.profiles.contains id) with
      | none =>
          have present : ∀ id ∈ ids, entry.profiles.contains id := by simpa using List.find?_eq_none.mp first
          obtain ⟨listed, walked⟩ := Catalog.linearize_succeeds fitting.closed fitting.acyclic present
          rw [(checkListed_eq_ok memory).mpr ⟨entry, found, present⟩]
          change ((((entry.profiles.linearize ids).mapError _) >>= _ : Except OperationError Profile).map _) = _
          rw [walked]
          rfl
      | some id =>
          rw [checkListed_missing memory found first]
          change ((((entry.profiles.linearize ids).mapError _) >>= _ : Except OperationError Profile).map _) = _
          rw [Catalog.linearize_missing fitting first]
          rfl

-- The container as a start commits it, with the defaults for what it is not assigned.
def launched (s : Deployment) (c : Container) : Container :=
  { c with
    version := some (c.version.getD s.defaultVersion)
    profiles := if c.profiles.isEmpty then [s.settings.defaultProfile] else c.profiles
    state := .started }

theorem containerEffective_launched (live : s.containers.live.get? id = some c)
    (active : s.containerService.active) (unlocked : s.Unlocked) (me : Thread) :
    s.containerEffective me id = s.effectiveFor me (c.version.getD s.defaultVersion) (s.launched c).profiles := by
  have seen : s.getContainer me id = .ok c := by
    simp only [getContainer, bind_eq_ok, get_eq_ok]
    exact ⟨(), if_pos active, (), unlocked.permitContainer me _ _, live⟩
  unfold containerEffective
  rw [seen]
  rfl

theorem prepareStart_launched (live : s.containers.live.get? id = some c) (idle : c.state.canBecome .started)
    (profiles : s.profileService.active) (containers : s.containerService.active) (unlocked : s.Unlocked)
    (me : Thread) : s.prepareStart me id =
      (s.checkListed (c.version.getD s.defaultVersion) (s.launched c).profiles).map fun _ => s.launched c := by
  have current : s.forChange me id "started" = .ok c := by
    simp only [forChange, bind_eq_ok, getFor_eq_ok]
    exact ⟨(), unlocked.permitContainer me _ _, live⟩
  have looks : ∀ v ids, s.checkAssignable me v ids = s.checkListed v ids := by
    intro v ids
    unfold checkAssignable
    rw [unlocked.permitVersion profiles]
    rfl
  unfold prepareStart Component.check
  rw [if_pos containers, current]
  change (c.state.checkBecomes id .started >>= fun _ =>
    s.checkAssignable me _ (s.launched c).profiles >>= fun _ => pure (s.launched c)) = _
  have becomes : c.state.checkBecomes id .started = .ok () := if_pos idle
  rw [becomes, looks]
  change (s.checkListed _ (s.launched c).profiles >>= fun _ => _) = _
  cases s.checkListed (c.version.getD s.defaultVersion) (s.launched c).profiles <;> rfl

-- A preview and a start right after it.
structure Foretold (s : Deployment) (id : ContainerId) (c : Container) : Prop where
  -- Nothing comes of a preview,
  looks : ∀ reader heard, s.turn (.action (.perform reader heard (.containerEffective id))) = s
  -- where it shows a profile a start passes its checks, and its pass is against that profile,
  passes : ∀ reader p, s.containerEffective reader id = .ok p → ∀ me caller,
    let d := s.launched c
    let t := s.modify id fun _ => d
    let pass := s.provisioner.reconcile s.settings.runtime p c.installed
    s.prepareStart me id = .ok d ∧ t.effectiveFor me (c.version.getD s.defaultVersion) d.profiles = .ok p ∧
    s.startContainer me id caller =
      ((pass.outcome.mapError .provision).map fun _ => { d with installed := pass.installed },
        (t.reconcile caller d p).2)
  -- and where it has an error a start has the same one and changes nothing.
  fails : ∀ reader e, s.containerEffective reader id = .error e → ∀ me caller,
    s.startContainer me id caller = (.error e, s)

theorem Unlocked.effectiveFor_any (unlocked : s.Unlocked) (active : s.profileService.active) (one two : Thread)
    (v : Version) (ids : List ProfileId) : s.effectiveFor one v ids = s.effectiveFor two v ids := by
  unfold effectiveFor order
  rw [unlocked.permitVersion active, unlocked.permitVersion active]

theorem foretold (stored : s.Stored) (named : c.identity = id) (live : s.containers.live.get? id = some c)
    (idle : c.state.canBecome .started) (profiles : s.profileService.active) (containers : s.containerService.active)
    (unlocked : s.Unlocked) : Foretold s id c := by
  subst named
  have prepares := prepareStart_launched live idle profiles containers unlocked
  have checks := effectiveFor_checks stored profiles unlocked
  refine ⟨fun _ _ => rfl, fun reader p shown me caller => ?_, fun reader e failed me caller => ?_⟩
  · rw [containerEffective_launched live containers unlocked, unlocked.effectiveFor_any profiles _ me] at shown
    have prepared : s.prepareStart me c.identity = .ok (s.launched c) := by
      rw [prepares, ← checks me, shown]
      rfl
    refine ⟨prepared, shown, ?_⟩
    unfold startContainer
    rw [prepared]
    exact changeAndProvision_passes (d := s.launched c) live rfl rfl shown caller
  · rw [containerEffective_launched live containers unlocked, unlocked.effectiveFor_any profiles _ me] at failed
    have refused : s.prepareStart me c.identity = .error e := by
      rw [prepares, ← checks me, failed]
      rfl
    unfold startContainer
    rw [refused]

-- Whatever was done before, where nobody holds a lock and both services run.
theorem turns_foretold {supplied : Provisioner} (built : build chosen (.memory m) supplied heard time = .ok s)
    (sound : m.Sound) (ts : List Turn) (live : (s.turns ts).containers.live.get? id = some c)
    (idle : c.state = .created ∨ c.state = .stopped) (profiles : (s.turns ts).profileService.active)
    (containers : (s.turns ts).containerService.active) (unlocked : (s.turns ts).Unlocked) :
    Foretold (s.turns ts) id c := by
  have settled : Settled chosen (s.turns ts) :=
    turns_keep (settled_of_build built sound) fun _ x _ holds => holds.turn x
  have becomes : c.state.canBecome .started := by rcases idle with state | state <;> rw [state] <;> rfl
  exact foretold settled.stored (settled.forest.keyed id c live) live becomes profiles containers unlocked

def creating : List Turn := [.switch true true, .action (.perform "main" none (.create { identity := "a" }))]

def unassigned : Container := { identity := "a" }

-- The default version is there with the default profile.
def provided : Deployment := staged [.bare "default" .first] { name := "repository" }

def defaultMerged : Profile :=
  Profile.merge (Profile.effectiveIdentityFor .first ["default"]) .first [.bare "default" .first]

theorem bare_fits : (Catalog.ofProfiles [.bare "default" .first]).Fits .first (.bare "default" .first) where
  valid := Profile.validate_bare (by decide +kernel) .first
  plain := by decide +kernel
  version := rfl
  parents := nofun
  walked := ⟨_, Catalog.linearize_eq_ok.mpr (.fresh List.not_mem_nil List.not_mem_nil rfl .done .done)⟩

theorem provided_sound : MemoryStore.Sound
    { versions := Dict.insert ∅ .first { attributes := ∅, profiles := .ofProfiles [.bare "default" .first] } } :=
  MemoryStore.put_sound MemoryStore.sound_empty (Catalog.ofProfiles_sound (List.forall_mem_singleton.mpr bare_fits))

-- The preview shows the default profile where it is stored, and elsewhere says what is missing.
theorem turns_foretold_defaults :
    Foretold (provided.turns creating) "a" unassigned ∧
    (provided.turns creating).containerEffective "main" "a" = .ok defaultMerged ∧
    Foretold (atRest.turns creating) "a" unassigned ∧
    (atRest.turns creating).containerEffective "main" "a" = .error (.versionNotFound .first) := by
  have live : (provided.turns creating).containers.live.get? "a" = some unassigned := rfl
  have shown : (provided.turns creating).effectiveFor "main" .first ["default"] = .ok defaultMerged :=
    effectiveFor_of_walk rfl rfl (.fresh List.not_mem_nil List.not_mem_nil rfl .done .done)
  refine ⟨?_, ?_, ?_, rfl⟩
  · exact turns_foretold (build_staged _ _) provided_sound creating live (.inl rfl) rfl rfl fun _ => rfl
  · rw [containerEffective_launched live rfl fun _ => rfl]
    exact shown
  · exact turns_foretold build_atRest MemoryStore.sound_empty creating rfl (.inl rfl) rfl rfl fun _ => rfl

end Deployment
end ContainerProfiles
