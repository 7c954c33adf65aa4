import ContainerProfiles.Proofs.PassedStarts
import ContainerProfiles.Proofs.Survivors
import ContainerProfiles.Proofs.Updates

namespace ContainerProfiles

-- Starting a deployment again. After a start that succeeds the container named in the settings is the current one,
-- there and running; it can neither be stopped nor destroyed, and every further start finds it so.

-- A caller takes a lock or gives one back.
def Turn.Locks : Turn → Prop
  | .action (.lockContainer ..) | .action (.lockVersion ..) | .action (.unlock _) => True
  | _ => False

namespace MemoryStore

variable {m : MemoryStore} {v : Version} {id : ProfileId}

-- With the version, which has no profiles if it was missing.
def withVersion (m : MemoryStore) (v : Version) : MemoryStore :=
  if m.versions.contains v then m else m.put v { attributes := ∅ }

-- With the profile under a version that is there.
def withProfile (m : MemoryStore) (v : Version) (id : ProfileId) : MemoryStore :=
  match m.versions.get? v with
  | none => m
  | some entry =>
      if entry.profiles.contains id then m
      else m.put v { entry with profiles := entry.profiles.insert id (.bare id v) }

def supplied (m : MemoryStore) (v : Version) (id : ProfileId) : MemoryStore := (m.withVersion v).withProfile v id

theorem contains_withVersion (m : MemoryStore) (v : Version) : (m.withVersion v).versions.contains v := by
  unfold withVersion
  split
  · assumption
  · exact Dict.contains_iff.mpr ⟨_, (m.get?_put v v _).trans (if_pos rfl)⟩

theorem Sound.withVersion (sound : m.Sound) (v : Version) : (m.withVersion v).Sound := by
  unfold MemoryStore.withVersion
  split
  · exact sound
  · rename_i missing
    have edit : MemoryStore.Edit {} m (m.put v { attributes := ∅, profiles := .ofProfiles [] }) :=
      .versionAdded (Dict.contains_false.mp (Bool.eq_false_iff.mpr missing)) nofun
    exact edit.sound sound

end MemoryStore

namespace Deployment

variable {s t : Deployment} {me : Thread} {m : MemoryStore} {chosen : Settings}

theorem turn_locks (s : Deployment) {x : Turn} (free : ¬ x.Locks) : (s.turn x).locks = s.locks := by
  cases x with
  | switch profiles containers => rfl
  | action a =>
      cases a with
      | perform me caller op =>
          exact (s.perform_fixed me caller op).locks
      | lockContainer | lockVersion | unlock => exact absurd trivial free
      | _ => rfl

theorem turns_unlocked (unlocked : s.Unlocked) {ts : List Turn} (free : ∀ x ∈ ts, ¬ x.Locks) :
    (s.turns ts).Unlocked :=
  turns_keep (P := Unlocked) unlocked fun t x member holds key => t.turn_locks (free x member) ▸ holds key

theorem Unlocked.permitVersion (unlocked : s.Unlocked) (active : s.profileService.active) (me : Thread)
    (v : Version) (mode : LockMode) : s.permitVersion me v mode = .ok () := by
  unfold Deployment.permitVersion Component.check
  rw [if_pos active, unlocked.permit]
  rfl

theorem Unlocked.permitContainer (unlocked : s.Unlocked) (me : Thread) (id : ContainerId) (mode : LockMode) :
    s.permitContainer me id mode = .ok () := by
  unfold Deployment.permitContainer
  rw [unlocked.permit]
  rfl

theorem ensureVersion_supplies (memory : s.store = .memory m) (active : s.profileService.active)
    (unlocked : s.Unlocked) (me : Thread) :
    s.ensureVersion me = (.ok (), { s with store := .memory (m.withVersion s.defaultVersion) }) := by
  have listed : s.versions = .ok m.versions.keys := by
    unfold versions Component.check
    rw [if_pos active, memory]
    rfl
  unfold ensureVersion MemoryStore.withVersion
  rw [listed]
  dsimp only
  by_cases there : m.versions.contains s.defaultVersion
  · rw [if_pos (Dict.mem_keys.mpr there), if_pos there, ← memory]
  · rw [if_neg fun listed => there (Dict.mem_keys.mp listed), if_neg there]
    have absent := Dict.contains_false.mp (Bool.eq_false_iff.mpr there)
    let empty : ProfileVersion := { version := s.defaultVersion, profiles := [], attributes := ∅ }
    have prepared : s.prepareVersion me empty [] = .ok (.ofProfiles empty []) := by
      simp only [prepareVersion, bind_eq_ok, guard_eq_ok, mapError_eq_ok, pure_eq_ok]
      refine ⟨(), unlocked.permitVersion active me _ _, none, ?_, Bool.false_ne_true, fun full => full rfl, (), rfl,
        trivial⟩
      rw [memory, Store.version?, MemoryStore.version?, absent]
      rfl
    unfold addVersion
    rw [prepared, memory, Store.addVersion, MemoryStore.addVersion_ok absent]
    rfl

theorem ensureProfile_supplies (memory : s.store = .memory m) (sound : m.Sound)
    (there : m.versions.contains s.defaultVersion) (named : Text.blank s.settings.defaultProfile = false)
    (plain : (Profile.bare s.settings.defaultProfile s.defaultVersion).isEffective = false)
    (active : s.profileService.active) (unlocked : s.Unlocked) (me : Thread) :
    s.ensureProfile me =
      (.ok (), { s with store := .memory (m.withProfile s.defaultVersion s.settings.defaultProfile) }) := by
  obtain ⟨entry, found⟩ := Dict.contains_iff.mp there
  have listed : s.getVersion me s.defaultVersion = .ok
      { version := s.defaultVersion, profiles := entry.profiles.keys, attributes := entry.attributes } :=
    bind_eq_ok.mpr ⟨(), unlocked.permitVersion active me _ _, (storedVersion_eq_ok memory).mpr ⟨entry, found, rfl⟩⟩
  unfold ensureProfile MemoryStore.withProfile
  rw [listed, found]
  dsimp only
  by_cases present : entry.profiles.contains s.settings.defaultProfile
  · rw [if_pos (Dict.mem_keys.mpr present), if_pos present, ← memory]
  · rw [if_neg fun listed => present (Dict.mem_keys.mp listed), if_neg present]
    let p := Profile.bare s.settings.defaultProfile s.defaultVersion
    have valid : p.validate = .ok () := Profile.validate_bare named _
    have built : ((Profile.start s.settings.defaultProfile).withVersion s.defaultVersion).build = .ok p := by
      change (do p.validate; return p) = _
      rw [valid]
      rfl
    have prepared : s.prepareProfile me p = .ok () := by
      simp only [prepareProfile, bind_eq_ok, guard_eq_ok]
      refine ⟨(), unlocked.permitVersion active me _ _, _, (load_eq_ok memory sound).mpr ⟨entry, found, rfl⟩,
        present, ?_⟩
      exact VersionState.check_alone ((Dict.get?_insert ..).trans (if_pos rfl)) valid plain rfl rfl
    have absent : entry.profiles.get? p.identity = none :=
      Dict.contains_false.mp (Bool.eq_false_iff.mpr present)
    rw [built]
    dsimp only
    unfold addProfile
    rw [prepared, memory, Store.addProfile, MemoryStore.addProfile_ok found absent]
    rfl

-- A default profile that a start has seen or stored is not a merged one.
theorem ensureProfile_plain (holds : s.Stored) (ensured : s.ensureProfile me = (.ok (), t)) :
    (Profile.bare s.settings.defaultProfile s.defaultVersion).isEffective = false := by
  obtain ⟨m, memory, sound⟩ := holds
  unfold ensureProfile at ensured
  split at ensured
  · cases ensured
  rename_i listed got
  simp only [getVersion, bind_eq_ok, storedVersion_eq_ok memory] at got
  obtain ⟨_, _, entry, found, rfl⟩ := got
  split at ensured
  · rename_i present
    obtain ⟨p, held⟩ := Dict.contains_iff.mp (Dict.mem_keys.mp present)
    have plain := (sound _ entry found).plain _ p held
    unfold Profile.isEffective at plain ⊢
    rwa [(sound _ entry found).keyed _ p held] at plain
  · split at ensured
    · cases ensured
    · rename_i p built
      obtain ⟨_, _, same⟩ := bind_eq_ok.mp built
      cases pure_eq_ok.mp same
      obtain ⟨_, _, added, _⟩ := andThen_eq_ok.mp ensured
      unfold addProfile at added
      split at added
      · cases added
      · rename_i prepared
        simp only [prepareProfile, bind_eq_ok, guard_eq_ok] at prepared
        obtain ⟨_, _, _, _, _, checked⟩ := prepared
        exact (VersionState.fits_of_check checked).plain

theorem start_plain (holds : s.Stored) {c : Container} (started : s.start me = (.ok c, t)) :
    (Profile.bare s.settings.defaultProfile s.defaultVersion).isEffective = false := by
  obtain ⟨_, u, versioned, rest⟩ := andThen_eq_ok.mp started
  obtain ⟨_, w, profiled, _⟩ := andThen_eq_ok.mp rest
  have filled := (s.opened s.store).ensureVersion_eq me
  have stored := changes_keep (P := Stored) (s := s.opened s.store) (by exact holds) (fun _ _ => Change.stored_kept)
    ((s.opened s.store).ensureVersion_changes me)
  change (s.opened s.store).ensureVersion me = _ at versioned
  rw [versioned] at filled stored
  obtain ⟨store, rfl⟩ := filled
  have plain := ensureProfile_plain stored profiled
  exact plain

theorem stopContainer_current {id : ContainerId} (current : s.current = some id)
    (active : s.containerService.active) (me : Thread) :
    s.stopContainer me id = (.error (.obstacle (.currentContainer "stop" id)), s) := by
  unfold stopContainer checkNotCurrent Component.check
  rw [if_pos active, if_pos current]
  rfl

theorem destroy_current {id : ContainerId} (current : s.current = some id) (active : s.containerService.active)
    (me : Thread) (caller : Option String) :
    s.destroy me id caller = (.error (.obstacle (.currentContainer "destroy" id)), s) := by
  unfold destroy prepareDestruction checkNotCurrent Component.check
  rw [if_pos active, if_pos current]
  rfl

-- Whichever check comes first, nothing halts the current container.
theorem turn_current {id : ContainerId} (current : s.current = some id) {x : Turn} (halts : x.Halts id) :
    s.turn x = s := by
  obtain ⟨me, caller, halting⟩ := Turn.halts_cases halts
  by_cases active : s.containerService.active
  · rcases halting with rfl | rfl
    · exact congrArg Prod.snd (stopContainer_current current active me)
    · exact congrArg Prod.snd (destroy_current current active me caller)
  · have refused : s.containerService.check = .error (.inactive s.containerService.name) := if_neg active
    rcases halting with rfl | rfl
    · change (s.stopContainer me id).2 = s
      unfold stopContainer
      rw [refused]
      rfl
    · change (s.destroy me id caller).2 = s
      unfold destroy prepareDestruction
      rw [refused]
      rfl

-- The container of the settings is the current one and runs.
structure AtHome (chosen : Settings) (s : Deployment) : Prop where
  settings : s.settings = chosen
  current : s.current = some chosen.currentContainer
  running : ∃ c, s.containers.live.get? chosen.currentContainer = some c ∧ c.state = .started

theorem Carries.atHome {halted : ContainerId → Prop} (carries : Carries halted s t)
    (spared : ¬ halted chosen.currentContainer) (home : AtHome chosen s) : AtHome chosen t := by
  obtain ⟨c, live, running⟩ := home.running
  obtain ⟨d, after, runs⟩ := carries.containers.live _ c live
  exact ⟨carries.settings.trans home.settings, carries.current.trans home.current, d, after, runs spared running⟩

theorem atHome_of_start (forest : s.containers.Forest) (settings : s.settings = chosen) {c : Container}
    (started : (s.start me).1 = .ok c) : AtHome chosen (s.start me).2 := by
  subst settings
  rcases @start_cases s (fun _ => False) forest me with ⟨e, failed, _⟩ | ⟨d, t, ended, carries, live, running⟩
  · cases failed.symm.trans started
  · rw [ended]
    exact ⟨carries.settings, rfl, d, live, running⟩

-- Destroying another container takes nothing from this one but a child.
theorem AtHome.removed (home : AtHome chosen s) {id : ContainerId} (other : id ≠ chosen.currentContainer)
    (caller : Option String) (c : Container) : AtHome chosen (s.removed caller c id) := by
  obtain ⟨d, live, running⟩ := home.running
  refine ⟨home.settings, home.current, ?_⟩
  rw [get?_removed, if_neg (Ne.symm other), live]
  exact ⟨_, rfl, running⟩

theorem Course.atHome {x : Turn} (course : Course s x t) (spared : ¬ x.Halts chosen.currentContainer)
    (home : AtHome chosen s) : AtHome chosen t := by
  cases course with
  | onward carries => exact carries.atHome spared home
  | started _ carries live running =>
      rw [home.settings] at live ⊢
      exact ⟨carries.settings.trans home.settings, rfl, _, live, running⟩
  | destroyed _ _ => exact home.removed (fun same => spared (Eq.symm same)) _ _

theorem AtHome.turn (home : AtHome chosen s) (forest : s.containers.Forest) (x : Turn) :
    AtHome chosen (s.turn x) := by
  by_cases own : x.Halts chosen.currentContainer
  · rw [turn_current home.current own]
    exact home
  · exact (turn_course forest x).atHome own home

theorem turn_stored (holds : s.Stored) (x : Turn) : (s.turn x).Stored := by
  cases x with
  | action a => exact act_stored holds a
  | switch profiles containers => exact holds

theorem AtHome.ensureContainer (home : AtHome chosen s) (active : s.containerService.active)
    (unlocked : s.Unlocked) (me : Thread) :
    ∃ c, s.containers.live.get? chosen.currentContainer = some c ∧ s.ensureContainer me = (.ok c, s) := by
  obtain ⟨c, live, running⟩ := home.running
  refine ⟨c, live, ?_⟩
  have got : s.getContainer me chosen.currentContainer = .ok c := by
    simp only [getContainer, bind_eq_ok, get_eq_ok]
    exact ⟨(), if_pos active, (), unlocked.permitContainer me _ _, live⟩
  have there : s.containers.contains chosen.currentContainer := Dict.contains_iff.mpr ⟨c, live⟩
  unfold Deployment.ensureContainer
  dsimp only
  rw [home.settings, if_pos there]
  unfold andThen
  dsimp only
  rw [got]
  exact if_pos (by simpa [Container.isStarted] using running)

-- A deployment with these settings over a memory whose profiles fit together.
structure Settled (chosen : Settings) (s : Deployment) : Prop where
  settings : s.settings = chosen
  version : chosen.version = .ok s.defaultVersion
  named : Text.blank chosen.defaultProfile = false
  forest : s.containers.Forest
  stored : s.Stored

theorem Settled.turn (settled : Settled chosen s) (x : Turn) : Settled chosen (s.turn x) where
  settings := (turn_course settled.forest x).settings.trans settled.settings
  version := s.turn_defaultVersion x ▸ settled.version
  named := settled.named
  forest := turn_forest settled.forest x
  stored := turn_stored settled.stored x

-- One that was started.
structure Established (chosen : Settings) (s : Deployment) : Prop extends Settled chosen s where
  home : AtHome chosen s
  plain : (Profile.bare chosen.defaultProfile s.defaultVersion).isEffective = false

theorem Established.turn (established : Established chosen s) (x : Turn) : Established chosen (s.turn x) where
  toSettled := established.toSettled.turn x
  home := established.home.turn established.forest x
  plain := s.turn_defaultVersion x ▸ established.plain

theorem Settled.established (settled : Settled chosen s) {c : Container} (caller : Option String)
    (started : (s.start me).1 = .ok c) : Established chosen (s.turn (.action (.perform me caller .start))) where
  toSettled := settled.turn _
  home := atHome_of_start settled.forest settled.settings started
  plain := by
    rw [turn_defaultVersion, ← settled.settings]
    exact start_plain settled.stored (Prod.ext started rfl)

-- Where nobody holds a lock the store is never in the way of a start.
theorem Settled.start_eq (settled : Settled chosen s)
    (plain : (Profile.bare chosen.defaultProfile s.defaultVersion).isEffective = false) (unlocked : s.Unlocked)
    (me : Thread) :
    ∃ m, s.store = .memory m ∧ s.start me =
      andThen ((s.opened (.memory (m.supplied s.defaultVersion chosen.defaultProfile))).ensureContainer me)
        fun c t => (.ok c, { t with current := some t.settings.currentContainer }) := by
  obtain ⟨rfl, _, named, _, m, memory, sound⟩ := settled
  let one := s.opened (.memory (m.withVersion s.defaultVersion))
  let two := s.opened (.memory (m.supplied s.defaultVersion s.settings.defaultProfile))
  have versioned : (s.opened s.store).ensureVersion me = (.ok (), one) :=
    ensureVersion_supplies (s := s.opened s.store) memory rfl unlocked me
  have profiled : one.ensureProfile me = (.ok (), two) :=
    ensureProfile_supplies (s := one) rfl (sound.withVersion _) (m.contains_withVersion _) named plain rfl unlocked me
  refine ⟨m, memory, ?_⟩
  rw [Deployment.start_eq, andThen_of_ok versioned]
  exact andThen_of_ok profiled

theorem Established.start_eq (established : Established chosen s) (unlocked : s.Unlocked) (me : Thread) :
    ∃ m c, s.store = .memory m ∧ s.containers.live.get? chosen.currentContainer = some c ∧
      s.start me = (.ok c, s.opened (.memory (m.supplied s.defaultVersion chosen.defaultProfile))) := by
  obtain ⟨settled, ⟨rfl, current, running⟩, plain⟩ := established
  obtain ⟨m, memory, starts⟩ := settled.start_eq plain unlocked me
  let filled := s.opened (.memory (m.supplied s.defaultVersion s.settings.defaultProfile))
  obtain ⟨c, live, ensured⟩ := AtHome.ensureContainer (s := filled) ⟨rfl, current, running⟩ rfl unlocked me
  refine ⟨m, c, memory, live, ?_⟩
  rw [starts, ensured]
  change (Except.ok c, { filled with current := some s.settings.currentContainer }) = (.ok c, filled)
  rw [← current]
  rfl

-- The current container at any time after the first start: beyond reach, and as the next start leaves it.
structure Steady (chosen : Settings) (s : Deployment) : Prop where
  version : chosen.version = .ok s.defaultVersion
  home : AtHome chosen s
  unstoppable : s.containerService.active → ∀ me, s.stopContainer me chosen.currentContainer =
    (.error (.obstacle (.currentContainer "stop" chosen.currentContainer)), s)
  indestructible : s.containerService.active → ∀ me caller, s.destroy me chosen.currentContainer caller =
    (.error (.obstacle (.currentContainer "destroy" chosen.currentContainer)), s)
  -- Nothing is told and no container changes; the store is filled up.
  startable : s.Unlocked → ∀ me, ∃ m c, s.store = .memory m ∧
    s.containers.live.get? chosen.currentContainer = some c ∧
    s.start me = (.ok c, s.opened (.memory (m.supplied s.defaultVersion chosen.defaultProfile)))

theorem Established.steady (established : Established chosen s) : Steady chosen s where
  version := established.version
  home := established.home
  unstoppable := stopContainer_current established.home.current
  indestructible := destroy_current established.home.current
  startable := established.start_eq

theorem settled_of_build {supplied : Provisioner} (built : build chosen (.memory m) supplied heard time = .ok s)
    (sound : m.Sound) : Settled chosen s := by
  simp only [build, Settings.check, bind_eq_ok, guard_eq_ok, pure_eq_ok] at built
  obtain ⟨_, ⟨_, _, _, named, _⟩, _, version, rfl⟩ := built
  exact ⟨rfl, version, by simpa using named, ContainerRegistry.forest_empty, m, rfl, sound⟩

theorem unlocked_of_build {stored : Store} {supplied : Provisioner}
    (built : build chosen stored supplied heard time = .ok s) :
    s.Unlocked := by
  simp only [build, bind_eq_ok, pure_eq_ok] at built
  obtain ⟨_, _, _, _, rfl⟩ := built
  exact fun _ => rfl

-- However a deployment is used, from its first successful start on its current container stays. Where callers
-- keep their hands off the locks, nobody holds one in between.
theorem turns_steady {supplied : Provisioner} (built : build chosen (.memory m) supplied heard time = .ok s)
    (sound : m.Sound) (before after : List Turn) {c : Container} (caller : Option String)
    (started : ((s.turns before).start me).1 = .ok c) :
    let run := before ++ .action (.perform me caller .start) :: after
    Steady chosen (s.turns run) ∧ ((∀ x ∈ run, ¬ x.Locks) → (s.turns run).Unlocked) := by
  have settled : Settled chosen (s.turns before) :=
    turns_keep (settled_of_build built sound) fun _ x _ holds => holds.turn x
  have established := settled.established caller started
  refine ⟨?_, turns_unlocked (unlocked_of_build built)⟩
  rw [turns_append]
  exact (turns_keep (P := Established chosen) established fun _ x _ holds => holds.turn x).steady

-- What is built from the default settings.
def atRest : Deployment :=
  { settings := {}, defaultVersion := .first, store := .memory {}, clock := "", locks := { timeout := 10000 }
    provisioner := {} }

theorem build_atRest : build {} (.memory {}) {} {} "" = .ok atRest := rfl

theorem atRest_starts : ∃ c, (atRest.start "main").1 = .ok c :=
  ⟨root, congrArg Prod.fst (start_unstarted [])⟩

theorem turns_steady_stopped :
    ∃ s c, build {} (.memory {}) {} {} "" = .ok s ∧ MemoryStore.Sound {} ∧ ((s.turns []).start "main").1 = .ok c ∧
      let run := [] ++ .action (.perform "main" none .start) :: [.action (.perform "main" none .stop)]
      Steady {} (s.turns run) ∧ (s.turns run).Unlocked := by
  obtain ⟨c, started⟩ := atRest_starts
  obtain ⟨steady, unlocked⟩ :=
    turns_steady build_atRest MemoryStore.sound_empty [] [.action (.perform "main" none .stop)] none started
  exact ⟨atRest, c, build_atRest, MemoryStore.sound_empty, started, steady, unlocked (by simp [Turn.Locks])⟩

end Deployment
end ContainerProfiles
