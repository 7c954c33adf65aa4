import ContainerProfiles.Proofs.RefusedRuns

namespace ContainerProfiles

-- An exchanged profile, in a store of either kind. Whoever descends from the profile descends from it before and
-- after; for everyone else the same ancestors are found, or the same error.

namespace Store

variable {admits : Version → Prop} {m : MemoryStore} {store written : Store} {p : Profile}

theorem Reflects.profile_updated (reflects : store.Reflects admits m) {now : String}
    (stored : m.versions.get? p.version = some entry) (present : entry.profiles.contains p.identity)
    (done : store.updateProfile now p = (.ok (), written)) :
    written.Reflects admits (m.put p.version { entry with profiles := entry.profiles.insert p.identity p }) := by
  have accepted := MemoryStore.updateProfile_ok stored present
  cases reflects with
  | memory =>
      unfold Store.updateProfile at done
      dsimp only at done
      rw [accepted] at done
      cases done
      exact .memory _
  | @files l t base _ fits mirrors =>
      obtain ⟨q, got⟩ := Dict.contains_iff.mp present
      have named := ((mirrors.held _ _ stored).written _ q got).1
      have ended := (mirrors.updateProfile named.checked now)
      unfold Store.updateProfile at done
      dsimp only at done
      rcases result : FileStore.updateProfile ⟨l, t⟩ now p with ⟨outcome, layout, tree⟩
      rw [result] at ended done
      cases done
      obtain ⟨_, same, mirrored⟩ := ended
      rw [accepted] at mirrored
      cases same
      exact .files fits mirrored

end Store

namespace Deployment

variable {admits : Version → Prop} {m : MemoryStore} {s t : Deployment} {me : Thread} {p : Profile}

theorem load_stored (reflects : s.store.Reflects admits m) (keyed : m.Keyed)
    (stored : m.versions.get? v = some entry) :
    s.load v = .ok
      { listed := { version := v, profiles := entry.profiles.keys, attributes := entry.attributes }
        profiles := entry.profiles } := by
  have listed : m.version? v = some
      { version := v, profiles := entry.profiles.keys, attributes := entry.attributes } := by
    unfold MemoryStore.version?
    rw [stored]
    rfl
  unfold load storedVersion
  rw [reflects.version?, reflects.profiles, listed, MemoryStore.profiles_eq stored]
  simp [VersionState.ofProfiles, Catalog.ofProfiles_values (keyed v entry stored), Except.mapError, bind,
    Except.bind, pure, Except.pure]

theorem load_absent (reflects : s.store.Reflects admits m) (absent : m.versions.get? v = none) :
    s.load v = .error (.versionNotFound v) := by
  have unlisted : m.version? v = none := by
    unfold MemoryStore.version?
    rw [absent]
    rfl
  unfold load storedVersion
  rw [reflects.version?, unlisted]
  rfl

theorem load_iff (reflects : s.store.Reflects admits m) (keyed : m.Keyed) {state : VersionState} :
    s.load v = .ok state ↔ ∃ entry, m.versions.get? v = some entry ∧
      state = { listed := { version := v, profiles := entry.profiles.keys, attributes := entry.attributes }
                profiles := entry.profiles } := by
  cases stored : m.versions.get? v with
  | none =>
      rw [load_absent reflects stored]
      exact ⟨nofun, nofun⟩
  | some entry =>
      rw [load_stored reflects keyed stored]
      constructor
      · intro same
        cases same
        exact ⟨entry, rfl, rfl⟩
      · rintro ⟨_, same, rfl⟩
        cases same
        rfl

theorem load_keyed (backed : s.store.Backed admits) {state : VersionState} (loaded : s.load v = .ok state) :
    state.profiles.Keyed := by
  obtain ⟨m, reflects, keyed⟩ := backed
  obtain ⟨entry, stored, same⟩ := load_reflects reflects keyed loaded
  exact same ▸ keyed v entry stored

-- One version is read with the profile in the place of the one of its identity, and everything else as before. The
-- ancestors of the profile can be walked.
structure Exchange (s : Deployment) (p : Profile) (before : VersionState) (t : Deployment) : Prop where
  loaded : s.load p.version = .ok before
  present : before.profiles.contains p.identity
  reloaded : t.load p.version = .ok (before.put p)
  keyed : before.profiles.Keyed
  walked : ∃ order, (before.put p).profiles.linearize [p.identity] = .ok order
  others : ∀ v, v ≠ p.version → t.load v = s.load v
  versions : t.store.versions = s.store.versions
  locks : t.locks = s.locks
  service : t.profileService = s.profileService

theorem Replaced.exchange (replaced : Replaced s me p t) (backed : s.store.Backed admits) :
    t.store.Backed admits ∧ ∃ before, Exchange s p before t := by
  obtain ⟨m, reflects, keyed⟩ := backed
  obtain ⟨caller, e, prepared, done⟩ := replaced
  simp only [prepareReplacement, bind_eq_ok] at prepared
  obtain ⟨_, _, before, loaded, q, required, checked⟩ := prepared
  obtain ⟨entry, stored, same⟩ := (load_iff reflects keyed).mp loaded
  have present : before.profiles.contains p.identity := VersionState.contains_of_require required
  have walked := (VersionState.fits_of_check checked).walked
  unfold storeReplacement at done
  split at done
  · cases done
  let entry' : StoredVersion := { entry with profiles := entry.profiles.insert p.identity p }
  have within : entry.profiles.contains p.identity := by
    rw [same] at present
    exact present
  have reflects' := reflects.profile_updated stored within done
  have keyed' : (m.put p.version entry').Keyed := keyed.put ((keyed _ entry stored).insert p)
  have found := MemoryStore.get?_put m p.version p.version entry'
  rw [if_pos rfl] at found
  have listed : (entry.profiles.insert p.identity p).keys = entry.profiles.keys := Dict.keys_insert within
  have kept : (m.put p.version entry').versions.keys = m.versions.keys :=
    Dict.keys_insert (Dict.contains_iff.mpr ⟨entry, stored⟩)
  refine ⟨⟨_, reflects', keyed'⟩, before, loaded, present, ?_, ?_, walked, ?_, ?_, rfl, rfl⟩
  · rw [load_stored reflects' keyed' found, same, listed]
    rfl
  · rw [same]
    exact keyed _ entry stored
  · intro v other
    have apart := MemoryStore.get?_put m p.version v entry'
    rw [if_neg other] at apart
    cases held : m.versions.get? v with
    | none => exact (load_absent reflects' (apart.trans held)).trans (load_absent reflects held).symm
    | some entry => exact (load_stored reflects' keyed' (apart.trans held)).trans (load_stored reflects keyed held).symm
  · exact reflects'.versions.trans ((congrArg Except.ok kept).trans reflects.versions.symm)

-- The version is that of the profile, and an assigned profile inherits from it or is the profile itself.
def Descends (s : Deployment) (p : Profile) (c : Container) : Prop :=
  c.version = some p.version ∧
    ∃ state, s.load p.version = .ok state ∧ state.profiles.Ancestral c.profiles p.identity

theorem lineage_descends (backed : s.store.Backed admits) {c : Container} (version : c.version = some p.version)
    (answered : s.lineage me p.version c.profiles = .ok ids) : p.identity ∈ ids ↔ s.Descends p c := by
  simp only [lineage, order, bind_eq_ok, pure_eq_ok] at answered
  obtain ⟨order, ⟨_, _, state, loaded, walked⟩, rfl⟩ := answered
  have member : p.identity ∈ Catalog.identities order ↔ state.profiles.Ancestral c.profiles p.identity :=
    Catalog.mem_linearize (load_keyed backed loaded) (VersionState.linearize_eq_ok.mp walked)
  refine member.trans ⟨fun above => ⟨version, state, loaded, above⟩, ?_⟩
  rintro ⟨_, again, reloaded, above⟩
  cases loaded.symm.trans reloaded
  exact above

namespace Exchange

variable {before : VersionState} {c : Container}

theorem permitVersion (exchange : Exchange s p before t) : t.permitVersion = s.permitVersion := by
  funext me v mode
  unfold Deployment.permitVersion
  rw [exchange.locks, exchange.service]

theorem descends (exchange : Exchange s p before t) : t.Descends p c ↔ s.Descends p c := by
  refine and_congr_right fun _ => ?_
  constructor
  · rintro ⟨state, reloaded, above⟩
    cases exchange.reloaded.symm.trans reloaded
    exact ⟨before, exchange.loaded, Catalog.ancestral_exchanged.mp above⟩
  · rintro ⟨state, loaded, above⟩
    cases exchange.loaded.symm.trans loaded
    exact ⟨before.put p, exchange.reloaded, Catalog.ancestral_exchanged.mpr above⟩

theorem order_apart (exchange : Exchange s p before t) (version : c.version = some v)
    (apart : ¬ s.Descends p c) (me : Thread) : t.order me v c.profiles = s.order me v c.profiles := by
  unfold Deployment.order
  rw [exchange.permitVersion]
  by_cases own : v = p.version
  · subst own
    have same : (before.put p).profiles.linearize c.profiles = before.profiles.linearize c.profiles :=
      Catalog.linearize_apart fun above => apart ⟨version, before, exchange.loaded, above⟩
    rw [exchange.loaded, exchange.reloaded]
    simp only [VersionState.linearize, bind, Except.bind]
    rw [same]
  · rw [exchange.others v own]

theorem effectiveFor_apart (exchange : Exchange s p before t) (version : c.version = some v)
    (apart : ¬ s.Descends p c) (me : Thread) :
    t.effectiveFor me v c.profiles = s.effectiveFor me v c.profiles := by
  unfold Deployment.effectiveFor
  rw [exchange.order_apart version apart]

-- An answer before is followed by an answer after.
theorem lineage_answered (exchange : Exchange s p before t)
    (answered : s.lineage me p.version roots = .ok ids) : ∃ later, t.lineage me p.version roots = .ok later := by
  simp only [lineage, Deployment.order, bind_eq_ok, pure_eq_ok] at answered ⊢
  obtain ⟨order, ⟨_, permitted, state, loaded, walked⟩, _⟩ := answered
  cases exchange.loaded.symm.trans loaded
  obtain ⟨later, again⟩ :=
    Catalog.linearize_exchanged exchange.keyed exchange.walked ⟨order, VersionState.linearize_eq_ok.mp walked⟩
  refine ⟨later.map Profile.identity, later,
    ⟨(), ?_, before.put p, exchange.reloaded, VersionState.linearize_eq_ok.mpr again⟩, rfl⟩
  rw [exchange.permitVersion]
  exact permitted

-- Whoever has the profile in its lineage before has it there afterwards, and nobody else.
theorem lineage_keeps (exchange : Exchange s p before t) (backed : s.store.Backed admits) (after : t.store.Backed admits)
    (version : c.version = some p.version) (answered : s.lineage me p.version c.profiles = .ok ids) :
    (p.identity ∈ ids ↔ s.Descends p c) ∧
      ∃ later, t.lineage me p.version c.profiles = .ok later ∧ (p.identity ∈ later ↔ p.identity ∈ ids) := by
  have earlier := lineage_descends backed version answered
  obtain ⟨later, again⟩ := exchange.lineage_answered answered
  have afterwards := lineage_descends after version again
  exact ⟨earlier, later, again, afterwards.trans (exchange.descends.trans earlier.symm)⟩

end Exchange

end Deployment
end ContainerProfiles
