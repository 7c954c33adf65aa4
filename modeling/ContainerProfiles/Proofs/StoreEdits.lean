import ContainerProfiles.Proofs.Checks

namespace ContainerProfiles

-- What the operations on profiles do to a store held in memory, once its catalogs are sound: they add or remove a
-- version, or one profile of a version, and nothing that a live container uses is removed.

namespace MemoryStore

def Sound (m : MemoryStore) : Prop :=
  ∀ v entry, m.versions.get? v = some entry → entry.profiles.Sound v

theorem sound_empty : Sound {} := by
  intro v entry found
  cases found

theorem get?_put (m : MemoryStore) (v w : Version) (entry : StoredVersion) :
    (m.put v entry).versions.get? w = if w = v then some entry else m.versions.get? w :=
  Dict.get?_insert ..

theorem put_put (m : MemoryStore) (v : Version) (one two : StoredVersion) :
    (m.put v one).put v two = m.put v two := by
  simp [put, Dict.insert_insert]

theorem stored_eq_ok {m : MemoryStore} : m.stored v = .ok entry ↔ m.versions.get? v = some entry := by
  unfold stored
  split <;> simp_all

theorem addVersion_ok {m : MemoryStore} (absent : m.versions.get? v = none) :
    m.addVersion v attributes = .ok (m.put v { attributes }) := by
  simp [addVersion, Dict.contains_false.mpr absent]

theorem removeVersion_ok {m : MemoryStore} (found : m.versions.get? v = some entry) :
    m.removeVersion v = .ok { versions := m.versions.erase v } := by
  simp only [removeVersion, bind_eq_ok, pure_eq_ok, stored_eq_ok]
  exact ⟨entry, found, trivial⟩

theorem addProfile_ok {m : MemoryStore} {p : Profile} (found : m.versions.get? p.version = some entry)
    (absent : entry.profiles.get? p.identity = none) :
    m.addProfile p =
      .ok (m.put p.version { entry with profiles := entry.profiles.insert p.identity p }) := by
  simp only [addProfile, bind_eq_ok, guard_eq_ok, pure_eq_ok, stored_eq_ok]
  exact ⟨entry, found, by simp [Dict.contains, absent], rfl⟩

theorem updateProfile_ok {m : MemoryStore} {p : Profile} (found : m.versions.get? p.version = some entry)
    (present : entry.profiles.contains p.identity) :
    m.updateProfile p =
      .ok (m.put p.version { entry with profiles := entry.profiles.insert p.identity p }) := by
  simp only [updateProfile, bind_eq_ok, guard_eq_ok, pure_eq_ok, stored_eq_ok]
  exact ⟨entry, found, by simp [present], rfl⟩

theorem removeProfile_ok {m : MemoryStore} {id : ProfileId} (found : m.versions.get? v = some entry)
    (present : entry.profiles.contains id) :
    m.removeProfile v id = .ok (m.put v { entry with profiles := entry.profiles.erase id }) := by
  simp only [removeProfile, bind_eq_ok, guard_eq_ok, pure_eq_ok, stored_eq_ok]
  exact ⟨entry, found, by simp [present], rfl⟩

theorem put_sound {m : MemoryStore} (sound : m.Sound) {entry : StoredVersion}
    (fits : entry.profiles.Sound v) : (m.put v entry).Sound := by
  intro w other found
  rw [get?_put] at found
  split at found
  · rename_i same
    cases found
    subst same
    exact fits
  · exact sound w other found

-- One change of the store that leaves no live container of `r` without what it is assigned.
inductive Edit (r : ContainerRegistry) (m : MemoryStore) : MemoryStore → Prop
  | same : Edit r m m
  | versionAdded {profiles : List Profile} : m.versions.get? v = none →
      (∀ p ∈ profiles, (Catalog.ofProfiles profiles).Fits v p) →
      Edit r m (m.put v { attributes, profiles := .ofProfiles profiles })
  | versionRemoved : (∀ c ∈ r.list, c.state ≠ .destroyed → c.version ≠ some v) →
      Edit r m { versions := m.versions.erase v }
  | profileAdded : m.versions.get? p.version = some entry → entry.profiles.get? p.identity = none →
      Catalog.Fits (entry.profiles.insert p.identity p) p.version p →
      Edit r m (m.put p.version { entry with profiles := entry.profiles.insert p.identity p })
  | profileRemoved {id : ProfileId} : m.versions.get? v = some entry →
      (∀ child, ¬ entry.profiles.Inherits child id) →
      (∀ c ∈ r.list, c.version = some v → id ∉ c.profiles) →
      Edit r m (m.put v { entry with profiles := entry.profiles.erase id })

-- The stored profile of that identity is exchanged for `p`.
inductive Replaces (m : MemoryStore) (p : Profile) : MemoryStore → Prop
  | intro : m.versions.get? p.version = some entry → entry.profiles.contains p.identity →
      Catalog.Fits (entry.profiles.insert p.identity p) p.version p →
      Replaces m p (m.put p.version { entry with profiles := entry.profiles.insert p.identity p })

theorem Edit.sound {m : MemoryStore} (edit : Edit r m n) (sound : m.Sound) : n.Sound := by
  cases edit with
  | same => exact sound
  | versionAdded _ fits => exact put_sound sound (Catalog.ofProfiles_sound fits)
  | versionRemoved _ =>
      intro w entry found
      rw [Dict.get?_erase] at found
      split at found
      · cases found
      · exact sound w entry found
  | profileAdded found _ fits => exact put_sound sound (Catalog.put_sound (sound _ _ found) fits)
  | profileRemoved found leaf _ => exact put_sound sound (Catalog.erase_sound (sound _ _ found) leaf)

theorem Replaces.sound {m : MemoryStore} (replaced : Replaces m p n) (sound : m.Sound) : n.Sound := by
  obtain ⟨found, _, fits⟩ := replaced
  exact put_sound sound (Catalog.put_sound (sound _ _ found) fits)

end MemoryStore

theorem Catalog.ofProfiles_values {c : Catalog} (keyed : c.Keyed) : ofProfiles c.values = c := by
  have pairs : c.values.map (fun p => (p.identity, p)) = c.entries := by
    unfold Dict.values
    rw [List.map_map]
    calc c.entries.map ((fun p => (p.identity, p)) ∘ Prod.snd)
        = c.entries.map id := List.map_congr_left fun e member => by
          have same := keyed e.1 e.2 (Dict.mem_entries.mp member)
          simp [same]
      _ = c.entries := List.map_id _
  unfold ofProfiles
  rw [pairs, Dict.ofList_entries]

namespace MemoryStore

theorem profiles_eq {m : MemoryStore} (found : m.versions.get? v = some entry) :
    (Store.memory m).profiles v = .ok entry.profiles.values := by
  have stored : m.stored v = .ok entry := by simp [stored, found]
  have read : ∀ ids : List ProfileId, ids.mapM (fun id => (Store.memory m).profile? v id) =
      .ok (ids.map entry.profiles.get?) := by
    intro ids
    induction ids with
    | nil => rfl
    | cons id rest ih =>
        rw [List.mapM_cons, ih]
        simp [Store.profile?, profile?, stored, Except.map, bind, Except.bind, pure, Except.pure]
  have listed : (entry.profiles.keys.map entry.profiles.get?).filterMap id = entry.profiles.values := by
    have found : entry.profiles.keys.map entry.profiles.get? =
        entry.profiles.entries.map (some ∘ Prod.snd) := by
      unfold Dict.keys
      rw [List.map_map]
      exact List.map_congr_left fun e member => Dict.mem_entries.mp member
    rw [found, List.filterMap_map]
    exact congrFun List.filterMap_eq_map entry.profiles.entries
  unfold Store.profiles
  simp only [Store.version?, version?, found, Option.map_some]
  change (do return (← entry.profiles.keys.mapM (fun id => (Store.memory m).profile? v id)).filterMap id) = _
  rw [read]
  exact congrArg Except.ok listed

end MemoryStore

namespace Deployment

variable {s : Deployment} {m : MemoryStore}

theorem storedVersion_eq_ok (memory : s.store = .memory m) {listed : ProfileVersion} :
    s.storedVersion v = .ok listed ↔ ∃ entry, m.versions.get? v = some entry ∧
      listed = { version := v, profiles := entry.profiles.keys, attributes := entry.attributes } := by
  unfold storedVersion
  cases found : m.versions.get? v with
  | none =>
      have read : s.store.version? v = .ok none := by
        simp [memory, Store.version?, MemoryStore.version?, found]
      rw [read]
      exact ⟨nofun, nofun⟩
  | some entry =>
      have read : s.store.version? v = .ok (some
          { version := v, profiles := entry.profiles.keys, attributes := entry.attributes }) := by
        simp [memory, Store.version?, MemoryStore.version?, found]
      rw [read]
      constructor
      · intro same
        cases same
        exact ⟨entry, rfl, rfl⟩
      · rintro ⟨_, same, rfl⟩
        cases same
        rfl

theorem load_eq_ok (memory : s.store = .memory m) (sound : m.Sound) {state : VersionState} :
    s.load v = .ok state ↔ ∃ entry, m.versions.get? v = some entry ∧
      state = { listed := { version := v, profiles := entry.profiles.keys, attributes := entry.attributes },
                profiles := entry.profiles } := by
  simp only [load, bind_eq_ok, mapError_eq_ok, pure_eq_ok, storedVersion_eq_ok memory]
  constructor
  · rintro ⟨_, ⟨entry, found, rfl⟩, profiles, read, rfl⟩
    rw [memory, MemoryStore.profiles_eq found] at read
    cases read
    exact ⟨entry, found, by
      rw [VersionState.ofProfiles, Catalog.ofProfiles_values (sound v entry found).keyed]⟩
  · rintro ⟨entry, found, rfl⟩
    refine ⟨_, ⟨entry, found, rfl⟩, entry.profiles.values, ?_, ?_⟩
    · rw [memory, MemoryStore.profiles_eq found]
    · rw [VersionState.ofProfiles, Catalog.ofProfiles_values (sound v entry found).keyed]

theorem checkListed_eq_ok (memory : s.store = .memory m) :
    s.checkListed v ids = .ok () ↔
      ∃ entry, m.versions.get? v = some entry ∧ ∀ id ∈ ids, entry.profiles.contains id := by
  simp only [checkListed, bind_eq_ok, storedVersion_eq_ok memory]
  constructor
  · rintro ⟨_, ⟨entry, found, rfl⟩, passed⟩
    refine ⟨entry, found, fun id member => ?_⟩
    split at passed
    · cases throw_eq_ok.mp passed
    · rename_i present
      have listed := List.find?_eq_none.mp present id member
      exact Dict.mem_keys.mp (by simpa using listed)
  · rintro ⟨entry, found, present⟩
    refine ⟨_, ⟨entry, found, rfl⟩, ?_⟩
    have all : ids.find? (fun id => !entry.profiles.keys.contains id) = none :=
      List.find?_eq_none.mpr fun id member => by
        simpa using Dict.mem_keys.mpr (present id member)
    rw [all]
    rfl

theorem unused_of_usersOf {test : Container → Bool} (none : ¬ (!(s.usersOf v test).isEmpty) = true) :
    ∀ c ∈ s.containers.list, c.version = some v → test c = false := by
  intro c live version
  have empty : s.usersOf v test = [] := by simpa using none
  cases tested : test c with
  | false => rfl
  | true =>
      have member : c.identity ∈ s.usersOf v test :=
        List.mem_map.mpr ⟨c, List.mem_filter.mpr ⟨live, by simp [version, tested]⟩, rfl⟩
      rw [empty] at member
      cases member

theorem ofStore_snd (s : Deployment) (result : α) (written : Except StoreError Unit × Store) :
    (s.ofStore result written).2 = { s with store := written.2 } := by
  obtain ⟨outcome, store⟩ := written
  cases outcome <;> rfl

def StoreChange (s : Deployment) (store : Store) : Prop :=
  ∀ m, s.store = .memory m → m.Sound → ∃ n, store = .memory n ∧ MemoryStore.Edit s.containers m n

theorem StoreChange.same (s : Deployment) : s.StoreChange s.store :=
  fun m memory _ => ⟨m, memory, .same⟩

-- The batch is written profile by profile into the version that was just added.
theorem storeProfiles_memory {clock : String} {profiles : List Profile} {entry : StoredVersion}
    (version : ∀ p ∈ profiles, p.version = v) (distinct : (profiles.map Profile.identity).Nodup)
    (fresh : ∀ p ∈ profiles, entry.profiles.contains p.identity = false) :
    storeProfiles clock profiles (.ok (), .memory (m.put v entry)) =
      (.ok (), .memory (m.put v
        { entry with profiles := entry.profiles.extend (profiles.map (fun p => (p.identity, p))) })) := by
  induction profiles generalizing entry with
  | nil => rfl
  | cons p rest ih =>
      obtain ⟨unique, others⟩ := List.nodup_cons.mp distinct
      have here : p.version = v := version p List.mem_cons_self
      have found : (m.put v entry).versions.get? p.version = some entry := by
        rw [here, MemoryStore.get?_put, if_pos rfl]
      have absent := Dict.contains_false.mp (fresh p List.mem_cons_self)
      have written : (Store.memory (m.put v entry)).addProfile clock p =
          (.ok (), .memory (m.put v { entry with profiles := entry.profiles.insert p.identity p })) := by
        rw [Store.addProfile, MemoryStore.addProfile_ok found absent, here, MemoryStore.put_put]
        rfl
      rw [storeProfiles, written]
      refine ih (fun q member => version q (.tail _ member)) others fun q member => ?_
      have other : q.identity ≠ p.identity := fun same =>
        unique (same ▸ List.mem_map.mpr ⟨q, member, rfl⟩)
      have absent := fresh q (.tail _ member)
      rw [Dict.contains_false] at absent ⊢
      rw [Dict.get?_insert, if_neg other, absent]

theorem addVersion_change (s : Deployment) (me : Thread) (listed : ProfileVersion)
    (profiles : List Profile) :
    ∃ store, (s.addVersion me listed profiles).2 = { s with store } ∧ s.StoreChange store := by
  unfold addVersion
  cases prepared : s.prepareVersion me listed profiles with
  | error e => exact ⟨s.store, rfl, .same s⟩
  | ok state =>
      refine ⟨_, ofStore_snd .., fun m memory _ => ?_⟩
      simp only [prepareVersion, bind_eq_ok, guard_eq_ok, mapError_eq_ok, pure_eq_ok] at prepared
      obtain ⟨_, _, found, looked, new, full, _, checked, rfl⟩ := prepared
      have absent : m.versions.get? listed.version = none := by
        rw [memory] at looked
        cases looked
        simpa [MemoryStore.version?] using new
      have sizes : (Catalog.ofProfiles profiles).size = profiles.length := Decidable.not_not.mp full
      have pairs := Dict.fresh_of_size (∅ : Catalog) (profiles.map (fun p => (p.identity, p)))
        (by rw [List.length_map]; exact sizes.trans (Nat.zero_add _).symm)
      have fits : ∀ p ∈ profiles, (Catalog.ofProfiles profiles).Fits listed.version p := fun p member =>
        VersionState.fits_of_check (forM_eq_ok.mp checked p member)
      have added : s.store.addVersion s.clock listed.version listed.attributes =
          (.ok (), .memory (m.put listed.version { attributes := listed.attributes })) := by
        rw [memory, Store.addVersion, MemoryStore.addVersion_ok absent]
        rfl
      rw [added, storeProfiles_memory (fun p member => (fits p member).version)
        (by simpa [List.map_map, Function.comp_def] using pairs.1) (fun _ _ => rfl)]
      exact ⟨_, rfl, .versionAdded absent fits⟩

theorem removeVersion_change (s : Deployment) (me : Thread) (v : Version) :
    ∃ store, (s.removeVersion me v).2 = { s with store } ∧ s.StoreChange store := by
  unfold removeVersion
  cases prepared : s.prepareVersionRemoval me v with
  | error e => exact ⟨s.store, rfl, .same s⟩
  | ok listed =>
      refine ⟨_, ofStore_snd .., fun m memory sound => ?_⟩
      simp only [prepareVersionRemoval, bind_eq_ok, guard_eq_ok, pure_eq_ok, load_eq_ok memory sound]
        at prepared
      obtain ⟨_, _, _, ⟨entry, found, rfl⟩, free, _⟩ := prepared
      refine ⟨{ versions := m.versions.erase v }, ?_, .versionRemoved fun c live alive version => ?_⟩
      · rw [memory, Store.removeVersion, MemoryStore.removeVersion_ok found]
        rfl
      · simpa [alive] using unused_of_usersOf free c live version

theorem addProfile_change (s : Deployment) (me : Thread) (p : Profile) :
    ∃ store, (s.addProfile me p).2 = { s with store } ∧ s.StoreChange store := by
  unfold addProfile
  cases prepared : s.prepareProfile me p with
  | error e => exact ⟨s.store, rfl, .same s⟩
  | ok _ =>
      refine ⟨_, ofStore_snd .., fun m memory sound => ?_⟩
      simp only [prepareProfile, bind_eq_ok, guard_eq_ok, load_eq_ok memory sound] at prepared
      obtain ⟨_, _, _, ⟨entry, found, rfl⟩, new, checked⟩ := prepared
      have absent := Dict.contains_false.mp (Bool.eq_false_iff.mpr new)
      refine ⟨_, ?_, .profileAdded found absent (VersionState.fits_of_check checked)⟩
      rw [memory, Store.addProfile, MemoryStore.addProfile_ok found absent]
      rfl

theorem removeProfile_change (s : Deployment) (me : Thread) (v : Version) (id : ProfileId) :
    ∃ store, (s.removeProfile me v id).2 = { s with store } ∧ s.StoreChange store := by
  unfold removeProfile
  cases prepared : s.prepareProfileRemoval me v id with
  | error e => exact ⟨s.store, rfl, .same s⟩
  | ok p =>
      refine ⟨_, ofStore_snd .., fun m memory sound => ?_⟩
      simp only [prepareProfileRemoval, bind_eq_ok, guard_eq_ok, pure_eq_ok, load_eq_ok memory sound]
        at prepared
      obtain ⟨_, _, _, ⟨entry, found, rfl⟩, q, required, alone, free, _⟩ := prepared
      have present := VersionState.contains_of_require required
      refine ⟨_, ?_, .profileRemoved found (VersionState.leaf_of_childrenOf alone)
        fun c live version => ?_⟩
      · rw [memory, Store.removeProfile, MemoryStore.removeProfile_ok found present]
        rfl
      · simpa [Container.hasProfile] using unused_of_usersOf free c live version

-- The one write that can be refused from outside.
theorem replacement_change {s : Deployment} {me : Thread} {p : Profile} {m : MemoryStore}
    (memory : s.store = .memory m) (sound : m.Sound) (prepared : s.prepareReplacement me p = .ok ()) :
    (∃ e, s.storeReplacement p = (.error e, .memory m)) ∨
      ∃ n, s.storeReplacement p = (.ok (), .memory n) ∧ m.Replaces p n := by
  simp only [prepareReplacement, bind_eq_ok, load_eq_ok memory sound] at prepared
  obtain ⟨_, _, _, ⟨entry, found, rfl⟩, q, required, checked⟩ := prepared
  have present := VersionState.contains_of_require required
  unfold storeReplacement
  split
  · exact .inl ⟨_, by rw [memory]⟩
  · refine .inr ⟨_, ?_, .intro found present (VersionState.fits_of_check checked)⟩
    rw [memory, Store.updateProfile, MemoryStore.updateProfile_ok found present]
    rfl

end Deployment
end ContainerProfiles
