import ContainerProfiles.Proofs.CatalogCopies
import ContainerProfiles.Proofs.CommandRuns

namespace ContainerProfiles

-- A version that is added as a copy of another one.

open FileTree StoreLayout
open Store (Housed)

variable {l : StoreLayout} {t u : FileTree} {base : Path} {m n : MemoryStore} {v w x : Version} {id : ProfileId}

namespace MemoryStore

theorem version?_stored (stored : m.versions.get? v = some entry) :
    m.version? v = some { version := v, profiles := entry.profiles.keys, attributes := entry.attributes } :=
  version?_eq_some.mpr ⟨entry, stored, rfl⟩

theorem get?_supplied_other (other : x ≠ v) (m : MemoryStore) (id : ProfileId) :
    (m.supplied v id).versions.get? x = m.versions.get? x := by
  have versioned : (m.withVersion v).versions.get? x = m.versions.get? x := by
    unfold withVersion
    split
    · rfl
    · rw [get?_put, if_neg other]
  unfold supplied withProfile
  split
  · exact versioned
  · split
    · exact versioned
    · rw [get?_put, if_neg other, versioned]

theorem get?_supplied (stored : m.versions.get? v = some entry) (id : ProfileId) :
    (m.supplied v id).versions.get? v = some (if entry.profiles.contains id then entry
      else { entry with profiles := entry.profiles.insert id (.bare id v) }) := by
  have versioned : m.withVersion v = m := if_pos (Dict.contains_iff.mpr ⟨entry, stored⟩)
  unfold supplied withProfile
  rw [versioned, stored]
  dsimp only
  split
  · exact stored
  · rw [get?_put, if_pos rfl]

-- Whatever there was before.
theorem supplied_holds (m : MemoryStore) (v : Version) (id : ProfileId) :
    ∃ entry, (m.supplied v id).versions.get? v = some entry ∧ entry.profiles.contains id := by
  obtain ⟨entry, stored⟩ := Dict.contains_iff.mp (m.contains_withVersion v)
  unfold supplied withProfile
  rw [stored]
  dsimp only
  split
  · rename_i present
    exact ⟨entry, stored, present⟩
  · exact ⟨_, (get?_put ..).trans (if_pos rfl), Dict.contains_insert.mpr (.inl rfl)⟩

theorem supplied_twice (m : MemoryStore) (v : Version) (id : ProfileId) :
    (m.supplied v id).supplied v id = m.supplied v id := by
  obtain ⟨entry, stored, present⟩ := m.supplied_holds v id
  have versioned : (m.supplied v id).withVersion v = m.supplied v id := if_pos (Dict.contains_iff.mpr ⟨entry, stored⟩)
  change ((m.supplied v id).withVersion v).withProfile v id = m.supplied v id
  rw [versioned]
  unfold withProfile
  rw [stored]
  exact if_pos present

end MemoryStore

-- There is a file for the profile that was supplied.
theorem Store.Housed.supplied_named {s : Store} (housed : Housed l base s (m.supplied v id)) : Named id := by
  obtain ⟨entry, stored, present⟩ := m.supplied_holds v id
  exact housed.named stored present

namespace CommandLine

variable {c : Context} {s : Deployment} {text source : String}

-- A deployment of the settings starts over the store of the tree, and then is `s`.
def Starts (c : Context) (t : FileTree) (s : Deployment) : Prop :=
  ∃ store idle root, openStore t c.store = (.ok (), store) ∧
    Deployment.build c.settings (.files store) {} {} c.clock = .ok idle ∧ idle.start mainThread = (.ok root, s)

theorem bare_of_starts (starts : Starts c t s) (rest : Deployment → Except CommandError Exit × Deployment) :
    bare c t rest = ((rest s).1, treeOf (rest s).2) := by
  obtain ⟨store, idle, root, opens, builds, starts⟩ := starts
  unfold bare started
  rw [opens]
  dsimp only
  rw [builds]
  dsimp only
  rw [starts]

theorem starts_of_bare {rest : Deployment → Except CommandError Exit × Deployment} {exit : Exit}
    (ran : bare c t rest = (.ok exit, u)) : ∃ s, Starts c t s ∧ (rest s).1 = .ok exit ∧ treeOf (rest s).2 = u := by
  unfold bare started at ran
  rcases opens : openStore t c.store with ⟨outcome, store⟩
  rw [opens] at ran
  cases outcome with
  | error e => cases ran
  | ok _ =>
      dsimp only at ran
      cases builds : Deployment.build c.settings (.files store) {} {} c.clock with
      | error e =>
          rw [builds] at ran
          cases ran
      | ok idle =>
          rw [builds] at ran
          dsimp only at ran
          rcases starts : idle.start mainThread with ⟨outcome, s⟩
          rw [starts] at ran
          cases outcome with
          | error e => cases ran
          | ok root =>
              exact ⟨s, ⟨store, idle, root, opens, builds, starts⟩, congrArg Prod.fst ran, congrArg Prod.snd ran⟩

-- The deployment after a start: the store holds what it did, with the default version and the default profile.
structure StartedOver (c : Context) (l : StoreLayout) (base : Path) (t : FileTree) (m : MemoryStore) (d : Version)
    (s : Deployment) : Prop where
  reads : (Store.files ⟨l, t⟩).Reads m
  keyed : m.Keyed
  version : c.settings.version = .ok d
  housed : Housed l base s.store (m.supplied d c.settings.defaultProfile)
  unlocked : s.Unlocked
  active : s.profileService.active

theorem Starts.startedOver (starts : Starts c t s) (roomy : l.Roomy) (opens : l.Opens t) (here : c.store = l.root) :
    ∃ base m d, StartedOver c l base t m d s := by
  obtain ⟨store, idle, root, opened, builds, begins⟩ := starts
  obtain ⟨u, base, m, prepared, housed, reads⟩ := opens.opened roomy
  unfold openStore at opened
  rw [here, prepared] at opened
  cases opened
  obtain ⟨files, settings, version, unlocked⟩ := build_eq_ok builds
  obtain ⟨n, left, made⟩ := Deployment.start_leaves roomy (files ▸ housed) mainThread
  obtain ⟨locks, active⟩ := Deployment.start_running begins
  rw [begins] at left made
  obtain rfl := made root rfl
  rw [settings] at left
  exact ⟨base, m, idle.defaultVersion, reads, housed.keyed, version, left, fun key => locks ▸ unlocked key, active⟩

theorem acting_ok {α : Type} {print : α → Exit} {out : Outcome α} {exit : Exit} :
    (acting print out).1 = .ok exit ↔ ∃ x, out.1 = .ok x ∧ exit = print x := by
  obtain ⟨outcome, s⟩ := out
  cases outcome with
  | error e => exact ⟨nofun, nofun⟩
  | ok x =>
      constructor
      · intro same
        exact ⟨x, rfl, (Except.ok.inj same).symm⟩
      · rintro ⟨_, same, rfl⟩
        cases same
        rfl

section Copying

variable (roomy : l.Roomy) (housed : Housed l base s.store m) (unlocked : s.Unlocked) (active : s.profileService.active)
  (original : m.versions.get? w = some entry)

include housed unlocked active original

theorem copiedProfiles_stored (read : Version.read source = .ok w) (v : Version) :
    copiedProfiles s v (some source) = .ok (entry.profiles.atVersion v).values := by
  have got : s.getProfiles mainThread w = .ok entry.profiles.values := by
    unfold Deployment.getProfiles
    rw [unlocked.permitVersion active, Deployment.load_stored housed.reflects housed.keyed original]
    rfl
  simp only [copiedProfiles, readVersion, bind_eq_ok, mapError_eq_ok, pure_eq_ok]
  exact ⟨w, read, _, got, (Catalog.values_atVersion ..).symm⟩

-- The copies fit together as the originals do, in whatever order they were added.
theorem prepareVersion_copied (new : m.versions.get? v = none) (attributes : Attributes) :
    s.prepareVersion mainThread { version := v, profiles := [], attributes } (entry.profiles.atVersion v).values =
      .ok (.ofProfiles { version := v, profiles := [], attributes } (entry.profiles.atVersion v).values) := by
  have sound := (housed.sound w entry original).atVersion v
  have same := Catalog.ofProfiles_values sound.keyed
  simp only [Deployment.prepareVersion, bind_eq_ok, guard_eq_ok, mapError_eq_ok, pure_eq_ok]
  refine ⟨(), unlocked.permitVersion active .., none, ?_, Bool.false_ne_true, fun full => full ?_, (),
    forM_eq_ok.mpr fun p member => ?_, trivial⟩
  · rw [housed.reflects.version?, MemoryStore.version?, new]
    rfl
  · unfold VersionState.ofProfiles
    rw [same]
    unfold Dict.size Dict.values
    rw [List.length_map]
  · refine VersionState.check_of_fits ?_
    obtain ⟨id, found⟩ := Dict.mem_values.mp member
    unfold VersionState.ofProfiles VersionState.version
    dsimp only
    rw [same]
    exact sound.fits found

include roomy

theorem addVersion_copied (read : Version.read source = .ok w) (new : m.versions.get? v = none)
    (fits : nameFits v.text) : ∃ exit, (addVersion c v (some source) s).1 = .ok exit := by
  obtain ⟨t, files, mirrors⟩ := housed.files
  have taken : ∀ p ∈ (entry.profiles.atVersion v).values, s.store.Takes p.identity := by
    rw [files]
    exact copiedProfiles_named housed (copiedProfiles_stored housed unlocked active original read v)
  let listed : ProfileVersion := { version := v, profiles := [], attributes := ∅ }
  have admitted : l.Admits listed.version := roomy.admits mirrors.begun fits
  have added := Deployment.addVersion_accepted housed.reflects admitted taken
    (prepareVersion_copied housed unlocked active original new ∅)
  unfold addVersion
  rw [copiedProfiles_stored housed unlocked active original read v]
  dsimp only
  simp only [acting_ok]
  exact ⟨_, _, added, rfl⟩

theorem addVersion_done (read : Version.read source = .ok w) {exit : Exit}
    (done : (addVersion c v (some source) s).1 = .ok exit) :
    exit.code = 0 ∧ m.versions.get? v = none ∧ nameFits v.text ∧
      Housed l base (addVersion c v (some source) s).2.store
        (m.put v { attributes := ∅, profiles := entry.profiles.atVersion v }) := by
  have seed := copiedProfiles_stored housed unlocked active original read v
  obtain ⟨n, still, made⟩ := Deployment.addVersion_leaves roomy housed mainThread
    { version := v, profiles := [], attributes := ∅ } (copiedProfiles_named housed seed)
  unfold addVersion at done ⊢
  rw [seed] at done ⊢
  obtain ⟨listed, added, rfl⟩ := acting_ok.mp done
  obtain ⟨new, rfl⟩ := made listed added
  dsimp only at still
  rw [Catalog.ofProfiles_values ((housed.sound w entry original).atVersion v).keyed] at still
  obtain ⟨t, files, mirrors⟩ := still.files
  exact ⟨rfl, new, (mirrors.held v _ ((MemoryStore.get?_put ..).trans (if_pos rfl))).admitted.fits, still⟩

end Copying

-- Under `v` there is what is under `w`, and it comes to the same effective profiles.
structure Copies (stored : Store) (v w : Version) (ids : List ProfileId) : Prop where
  original : ∃ attributes, stored.version? w = .ok (some { version := w, profiles := ids, attributes })
  copy : stored.version? v = .ok (some { version := v, profiles := ids, attributes := ∅ })
  profiles : ∃ ps, stored.profiles w = .ok ps ∧ stored.profiles v = .ok (ps.map (·.withVersion v))
  effective : ∀ (s : Deployment) me, s.store = stored → s.permitVersion me w .read = .ok () →
    s.permitVersion me v .read = .ok () → ∀ id ∈ ids,
      ∃ p, s.effective me w id = .ok p ∧ s.effective me v id = .ok (p.withVersion v)
  effectiveFor : ∀ (s : Deployment) me, s.store = stored → s.permitVersion me w .read = .ok () →
    s.permitVersion me v .read = .ok () → ∀ asked : List ProfileId, (∀ id ∈ asked, id ∈ ids) →
      ∃ p, s.effectiveFor me w asked = .ok p ∧ p.identity = Profile.effectiveIdentityFor w asked ∧
        s.effectiveFor me v asked =
          .ok { p with identity := Profile.effectiveIdentityFor v asked, version := v }

theorem copies_of_put {stored : Store} (housed : Housed l base stored
      (m.put v { attributes := ∅, profiles := entry.profiles.atVersion v }))
    (original : m.versions.get? w = some entry) (other : w ≠ v) : Copies stored v w entry.profiles.keys := by
  have copied := (m.get?_put v v { attributes := ∅, profiles := entry.profiles.atVersion v }).trans (if_pos rfl)
  have kept := (m.get?_put v w { attributes := ∅, profiles := entry.profiles.atVersion v }).trans (if_neg other)
  rw [original] at kept
  have read := housed.reflects.version?
  have content := housed.reflects.profiles
  refine ⟨⟨entry.attributes, ?_⟩, ?_, ⟨entry.profiles.values, ?_, ?_⟩, ?_, ?_⟩
  · rw [read, MemoryStore.version?_stored kept]
  · rw [read, MemoryStore.version?_stored copied, Catalog.keys_atVersion]
  · rw [content, MemoryStore.profiles_eq kept]
  · rw [content, MemoryStore.profiles_eq copied, Catalog.values_atVersion]
  · rintro s me rfl allowed allowed' id present
    exact Deployment.effective_copied housed.reflects housed.sound kept copied rfl allowed allowed'
      (Dict.mem_keys.mp present)
  · rintro s me rfl allowed allowed' asked present
    exact Deployment.effectiveFor_copied housed.reflects housed.sound kept copied rfl allowed allowed'
      fun id member => Dict.mem_keys.mp (present id member)

-- What the start makes of a version: only the default one can lack something, the default profile.
structure Kept (c : Context) (before after : Store) (x : Version) : Prop where
  same : (c.settings.version = .ok x → ∃ listed, before.version? x = .ok (some listed) ∧
      c.settings.defaultProfile ∈ listed.profiles) →
    after.version? x = before.version? x ∧ after.profiles x = before.profiles x
  filled : c.settings.version = .ok x → ∀ listed ps, before.version? x = .ok (some listed) →
    before.profiles x = .ok ps → c.settings.defaultProfile ∉ listed.profiles →
      let all := Dict.insert (Catalog.ofProfiles ps) c.settings.defaultProfile (.bare c.settings.defaultProfile x)
      after.version? x = .ok (some { listed with profiles := all.keys }) ∧ after.profiles x = .ok all.values

theorem reads_alike {before after : Store} (reads : before.Reads m) (later : after.Reads n)
    (same : n.versions.get? x = m.versions.get? x) :
    after.version? x = before.version? x ∧ after.profiles x = before.profiles x := by
  obtain ⟨version, profiles⟩ := reads x
  obtain ⟨version', profiles'⟩ := later x
  rw [version, version', profiles, profiles']
  have listed : n.version? x = m.version? x := by
    unfold MemoryStore.version?
    rw [same]
  refine ⟨congrArg Except.ok listed, ?_⟩
  cases found : m.versions.get? x with
  | none =>
      have absent : m.version? x = none := MemoryStore.version?_eq_none.mpr found
      have one : (Store.memory m).version? x = .ok none := congrArg Except.ok absent
      have two : (Store.memory n).version? x = .ok none := congrArg Except.ok (listed.trans absent)
      rw [Store.profiles_absent one, Store.profiles_absent two]
  | some entry => rw [MemoryStore.profiles_eq found, MemoryStore.profiles_eq (same.trans found)]

theorem StartedOver.kept {after : Store} (ready : StartedOver c l base t m d s)
    (later : after.Reads ((m.supplied d c.settings.defaultProfile).put v added)) (other : x ≠ v) :
    Kept c (.files ⟨l, t⟩) after x := by
  have put := ((m.supplied d c.settings.defaultProfile).get?_put v x added).trans (if_neg other)
  refine ⟨fun full => reads_alike ready.reads later (put.trans ?_),
    fun version listed ps found content missing => ?_⟩
  · by_cases own : x = d
    · subst own
      obtain ⟨listed, found, present⟩ := full ready.version
      rw [(ready.reads x).1] at found
      obtain ⟨entry, stored, rfl⟩ := MemoryStore.version?_eq_some.mp (Except.ok.inj found)
      rw [MemoryStore.get?_supplied stored, if_pos (Dict.mem_keys.mp present), stored]
    · exact MemoryStore.get?_supplied_other own m _
  · cases ready.version.symm.trans version
    rw [(ready.reads x).1] at found
    rw [(ready.reads x).2] at content
    obtain ⟨entry, stored, rfl⟩ := MemoryStore.version?_eq_some.mp (Except.ok.inj found)
    rw [MemoryStore.profiles_eq stored] at content
    cases content
    rw [MemoryStore.get?_supplied stored, if_neg fun present => missing (Dict.mem_keys.mpr present)] at put
    rw [Catalog.ofProfiles_values (ready.keyed x entry stored)]
    obtain ⟨version', profiles'⟩ := later x
    rw [version', profiles', MemoryStore.version?_stored put, MemoryStore.profiles_eq put]
    exact ⟨rfl, rfl⟩

theorem runCommand_addVersion (read : Version.read text = .ok v) (c : Context) (t : FileTree) (source : Option String) :
    runCommand c t (.addVersion text source) = bare c t (addVersion c v source) := by
  rw [runCommand]
  unfold onVersion readVersion
  rw [read]
  rfl

-- What was there for the original is also there once the deployment has started.
theorem StartedOver.original (ready : StartedOver c l base t m d s)
    (there : (Store.files ⟨l, t⟩).version? w = .ok (some listed)) :
    ∃ entry, (m.supplied d c.settings.defaultProfile).versions.get? w = some entry := by
  rw [(ready.reads w).1] at there
  obtain ⟨entry, stored, _⟩ := MemoryStore.version?_eq_some.mp (Except.ok.inj there)
  by_cases own : w = d
  · subst own
    exact ⟨_, MemoryStore.get?_supplied stored _⟩
  · exact ⟨entry, (MemoryStore.get?_supplied_other own m _).trans stored⟩

section Command

variable (roomy : l.Roomy) (opens : l.Opens t) (here : c.store = l.root) (copy : Version.read text = .ok v)
  (original : Version.read source = .ok w) (there : (Store.files ⟨l, t⟩).version? w = .ok (some listed))
  (new : (Store.files ⟨l, t⟩).version? v = .ok none)

include roomy opens here copy original there

theorem copied_of_ran {exit : Exit} (ran : runCommand c t (.addVersion text (some source)) = (.ok exit, u)) :
    exit.code = 0 ∧ ∃ base m d s, Starts c t s ∧ StartedOver c l base t m d s ∧
      (m.supplied d c.settings.defaultProfile).versions.get? v = none ∧ nameFits v.text ∧
      (∀ x, x ≠ v → Kept c (.files ⟨l, t⟩) (.files ⟨l, u⟩) x) ∧ ∃ ids, Copies (.files ⟨l, u⟩) v w ids := by
  rw [runCommand_addVersion copy] at ran
  obtain ⟨s, starts, done, ended⟩ := starts_of_bare ran
  obtain ⟨base, m, d, ready⟩ := starts.startedOver roomy opens here
  obtain ⟨entry, stored⟩ := ready.original there
  obtain ⟨ended_well, new, fits, housed⟩ :=
    addVersion_done roomy ready.housed ready.unlocked ready.active stored original done
  have other : w ≠ v := by
    rintro rfl
    cases new.symm.trans stored
  obtain ⟨u', files, _⟩ := housed.files
  rw [treeOf_eq files] at ended
  subst ended
  rw [files] at housed
  exact ⟨ended_well, base, m, d, s, starts, ready, new, fits, fun x apart => ready.kept housed.reads apart,
    entry.profiles.keys, copies_of_put housed stored other⟩

include new

theorem ran_of_starts (starts : Starts c t s) (other : c.settings.version ≠ .ok v) (fits : nameFits v.text) :
    ∃ exit u, runCommand c t (.addVersion text (some source)) = (.ok exit, u) := by
  obtain ⟨base, m, d, ready⟩ := starts.startedOver roomy opens here
  obtain ⟨entry, stored⟩ := ready.original there
  have apart : v ≠ d := by
    rintro rfl
    exact other ready.version
  have absent : (m.supplied d c.settings.defaultProfile).versions.get? v = none := by
    rw [(ready.reads v).1] at new
    rw [MemoryStore.get?_supplied_other apart]
    exact MemoryStore.version?_eq_none.mp (Except.ok.inj new)
  obtain ⟨exit, done⟩ :=
    addVersion_copied (c := c) roomy ready.housed ready.unlocked ready.active stored original absent fits
  rw [runCommand_addVersion copy, bare_of_starts starts]
  exact ⟨exit, _, Prod.ext done rfl⟩

end Command

-- Adding a version as a copy of one that is there: it succeeds wherever a deployment starts at all, and the copy and
-- the original then have the same profiles and the same effective profiles.
theorem addVersion_copies (roomy : l.Roomy) (reached : Reached l t) (here : c.store = l.root)
    (copy : Version.read text = .ok v) (original : Version.read source = .ok w)
    (there : (Store.files ⟨l, t⟩).version? w = .ok (some listed)) (new : (Store.files ⟨l, t⟩).version? v = .ok none) :
    ((∃ exit u, runCommand c t (.addVersion text (some source)) = (.ok exit, u)) ↔
      (∃ s, Starts c t s) ∧ c.settings.version ≠ .ok v ∧ nameFits v.text) ∧
    ∀ exit u, runCommand c t (.addVersion text (some source)) = (.ok exit, u) →
      exit.code = 0 ∧ (∀ x, x ≠ v → Kept c (.files ⟨l, t⟩) (.files ⟨l, u⟩) x) ∧
        ∃ ids, Copies (.files ⟨l, u⟩) v w ids := by
  have opens := reached.opens roomy
  refine ⟨⟨?_, ?_⟩, ?_⟩
  · rintro ⟨exit, u, ran⟩
    obtain ⟨_, base, m, d, s, starts, ready, absent, fits, _⟩ :=
      copied_of_ran roomy opens here copy original there ran
    refine ⟨⟨s, starts⟩, fun own => ?_, fits⟩
    cases ready.version.symm.trans own
    obtain ⟨entry, stored, _⟩ := m.supplied_holds v c.settings.defaultProfile
    cases absent.symm.trans stored
  · rintro ⟨⟨s, starts⟩, other, fits⟩
    exact ran_of_starts roomy opens here copy original there new starts other fits
  · intro exit u ran
    obtain ⟨ended_well, _, _, _, _, _, _, _, _, kept, copies⟩ :=
      copied_of_ran roomy opens here copy original there ran
    exact ⟨ended_well, kept, copies⟩

-- Whatever the rest of a first start comes to, the store has what the start supplies.
theorem versions_housed (roomy : l.Roomy) (here : c.store = l.root)
    (prepared : FileStore.prepare ⟨l, t⟩ = (.ok (), ⟨l, u⟩)) (housed : Housed l base (.files ⟨l, u⟩) m)
    (built : Deployment.build c.settings (.files ⟨l, u⟩) {} {} c.clock = .ok s) (admitted : l.Admits s.defaultVersion)
    (named : Named s.settings.defaultProfile) (shown : Text.blank s.settings.defaultProfile = false)
    (plain : (Profile.bare s.settings.defaultProfile s.defaultVersion).isEffective = false) :
    Housed l base (.files ⟨l, treeAfter c t .versions⟩) (m.supplied s.defaultVersion s.settings.defaultProfile) := by
  obtain ⟨files, _, _, unlocked⟩ := build_eq_ok built
  obtain ⟨store, supplied, starts⟩ :=
    Deployment.start_supplies roomy (files ▸ housed) unlocked admitted named shown plain mainThread
  have left : (s.start mainThread).2.store = store := by
    rw [starts]
    exact Deployment.andThen_keeps (P := fun t => t.store = store) ((s.opened store).ensureContainer_beside mainThread).store
      fun _ _ same => same
  have whole : Housed l base (.files ⟨l, treeOf (s.start mainThread).2⟩)
      (m.supplied s.defaultVersion s.settings.defaultProfile) := by
    obtain ⟨u, files, _⟩ := supplied.files
    rw [treeOf_eq (left.trans files)]
    exact files ▸ supplied
  rw [treeAfter, runCommand]
  unfold bare started openStore
  rw [here, prepared]
  dsimp only
  rw [built]
  dsimp only
  rcases begins : s.start mainThread with ⟨outcome, d⟩
  rw [begins] at whole
  cases outcome <;> exact whole

abbrev rootLayout : StoreLayout := ⟨"/"⟩

def atRoot (settings : Settings) : Context := { store := "/", settings, json := false, clock := "" }

-- What the first command leaves.
def firstTree : FileTree := treeAfter (atRoot {}) {} .versions

theorem rootLayout_roomy : rootLayout.Roomy := ⟨by decide⟩

theorem rootLayout_vacant : rootLayout.Vacant {} [] :=
  vacant_of_empty rfl (fun _ _ => rfl) rootLayout_roomy.versionsFolder

theorem rootLayout_admits : rootLayout.Admits .first := rootLayout_roomy.admits (by decide) rfl

theorem default_named : Named "default" := ⟨rfl, by decide⟩

theorem default_shown : Text.blank "default" = false := rfl

theorem default_plain : (Profile.bare "default" .first).isEffective = false := rfl

theorem firstTree_reached : Reached rootLayout firstTree := .ran (atRoot {}) .versions rfl (.vacant rootLayout_vacant)

theorem firstTree_housed :
    Housed rootLayout [] (.files ⟨rootLayout, firstTree⟩) (MemoryStore.supplied {} .first "default") := by
  obtain ⟨u, prepared, mirrors⟩ := rootLayout_vacant.opened rootLayout_roomy.versionsFolder
  have built : Deployment.build {} (.files ⟨rootLayout, u⟩) {} {} "" =
      .ok (Deployment.atRest.withStore (.files ⟨rootLayout, u⟩)) := rfl
  exact versions_housed (c := atRoot {}) rootLayout_roomy rfl prepared ⟨.intro mirrors, MemoryStore.sound_empty⟩ built
    rootLayout_admits default_named default_shown default_plain

theorem firstTree_first : (Store.files ⟨rootLayout, firstTree⟩).version? .first =
    .ok (some { version := .first, profiles := ["default"], attributes := ∅ }) :=
  (firstTree_housed.reads .first).1

theorem firstTree_other (other : v ≠ .first) : (Store.files ⟨rootLayout, firstTree⟩).version? v = .ok none := by
  have absent : (MemoryStore.supplied {} .first "default").versions.get? v = none :=
    MemoryStore.get?_supplied_other other {} "default"
  rw [(firstTree_housed.reads v).1, MemoryStore.version?_eq_none.mpr absent]

def second : Version := { major := 2, minor := 0, patch := 0 }

-- Too long by one character.
def overlong : Version :=
  { second with
    pre := [⟨⟨List.replicate 250 'a', nofun, fun c member => by rw [List.eq_of_mem_replicate member]; rfl⟩, rfl⟩] }

theorem firstTree_profiles : (Store.files ⟨rootLayout, firstTree⟩).profiles .first =
    .ok [.bare "default" .first] := by
  have stored : (MemoryStore.supplied {} .first "default").versions.get? .first =
    some { attributes := ∅, profiles := Dict.insert ∅ "default" (.bare "default" .first) } := rfl
  rw [(firstTree_housed.reads .first).2, MemoryStore.profiles_eq stored]
  rfl

-- Settings for a profile that no file can be named for, settings that make the version themselves, a name that is
-- too long, and settings for a profile that the original did not have.
theorem copies_refused :
    Reached rootLayout firstTree ∧
      (Store.files ⟨rootLayout, firstTree⟩).version? .first =
        .ok (some { version := .first, profiles := ["default"], attributes := ∅ }) ∧
      (Store.files ⟨rootLayout, firstTree⟩).version? second = .ok none ∧
      (Store.files ⟨rootLayout, firstTree⟩).version? overlong = .ok none ∧
      (¬ ∃ exit u, runCommand (atRoot { defaultProfile := "a/b" }) firstTree (.addVersion "2.0.0" (some "1.0.0")) =
        (.ok exit, u)) ∧
      (¬ ∃ exit u, runCommand (atRoot { defaultVersion := "2.0.0" }) firstTree (.addVersion "2.0.0" (some "1.0.0")) =
        (.ok exit, u)) ∧
      (¬ ∃ exit u, runCommand (atRoot {}) firstTree (.addVersion overlong.text (some "1.0.0")) = (.ok exit, u)) ∧
      ¬ ∃ exit u, runCommand (atRoot { defaultProfile := "base" }) firstTree (.addVersion "2.0.0" (some "1.0.0")) =
        (.ok exit, u) ∧ (Store.files ⟨rootLayout, u⟩).version? .first =
          (Store.files ⟨rootLayout, firstTree⟩).version? .first := by
  have opens := firstTree_reached.opens rootLayout_roomy
  have one : Version.read "1.0.0" = .ok .first := rfl
  have two : Version.read "2.0.0" = .ok second := rfl
  have apart : second ≠ .first := by decide
  refine ⟨firstTree_reached, firstTree_first, firstTree_other apart, firstTree_other nofun, ?_, ?_, ?_, ?_⟩
  · rintro ⟨exit, u, ran⟩
    obtain ⟨_, base, m, d, s, _, ready, _⟩ :=
      copied_of_ran rootLayout_roomy opens rfl two one firstTree_first ran
    cases ready.housed.supplied_named.checked
  · rintro ⟨exit, u, ran⟩
    obtain ⟨_, base, m, d, s, _, ready, absent, _⟩ :=
      copied_of_ran rootLayout_roomy opens rfl two one firstTree_first ran
    have own : (atRoot { defaultVersion := "2.0.0" }).settings.version = .ok second := rfl
    cases ready.version.symm.trans own
    obtain ⟨entry, stored, _⟩ := m.supplied_holds second "default"
    cases absent.symm.trans stored
  · rintro ⟨exit, u, ran⟩
    obtain ⟨_, base, m, d, s, _, _, _, fits, _⟩ :=
      copied_of_ran rootLayout_roomy opens rfl (Version.read_text overlong) one firstTree_first ran
    revert fits
    decide +kernel
  · rintro ⟨exit, u, ran, same⟩
    obtain ⟨_, base, m, d, s, _, _, _, _, kept, _⟩ :=
      copied_of_ran rootLayout_roomy opens rfl two one firstTree_first ran
    have missing : "base" ∉ ["default"] := by decide
    have grown := ((kept .first (Ne.symm apart)).filled rfl _ _ firstTree_first firstTree_profiles missing).1
    have listed := Option.some.inj (Except.ok.inj (grown.symm.trans (same.trans firstTree_first)))
    have counted : 2 = 1 := congrArg (fun listed : ProfileVersion => listed.profiles.length) listed
    cases counted

-- The current container does not ask for a kind of store.
theorem firstTree_starts : ∃ s, Starts (atRoot {}) firstTree s := by
  let idle := Deployment.atRest.withStore (.files ⟨rootLayout, firstTree⟩)
  have built : Deployment.build {} (.files ⟨rootLayout, firstTree⟩) {} {} "" = .ok idle := rfl
  obtain ⟨_, files, mirrors⟩ := firstTree_housed.files
  cases files
  obtain ⟨store, supplied, starts⟩ := Deployment.start_supplies (s := idle) rootLayout_roomy firstTree_housed
    (build_eq_ok built).2.2.2 rootLayout_admits default_named default_shown default_plain mainThread
  let memory : Store := .memory (MemoryStore.supplied {} .first "default")
  have same : memory.SameContent store := by
    have twice : Housed rootLayout [] store
        ((MemoryStore.supplied {} .first "default").supplied .first "default") := supplied
    rw [MemoryStore.supplied_twice] at twice
    exact (Store.Reflects.memory _).sameContent twice.reflects
  have moved := Deployment.ensureContainer_over (s := Deployment.atRest.opened memory) same mainThread
  have made : (Deployment.atRest.opened memory).ensureContainer mainThread = _ :=
    Deployment.ensureContainer_profiled []
  have ensured : ((idle.opened store).ensureContainer mainThread).1 = .ok Deployment.root :=
    congrArg Prod.fst (moved.trans (congrArg (Deployment.carryOver store) made))
  rcases ends : (idle.opened store).ensureContainer mainThread with ⟨outcome, d⟩
  rw [ends] at ensured starts
  cases ensured
  exact ⟨_, _, idle, _, mirrors.prepare, built, starts⟩

theorem addVersion_copies_first :
    ∃ exit u, runCommand (atRoot {}) firstTree (.addVersion "2.0.0" (some "1.0.0")) = (.ok exit, u) ∧ exit.code = 0 ∧
      (∀ x, x ≠ second → Kept (atRoot {}) (.files ⟨rootLayout, firstTree⟩) (.files ⟨rootLayout, u⟩) x) ∧
      ∃ ids, Copies (.files ⟨rootLayout, u⟩) second .first ids := by
  have apart : second ≠ .first := by decide
  have other : (atRoot {}).settings.version ≠ .ok second := fun same => apart (Except.ok.inj same).symm
  have one : Version.read "1.0.0" = .ok .first := rfl
  have two : Version.read "2.0.0" = .ok second := rfl
  obtain ⟨succeeds, copied⟩ := addVersion_copies (c := atRoot {}) rootLayout_roomy firstTree_reached rfl two one
    firstTree_first (firstTree_other apart)
  obtain ⟨exit, u, ran⟩ := succeeds.mpr ⟨firstTree_starts, other, rfl⟩
  exact ⟨exit, u, ran, copied exit u ran⟩

end CommandLine
end ContainerProfiles
