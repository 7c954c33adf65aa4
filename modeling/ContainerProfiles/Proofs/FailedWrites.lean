import ContainerProfiles.Proofs.RefusedRuns

namespace ContainerProfiles

-- Writes to the store of profiles that fail.

open FileTree StoreLayout

variable {admits : Version → Prop} {m : MemoryStore}

namespace Store

-- The same is read from both.
structure SameContent (s t : Store) : Prop where
  versions : t.versions = s.versions
  version? : ∀ v, t.version? v = s.version? v
  profiles : ∀ v, t.profiles v = s.profiles v

theorem Reflects.sameContent {s t : Store} (one : s.Reflects admits m) (two : t.Reflects admits m) :
    s.SameContent t :=
  ⟨two.versions.trans one.versions.symm, fun v => (two.version? v).trans (one.version? v).symm,
    fun v => (two.profiles v).trans (one.profiles v).symm⟩

-- Names the store can take for a profile.
def Takes : Store → ProfileId → Prop
  | memory _, _ => True
  | files _, id => Named id

end Store

namespace Deployment

variable {s : Deployment} {me : Thread} {caller : Option String}

theorem prepareVersion_ok (reflects : s.store.Reflects admits m) {listed : ProfileVersion}
    {profiles : List Profile} {state : VersionState} (prepared : s.prepareVersion me listed profiles = .ok state) :
    m.versions.get? listed.version = none ∧ (∀ p ∈ profiles, p.version = listed.version) ∧
      (profiles.map Profile.identity).Nodup := by
  simp only [prepareVersion, bind_eq_ok, guard_eq_ok, mapError_eq_ok, pure_eq_ok] at prepared
  obtain ⟨_, _, found, looked, new, full, _, checked, rfl⟩ := prepared
  rw [reflects.version?] at looked
  cases looked
  have sizes : (Catalog.ofProfiles profiles).size = profiles.length := Decidable.not_not.mp full
  have pairs := Dict.fresh_of_size (∅ : Catalog) (profiles.map (fun p => (p.identity, p)))
    (by rw [List.length_map]; exact sizes.trans (Nat.zero_add _).symm)
  refine ⟨by simpa [MemoryStore.version?] using new, fun p member => ?_, ?_⟩
  · exact (VersionState.fits_of_check (forM_eq_ok.mp checked p member)).version
  · simpa [List.map_map, Function.comp_def] using pairs.1

theorem addVersion_memory (clock : String) {listed : ProfileVersion} {profiles : List Profile}
    (absent : m.versions.get? listed.version = none) (version : ∀ p ∈ profiles, p.version = listed.version)
    (distinct : (profiles.map Profile.identity).Nodup) :
    storeProfiles clock profiles
        ((Store.memory m).addVersion clock listed.version listed.attributes) =
      (.ok (), .memory (m.put listed.version
        { attributes := listed.attributes, profiles := .ofProfiles profiles })) := by
  have added : (Store.memory m).addVersion clock listed.version listed.attributes =
      (.ok (), .memory (m.put listed.version { attributes := listed.attributes })) := by
    rw [Store.addVersion, MemoryStore.addVersion_ok absent]
    rfl
  rw [added, storeProfiles_memory version distinct (fun _ _ => rfl)]
  rfl

theorem storeProfiles_mirrored {l : StoreLayout} {base : Path} (clock : String) {profiles : List Profile}
    (named : ∀ p ∈ profiles, Named p.identity) {x y : Except StoreError Unit × Store} (same : x.1 = y.1)
    (mirrored : Store.Mirrored l base x.2 y.2) :
    (storeProfiles clock profiles x).1 = (storeProfiles clock profiles y).1 ∧
      Store.Mirrored l base (storeProfiles clock profiles x).2 (storeProfiles clock profiles y).2 := by
  induction profiles generalizing x y with
  | nil => exact ⟨same, mirrored⟩
  | cons p rest ih =>
      obtain ⟨outcome, files⟩ := x
      obtain ⟨outcome', memory⟩ := y
      dsimp only at same mirrored
      subst same
      cases outcome with
      | error e => exact ⟨rfl, mirrored⟩
      | ok _ =>
          obtain @⟨t, m, mirrors⟩ := mirrored
          obtain ⟨same, next⟩ := Store.mirrored_write (mirrors.addProfile (named p List.mem_cons_self) clock)
          exact ih (fun q member => named q (.tail _ member)) same next

-- What is written for a new version on files if there is a file for every one of its profiles.
theorem storeProfiles_files {l : StoreLayout} {base : Path} {store : Store} (mirrored : store.MirrorOf l base m)
    (clock : String) {listed : ProfileVersion} (admitted : l.Admits listed.version) {profiles : List Profile}
    (named : ∀ p ∈ profiles, Named p.identity) (absent : m.versions.get? listed.version = none)
    (version : ∀ p ∈ profiles, p.version = listed.version) (distinct : (profiles.map Profile.identity).Nodup) :
    ∃ after, storeProfiles clock profiles (store.addVersion clock listed.version listed.attributes) =
        (.ok (), after) ∧
      after.MirrorOf l base (m.put listed.version
        { attributes := listed.attributes, profiles := .ofProfiles profiles }) := by
  have memory := addVersion_memory clock absent version distinct
  obtain ⟨mirrors⟩ := mirrored
  obtain ⟨same, next⟩ := Store.mirrored_write (mirrors.addVersion admitted clock listed.attributes)
  obtain ⟨outcome, mirrored⟩ := storeProfiles_mirrored clock named same next
  unfold Store.addVersion at memory ⊢
  dsimp only at memory ⊢
  rw [memory] at outcome mirrored
  refine ⟨_, ?_, mirrored⟩
  exact Prod.ext outcome rfl

-- The same on either kind of store.
theorem storeProfiles_reflects {store : Store} (reflects : store.Reflects admits m) (clock : String)
    {listed : ProfileVersion} (admitted : admits listed.version) {profiles : List Profile}
    (taken : ∀ p ∈ profiles, store.Takes p.identity) (absent : m.versions.get? listed.version = none)
    (version : ∀ p ∈ profiles, p.version = listed.version) (distinct : (profiles.map Profile.identity).Nodup) :
    ∃ after, storeProfiles clock profiles (store.addVersion clock listed.version listed.attributes) =
        (.ok (), after) ∧
      after.Reflects admits (m.put listed.version
        { attributes := listed.attributes, profiles := .ofProfiles profiles }) := by
  cases reflects with
  | memory => exact ⟨_, addVersion_memory clock absent version distinct, .memory _⟩
  | files fits mirrors =>
      obtain ⟨after, written, mirrored⟩ := storeProfiles_files (.intro mirrors) clock (fits _ admitted) taken absent
        version distinct
      exact ⟨after, written, mirrored.reflects fits⟩

theorem addVersion_accepted (reflects : s.store.Reflects admits m) {listed : ProfileVersion}
    (admitted : admits listed.version) {profiles : List Profile}
    (taken : ∀ p ∈ profiles, s.store.Takes p.identity) {state : VersionState}
    (prepared : s.prepareVersion me listed profiles = .ok state) :
    (s.addVersion me listed profiles).1 = .ok state.snapshot := by
  obtain ⟨absent, version, distinct⟩ := prepareVersion_ok reflects prepared
  obtain ⟨after, written, _⟩ := storeProfiles_reflects reflects s.clock admitted taken absent version distinct
  unfold addVersion
  rw [prepared]
  dsimp only
  rw [written]
  rfl

theorem storeProfiles_error (clock : String) (profiles : List Profile) (e : StoreError) (store : Store) :
    storeProfiles clock profiles (.error e, store) = (.error e, store) := by
  cases profiles <;> rfl

theorem storeProfiles_append (clock : String) (before after : List Profile) (w : Except StoreError Unit × Store) :
    storeProfiles clock (before ++ after) w = storeProfiles clock after (storeProfiles clock before w) := by
  induction before generalizing w with
  | nil => cases after <;> rfl
  | cons p rest ih =>
      obtain ⟨outcome, store⟩ := w
      cases outcome with
      | error e =>
          rw [List.cons_append, storeProfiles_error, storeProfiles_error, storeProfiles_error]
      | ok _ => exact ih _

theorem onFiles_kept : Store.Kept (fun _ => True) fun store => ∃ f, store = .files f := by
  rintro _ now op _ ⟨f, rfl⟩
  cases op <;> exact ⟨_, rfl⟩

-- A name that the files cannot take ends the writing when the version is there already.
theorem addVersion_halfway {f : FileStore} (files : s.store = .files f) (reflects : s.store.Reflects admits m)
    {listed : ProfileVersion} (admitted : admits listed.version) {before after : List Profile} {p : Profile}
    (taken : ∀ q ∈ before, Named q.identity) (refused : checkProfileName p.identity = .error fault)
    {state : VersionState} (prepared : s.prepareVersion me listed (before ++ p :: after) = .ok state) :
    (s.addVersion me listed (before ++ p :: after)).1 = .error (.store (.invalidName p.identity fault)) ∧
      (s.addVersion me listed (before ++ p :: after)).2.store.Reflects admits (m.put listed.version
        { attributes := listed.attributes, profiles := .ofProfiles before }) := by
  obtain ⟨absent, version, distinct⟩ := prepareVersion_ok reflects prepared
  rw [List.map_append] at distinct
  have held : ∀ q ∈ before, s.store.Takes q.identity := by
    rw [files]
    exact taken
  obtain ⟨next, written, mirrored⟩ := storeProfiles_reflects reflects s.clock admitted held absent
    (fun q member => version q (List.mem_append_left _ member)) (List.nodup_append.mp distinct).1
  obtain ⟨g, rfl⟩ : ∃ g, next = .files g := by
    have kept := storeProfiles_keeps onFiles_kept s.clock before
      (onFiles_kept s.store s.clock (.addVersion listed.version listed.attributes) (fun _ _ _ => trivial) ⟨f, files⟩)
    change ∃ g, (storeProfiles s.clock before (s.store.addVersion _ _ _)).2 = .files g at kept
    rw [written] at kept
    exact kept
  have ended : (Store.files g).addProfile s.clock p = (.error (.invalidName p.identity fault), .files g) := by
    unfold Store.addProfile FileStore.addProfile FileStore.named FileStore.checkName
    dsimp only
    rw [refused]
    rfl
  unfold addVersion
  rw [prepared]
  dsimp only
  rw [storeProfiles_append, written, storeProfiles, ended, storeProfiles_error]
  exact ⟨rfl, mirrored⟩

end Deployment

-- The operations that write to the store of profiles.
def Operation.OnProfiles : Operation → Prop
  | .addVersion _ _ | .removeVersion _ | .addProfile _ | .replaceProfile _ | .removeProfile _ _ => True
  | _ => False

namespace Deployment

variable {s : Deployment} {me : Thread} {caller : Option String}

theorem ofStore_failed {α : Type} {result : α} {written : Except StoreError Unit × Store}
    (failed : (s.ofStore result written).1 = .error e) : ∃ cause, written.1 = .error cause := by
  obtain ⟨outcome, store⟩ := written
  cases outcome with
  | error cause => exact ⟨cause, rfl⟩
  | ok _ => cases failed

theorem acting_failed {α : Type} {answer : α → Reply} {out : Outcome α} (failed : (acting answer out).1 = .error e) :
    out.1 = .error e := by
  obtain ⟨outcome, t⟩ := out
  cases outcome with
  | error cause =>
      cases failed
      rfl
  | ok a => cases failed

-- A single write that failed.
theorem write_failed (reflects : s.store.Reflects admits m) (op : StoreOperation)
    (admitted : ∀ v attributes, op = .addVersion v attributes → admits v)
    {written : Except StoreError Unit × Store} (same : s.store.perform s.clock op = Store.writing written)
    (failed : written.1 = .error e) : s.store.SameContent written.2 := by
  obtain ⟨n, after, _, unchanged⟩ := reflects.perform s.clock admitted
  rw [same] at after unchanged
  have still := unchanged e (by unfold Store.writing; rw [failed]; rfl)
  subst still
  exact reflects.sameContent after

-- Either something was found amiss before anything was written, or it comes down to a single write.
theorem prepared_failed {α : Type} (reflects : s.store.Reflects admits m) (op : StoreOperation)
    (admitted : ∀ v attributes, op = .addVersion v attributes → admits v)
    {written : Except StoreError Unit × Store} (same : s.store.perform s.clock op = Store.writing written)
    {out : Outcome α} (ends : (∃ cause, out = (.error cause, s)) ∨ ∃ x, out = s.ofStore x written)
    (failed : out.1 = .error e) : s.store.SameContent out.2.store := by
  rcases ends with ⟨cause, rfl⟩ | ⟨x, rfl⟩
  · exact reflects.sameContent reflects
  · obtain ⟨cause, failed⟩ := ofStore_failed failed
    rw [ofStore_snd]
    exact write_failed reflects op admitted same failed

theorem removeVersion_failed (reflects : s.store.Reflects admits m) (v : Version)
    (failed : (s.removeVersion me v).1 = .error e) : s.store.SameContent (s.removeVersion me v).2.store := by
  refine prepared_failed reflects (.removeVersion v) nofun rfl ?_ failed
  unfold removeVersion
  cases s.prepareVersionRemoval me v with
  | error cause => exact .inl ⟨cause, rfl⟩
  | ok listed => exact .inr ⟨listed, rfl⟩

theorem addProfile_failed (reflects : s.store.Reflects admits m) (p : Profile)
    (failed : (s.addProfile me p).1 = .error e) : s.store.SameContent (s.addProfile me p).2.store := by
  refine prepared_failed reflects (.addProfile p) nofun rfl ?_ failed
  unfold addProfile
  cases s.prepareProfile me p with
  | error cause => exact .inl ⟨cause, rfl⟩
  | ok _ => exact .inr ⟨p, rfl⟩

theorem removeProfile_failed (reflects : s.store.Reflects admits m) (v : Version) (id : ProfileId)
    (failed : (s.removeProfile me v id).1 = .error e) :
    s.store.SameContent (s.removeProfile me v id).2.store := by
  refine prepared_failed reflects (.removeProfile v id) nofun rfl ?_ failed
  unfold removeProfile
  cases s.prepareProfileRemoval me v id with
  | error cause => exact .inl ⟨cause, rfl⟩
  | ok p => exact .inr ⟨p, rfl⟩

theorem replaceProfile_failed (reflects : s.store.Reflects admits m) (p : Profile)
    (failed : (s.replaceProfile me p caller).1 = .error e) :
    s.store.SameContent (s.replaceProfile me p caller).2.store := by
  have exchanged : ∀ cause, (s.storeReplacement p).1 = .error cause →
      s.store.SameContent (s.storeReplacement p).2 := by
    intro cause refused
    unfold storeReplacement at refused ⊢
    split at refused
    · rename_i barred
      rw [if_pos barred]
      exact reflects.sameContent reflects
    · rename_i free
      rw [if_neg free]
      exact write_failed reflects (.updateProfile p) nofun rfl refused
  unfold replaceProfile at failed ⊢
  cases prepared : s.prepareReplacement me p with
  | error cause => exact reflects.sameContent reflects
  | ok _ =>
      rw [prepared] at failed
      dsimp only at failed ⊢
      rcases stored : s.storeReplacement p with ⟨outcome, written⟩
      rw [stored] at failed exchanged
      cases outcome with
      | error cause => exact exchanged cause rfl
      | ok _ => cases failed

-- A new version that stays with the profiles before the first one that the store does not take.
structure Unfinished (admits : Version → Prop) (s t : Deployment) (me : Thread) (listed : ProfileVersion)
    (before after : List Profile) (p : Profile) (e : OperationError) : Prop where
  prepared : ∃ state, s.prepareVersion me listed (before ++ p :: after) = .ok state
  taken : ∀ q ∈ before, s.store.Takes q.identity
  first : ¬ s.store.Takes p.identity
  stays : ∀ fault, checkProfileName p.identity = .error fault → e = .store (.invalidName p.identity fault) ∧
    ∃ m, s.store.Reflects admits m ∧ t.store.Reflects admits (m.put listed.version
      { attributes := listed.attributes, profiles := .ofProfiles before })

open Classical in
theorem first_refused {store : Store} {profiles : List Profile}
    (out : ¬ ∀ p ∈ profiles, store.Takes p.identity) :
    ∃ before p after, profiles = before ++ p :: after ∧ (∀ q ∈ before, store.Takes q.identity) ∧
      ¬ store.Takes p.identity := by
  have refused : ∃ q ∈ profiles, decide (¬ store.Takes q.identity) = true := by simpa using out
  obtain ⟨p, found⟩ := Option.isSome_iff_exists.mp (List.find?_isSome.mpr refused)
  obtain ⟨first, before, after, rfl, taken⟩ := List.find?_eq_some_iff_append.mp found
  exact ⟨before, p, after, rfl, fun q earlier => by simpa using taken q earlier, of_decide_eq_true first⟩

theorem addVersion_failed (reflects : s.store.Reflects admits m) {listed : ProfileVersion}
    (admitted : admits listed.version) {profiles : List Profile}
    (failed : (s.addVersion me listed profiles).1 = .error e) :
    s.store.SameContent (s.addVersion me listed profiles).2.store ∨
      ∃ before p after, profiles = before ++ p :: after ∧
        s.Unfinished admits (s.addVersion me listed profiles).2 me listed before after p e := by
  cases prepared : s.prepareVersion me listed profiles with
  | error cause =>
      left
      unfold addVersion
      rw [prepared]
      exact reflects.sameContent reflects
  | ok state =>
      right
      have out : ¬ ∀ p ∈ profiles, s.store.Takes p.identity := fun taken => by
        rw [addVersion_accepted reflects admitted taken prepared] at failed
        cases failed
      obtain ⟨before, p, after, rfl, taken, first⟩ := first_refused out
      refine ⟨before, p, after, rfl, ⟨state, prepared⟩, taken, first, fun fault refused => ?_⟩
      cases kind : s.store with
      | memory n =>
          rw [kind] at first
          exact absurd trivial first
      | files f =>
          rw [kind] at taken
          obtain ⟨ended, left⟩ := addVersion_halfway kind reflects admitted taken refused prepared
          exact ⟨Except.error.inj (failed.symm.trans ended), m, kind ▸ reflects, left⟩

theorem removeVersion_missing (reflects : s.store.Reflects admits m) (absent : m.versions.get? v = none)
    (permitted : s.permitVersion me v .write = .ok ()) :
    (s.perform me caller (.removeVersion v)).1 = .error (.versionNotFound v) := by
  have nothing : s.store.version? v = .ok none := by
    rw [reflects.version?, MemoryStore.version?, absent]
    rfl
  have refused : s.prepareVersionRemoval me v = .error (.versionNotFound v) := by
    unfold prepareVersionRemoval load storedVersion
    rw [permitted, nothing]
    rfl
  unfold perform acting removeVersion
  dsimp only
  rw [refused]
  rfl

-- Nothing that can be read has changed, unless it was a new version with a profile that has no place in a file.
theorem turns_failed_write (opened : s.store.Opened admits) {ts : List Turn} (admitted : s.Admitted admits ts)
    {op : Operation} (write : op.OnProfiles) (fits : ∀ v, op.Adds s.defaultVersion v → admits v)
    (failed : ((s.turns ts).perform me caller op).1 = .error e) :
    (s.turns ts).store.SameContent ((s.turns ts).perform me caller op).2.store ∨
      ∃ listed before p after, op = .addVersion listed (before ++ p :: after) ∧
        (s.turns ts).Unfinished admits ((s.turns ts).perform me caller op).2 me listed before after p e := by
  obtain ⟨m, reflects, _⟩ := turns_backed opened admitted
  cases op with
  | addVersion listed profiles =>
      refine (addVersion_failed reflects (fits _ rfl) (acting_failed failed)).imp_right ?_
      rintro ⟨before, p, after, rfl, unfinished⟩
      exact ⟨listed, before, p, after, rfl, unfinished⟩
  | removeVersion v => exact .inl (removeVersion_failed reflects v (acting_failed failed))
  | addProfile p => exact .inl (addProfile_failed reflects p (acting_failed failed))
  | replaceProfile p => exact .inl (replaceProfile_failed reflects p (acting_failed failed))
  | removeProfile v id => exact .inl (removeProfile_failed reflects v id (acting_failed failed))
  | _ => exact write.elim

-- On files, a version that is not there is not removed.
theorem turns_failed_write_missing :
    ∃ f s, FileStore.prepare ⟨⟨"/"⟩, {}⟩ = (.ok (), f) ∧ build {} (.files f) {} {} "" = .ok s ∧
      let t := s.turns [.switch true true]
      let written := t.perform "main" none (.removeVersion .first)
      written.1 = .error (.versionNotFound .first) ∧ t.store.SameContent written.2.store := by
  have found : FileTree.locate {} "/" = .ok ([], .folder) := rfl
  have room : (StoreLayout.versionsFolder ⟨"/"⟩).utf8ByteSize ≤ longestPath := by decide +kernel
  obtain ⟨u, prepared, _⟩ := mirrors_opened (l := ⟨"/"⟩) found (fun _ _ => rfl) room
  obtain ⟨s, started, stored, permitted⟩ : ∃ s, build {} (.files ⟨⟨"/"⟩, u⟩) {} {} "" = .ok s ∧
      s.store = .files ⟨⟨"/"⟩, u⟩ ∧ (s.turns [.switch true true]).permitVersion "main" .first .write = .ok () :=
    ⟨_, rfl, rfl, rfl⟩
  refine ⟨_, s, prepared, started, ?_⟩
  intro t written
  have opened : s.store.Opened (StoreLayout.Admits ⟨"/"⟩) := stored ▸ .files found (fun _ _ => rfl) room prepared
  have reflects : t.store.Reflects (StoreLayout.Admits ⟨"/"⟩) {} := opened.reflects
  have failed : written.1 = .error (.versionNotFound .first) := removeVersion_missing reflects rfl permitted
  have write : Operation.OnProfiles (.removeVersion .first) := trivial
  have same := turns_failed_write opened (fun _ _ _ listed => ?_) write (fun _ => False.elim) failed
  · refine ⟨failed, same.resolve_right ?_⟩
    rintro ⟨_, _, _, _, same, _⟩
    cases same
  · cases List.mem_singleton.mp listed

-- A profile in order that no file can be named for.
def hidden : Profile := { identity := ".hidden", version := .first }

theorem hidden_checked (listed : ProfileVersion) (version : listed.version = .first) :
    (VersionState.ofProfiles listed [hidden]).check hidden = .ok () :=
  VersionState.check_alone rfl rfl (by decide +kernel) version.symm rfl

theorem hidden_prepared (reflects : s.store.Reflects admits {}) {listed : ProfileVersion}
    (version : listed.version = .first) (permitted : s.permitVersion me .first .write = .ok ()) :
    s.prepareVersion me listed [hidden] = .ok (.ofProfiles listed [hidden]) := by
  simp only [prepareVersion, bind_eq_ok, guard_eq_ok, mapError_eq_ok, pure_eq_ok]
  refine ⟨(), by rw [version]; exact permitted, none, ?_, Bool.false_ne_true, fun full => full rfl, (), ?_, trivial⟩
  · rw [reflects.version?]
    rfl
  · unfold List.forM
    rw [hidden_checked listed version]
    rfl

theorem hidden_stays {f : FileStore} (files : s.store = .files f) (reflects : s.store.Reflects admits {})
    (admitted : admits .first) (permitted : s.permitVersion me .first .write = .ok ()) {listed : ProfileVersion}
    (version : listed.version = .first) :
    (s.perform me caller (.addVersion listed [hidden])).1 = .error (.store (.invalidName ".hidden" .shape)) ∧
      (s.perform me caller (.addVersion listed [hidden])).2.store.versions = .ok [.first] := by
  have refused : checkProfileName hidden.identity = .error .shape := by decide +kernel
  have prepared : s.prepareVersion me listed ([] ++ [hidden]) = .ok _ :=
    hidden_prepared reflects version permitted
  rw [← version] at admitted
  obtain ⟨failed, left⟩ := addVersion_halfway files reflects admitted
    (fun _ absent => absurd absent List.not_mem_nil) refused prepared
  rw [List.nil_append] at failed left
  unfold perform acting
  dsimp only
  rw [failed, left.versions, version]
  exact ⟨rfl, rfl⟩

-- The version that came with it can be read although nothing should have been stored.
theorem failed_version_stays :
    ∃ f s, FileStore.prepare ⟨⟨"/"⟩, {}⟩ = (.ok (), f) ∧ build {} (.files f) {} {} "" = .ok s ∧
      let t := s.turns [.switch true true]
      let written := t.perform "main" none
        (.addVersion { version := .first, profiles := [], attributes := ∅ } [hidden])
      written.1 = .error (.store (.invalidName ".hidden" .shape)) ∧
        t.store.versions = .ok [] ∧ written.2.store.versions = .ok [.first] := by
  have found : FileTree.locate {} "/" = .ok ([], .folder) := rfl
  have admitted : StoreLayout.Admits ⟨"/"⟩ .first := ⟨by decide +kernel, by decide +kernel⟩
  obtain ⟨u, opened, mirrors⟩ := mirrors_opened (l := ⟨"/"⟩) found (fun _ _ => rfl) (by decide +kernel)
  refine ⟨⟨⟨"/"⟩, u⟩, _, opened, rfl, ?_⟩
  have reflects : (Store.files ⟨⟨"/"⟩, u⟩).Reflects (StoreLayout.Admits ⟨"/"⟩) {} :=
    .files (fun _ fits => fits) mirrors
  intro t written
  have stays : written.1 = _ ∧ written.2.store.versions = _ :=
    hidden_stays (s := t) rfl reflects admitted rfl rfl
  exact ⟨stays.1, reflects.versions, stays.2⟩

end Deployment
end ContainerProfiles
