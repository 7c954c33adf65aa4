import ContainerProfiles.Proofs.ExchangedProfiles
import ContainerProfiles.Proofs.FailedWrites

namespace ContainerProfiles

-- Stores on files with room for whatever is asked of them.

open FileTree StoreLayout

namespace FileTree

variable {t : FileTree} {root name last : String} {base names : Path}

section Long

variable (rooted : t.Rooted root base) (paved : t.Paved base names) (solid : Solid name) (long : ¬ nameFits name)

include rooted paved solid long

theorem trail_long : t.trail (pathOf root (names ++ [name])) = .error .nameTooLong := by
  have folder : t.entry? (base ++ names) = some .folder := paved.folder
  have unfit : nameFits name = false := by simpa using long
  rw [pathOf_snoc, trail_joinPath solid (pathOf_ne_empty rooted.sayable.1 paved.solid), trail_paved rooted paved]
  change t.step (base ++ names) name = _
  unfold FileTree.step
  rw [folder, solid.moves, unfit]
  simp [solid.down]

-- Nothing is made below a name that is too long, nor for it.
theorem makeFolders_long (inner : Solid last) (plain : '\x00' ∉ (pathOf root (names ++ [name] ++ [last])).toList) :
    t.makeFolders (pathOf root (names ++ [name] ++ [last])) = (.error .nameTooLong, t) := by
  have lost := trail_long rooted paved solid long
  have begun : pathOf root (names ++ [name]) ≠ "" := by
    rw [pathOf_snoc]
    exact joinPath_ne_empty solid (pathOf_ne_empty rooted.sayable.1 paved.solid)
  rw [pathOf_snoc] at plain ⊢
  have begun' := joinPath_ne_empty inner begun
  have astray : t.spot (joinPath (pathOf root (names ++ [name])) last) = .error .nameTooLong := by
    by_cases short : (joinPath (pathOf root (names ++ [name])) last).utf8ByteSize ≤ longestPath
    · rw [spot_joinPath inner begun ⟨plain, short⟩, lost]
      rfl
    · have unsaid : t.begin? (joinPath (pathOf root (names ++ [name])) last) = .error .nameTooLong := by
        unfold begin?
        rw [if_neg (by simpa using plain), if_neg begun', if_pos (Nat.not_le.mp short)]
      unfold spot
      rw [unsaid]
      rfl
  have unmade : t.makeFolder (joinPath (pathOf root (names ++ [name])) last) = .error .nameTooLong := by
    unfold makeFolder
    rw [astray]
    rfl
  have nowhere : t.isFolder (joinPath (pathOf root (names ++ [name])) last) = false := by
    unfold isFolder
    cases located : t.locate (joinPath (pathOf root (names ++ [name])) last) with
    | error fault => rfl
    | ok pair =>
        have walked := (trail_of_locate located).1
        rw [trail_joinPath inner begun, lost] at walked
        cases walked
  unfold makeFolders
  rw [makeUpTo, if_neg begun', unmade]
  unfold ensure
  dsimp only
  rw [nowhere]
  rfl

end Long
end FileTree

-- Below the folder of all versions there is room for the longest name of a version, the folder of its profiles
-- and the longest name of a profile, each with a slash before it.
structure StoreLayout.Roomy (l : StoreLayout) : Prop where
  room : l.versionsFolder.utf8ByteSize + 399 ≤ longestPath

variable {l : StoreLayout} {t : FileTree} {base : Path} {m n : MemoryStore} {v : Version}

theorem StoreLayout.Roomy.admits (roomy : l.Roomy) (begun : l.root ≠ "") (fits : nameFits v.text) : l.Admits v := by
  have known : "profiles" ∈ fixedNames := by simp [fixedNames]
  have short : v.text.utf8ByteSize ≤ 255 := of_decide_eq_true fits
  have size := (size_snoc begun versionsPath_proper v.text_proper).2
  have size' := (size_snoc begun (versionPath_proper v) (fixedNames_proper _ known)).2
  have eight : "profiles".utf8ByteSize = 8 := by decide +kernel
  have room := roomy.room
  refine ⟨fits, ?_⟩
  rw [profilesFolder_eq]
  change (pathOf l.root versionsPath).utf8ByteSize + 399 ≤ longestPath at room
  change (pathOf l.root (versionPath v.text)).utf8ByteSize ≤ _ at size
  omega

namespace MemoryStore

theorem version?_eq_some {listed : ProfileVersion} : m.version? v = some listed ↔
    ∃ entry, m.versions.get? v = some entry ∧
      listed = { version := v, profiles := entry.profiles.keys, attributes := entry.attributes } := by
  unfold version?
  rw [Option.map_eq_some_iff]
  exact exists_congr fun entry => and_congr_right fun _ => eq_comm

theorem version?_eq_none : m.version? v = none ↔ m.versions.get? v = none := by
  unfold version?
  rw [Option.map_eq_none_iff]

end MemoryStore

namespace Mirrors

-- The folder of the version cannot be made.
theorem addVersion_long (mirrors : Mirrors l t base m) (long : ¬ nameFits v.text) (now : String)
    (attributes : Attributes) :
    ∃ e u, FileStore.addVersion ⟨l, t⟩ now v attributes = (.error e, ⟨l, u⟩) ∧ Mirrors l u base m := by
  have known : "profiles" ∈ fixedNames := by simp [fixedNames]
  unfold FileStore.addVersion
  obtain ⟨u, still, ⟨e, _, same⟩ | ⟨_, same⟩⟩ := mirrors.locked_cases
    (fun s => if s.hasVersion v then .error (.versionExists v) else .ok ()) fun s =>
      FileStore.andThen (s.makeFolders (s.layout.profilesFolder v.text)) fun s =>
        let d : VersionDocument := { version := v, attributes, createdAt := now }
        s.commit (s.tree.replace (s.layout.versionDocument v.text) (Json.print d.toNode))
  · exact ⟨e, u, same, still⟩
  · have inner := fixedNames_proper _ known
    have plain := plain_pathOf still.begun still.plain (proper_snoc (versionPath_proper v) inner)
    have unmade := makeFolders_long still.rooted still.paved v.text_solid long inner.solid plain
    refine ⟨.file .nameTooLong, u, same.trans ?_, still⟩
    unfold FileStore.makeFolders FileStore.onTree
    dsimp only
    rw [profilesFolder_eq]
    unfold versionPath at unmade ⊢
    rw [unmade]
    rfl

end Mirrors

namespace Store

variable {s : Store} {op : StoreOperation}

-- Whatever is asked, with no condition on the version that is added.
theorem MirrorOf.perform (roomy : l.Roomy) (mirrored : MirrorOf l base s m) (now : String) (op : StoreOperation) :
    Settles (MirrorOf l base) m op (s.perform now op) := by
  obtain ⟨mirrors⟩ := mirrored
  cases op with
  | addVersion v attributes =>
      by_cases fits : nameFits v.text
      · refine Mirrored.settles mirrors now fun w other same => ?_
        cases same
        exact roomy.admits mirrors.begun fits
      · obtain ⟨e, u, same, still⟩ := mirrors.addVersion_long fits now attributes
        change Settles _ m _ (writing (onFiles (FileStore.addVersion _ now v attributes)))
        rw [same]
        exact settles_refused (.intro still) e _
  | _ => exact Mirrored.settles mirrors now nofun

-- Files that hold what a memory does whose profiles fit together.
structure Housed (l : StoreLayout) (base : Path) (s : Store) (m : MemoryStore) : Prop where
  mirrored : MirrorOf l base s m
  sound : m.Sound

theorem Housed.files (housed : Housed l base s m) : ∃ t, s = .files ⟨l, t⟩ ∧ Mirrors l t base m := by
  obtain ⟨mirrors⟩ := housed.mirrored
  exact ⟨_, rfl, mirrors⟩

theorem Housed.keyed (housed : Housed l base s m) : m.Keyed := fun v entry stored => (housed.sound v entry stored).keyed

theorem Housed.reflects (housed : Housed l base s m) : s.Reflects l.Admits m :=
  housed.mirrored.reflects fun _ admitted => admitted

-- Files are named for the profiles that are there.
theorem Housed.named (housed : Housed l base s m) (stored : m.versions.get? v = some entry) {id : ProfileId}
    (present : entry.profiles.contains id) : Named id := by
  obtain ⟨p, got⟩ := Dict.contains_iff.mp present
  obtain ⟨t, rfl, mirrors⟩ := housed.files
  exact ((mirrors.held v entry stored).written id p got).1

-- A write that would keep the profiles fitting together.
theorem Housed.perform (roomy : l.Roomy) (housed : Housed l base s m) (now : String) (op : StoreOperation)
    (kept : ∀ n, m.written op = .ok n → n.Sound) :
    ∃ n, Housed l base (s.perform now op).2 n ∧ (∀ x, (s.perform now op).1 = .ok x → m.written op = .ok n) ∧
      ∀ e, (s.perform now op).1 = .error e → n = m := by
  obtain ⟨n, mirrored, accepted, refused⟩ := housed.mirrored.perform roomy now op
  refine ⟨n, ⟨mirrored, ?_⟩, accepted, refused⟩
  cases outcome : (s.perform now op).1 with
  | error e => exact refused e outcome ▸ housed.sound
  | ok x => exact kept n (accepted x outcome)

end Store

namespace Deployment

open Store (Housed)

variable {s : Deployment} {me : Thread} {admits : Version → Prop}

theorem getVersion_reflects (reflects : s.store.Reflects admits m) {listed : ProfileVersion}
    (got : s.getVersion me v = .ok listed) :
    ∃ entry, m.versions.get? v = some entry ∧
      listed = { version := v, profiles := entry.profiles.keys, attributes := entry.attributes } := by
  simp only [getVersion, storedVersion, bind_eq_ok, mapError_eq_ok, reflects.version?] at got
  obtain ⟨_, _, found, same, answered⟩ := got
  cases same
  cases listing : m.version? v with
  | none =>
      rw [listing] at answered
      cases answered
  | some other =>
      rw [listing] at answered
      cases answered
      exact MemoryStore.version?_eq_some.mp listing

theorem prepareVersion_fits {listed : ProfileVersion} {profiles : List Profile} {state : VersionState}
    (prepared : s.prepareVersion me listed profiles = .ok state) :
    ∀ p ∈ profiles, (Catalog.ofProfiles profiles).Fits listed.version p := by
  simp only [prepareVersion, bind_eq_ok, guard_eq_ok, pure_eq_ok] at prepared
  obtain ⟨_, _, _, _, _, _, _, checked, _⟩ := prepared
  exact fun p member => VersionState.fits_of_check (forM_eq_ok.mp checked p member)

theorem ofStore_ok {α : Type} {result x : α} {written : Except StoreError Unit × Store}
    (succeeded : (s.ofStore result written).1 = .ok x) : x = result ∧ written.1 = .ok () := by
  obtain ⟨outcome, store⟩ := written
  cases outcome with
  | error cause => cases succeeded
  | ok _ =>
      cases succeeded
      exact ⟨rfl, rfl⟩

-- What an operation that may write leaves: what it would make of the memory where it succeeds.
def Leaves (l : StoreLayout) (base : Path) (makes : α → MemoryStore → Prop) (out : Outcome α) : Prop :=
  ∃ n, Housed l base out.2.store n ∧ ∀ x, out.1 = .ok x → makes x n

theorem Leaves.mono {α : Type} {makes others : α → MemoryStore → Prop} {out : Outcome α}
    (leaves : Leaves l base makes out) (implied : ∀ x n, makes x n → others x n) : Leaves l base others out := by
  obtain ⟨n, housed, made⟩ := leaves
  exact ⟨n, housed, fun x succeeded => implied x n (made x succeeded)⟩

-- Nothing but the answer changes after the last write.
theorem Leaves.done {α : Type} {makes : α → MemoryStore → Prop} {out : Outcome α} (leaves : Leaves l base makes out) :
    Leaves l base (fun _ n => ∃ x, makes x n) (andThen out fun _ t => (.ok (), t)) := by
  obtain ⟨n, housed, made⟩ := leaves
  obtain ⟨outcome, t⟩ := out
  refine ⟨n, ?_, ?_⟩
  · cases outcome <;> exact housed
  · intro y succeeded
    cases outcome with
    | error e => cases succeeded
    | ok x => exact ⟨x, made x rfl⟩

theorem leaves_error {α : Type} {makes : α → MemoryStore → Prop} (housed : Housed l base s.store m)
    (e : OperationError) : Leaves l base makes (.error e, s) := ⟨m, housed, nofun⟩

theorem leaves_write {α : Type} (roomy : l.Roomy) (housed : Housed l base s.store m) (op : StoreOperation)
    (kept : ∀ n, m.written op = .ok n → n.Sound) {written : Except StoreError Unit × Store}
    (same : s.store.perform s.clock op = Store.writing written) (result : α) :
    Leaves l base (fun x n => x = result ∧ m.written op = .ok n) (s.ofStore result written) := by
  obtain ⟨n, still, accepted, _⟩ := housed.perform roomy s.clock op kept
  rw [same] at still accepted
  refine ⟨n, ?_, fun x succeeded => ?_⟩
  · rw [ofStore_snd]
    exact still
  · obtain ⟨rfl, done⟩ := ofStore_ok succeeded
    refine ⟨rfl, accepted .done ?_⟩
    unfold Store.writing
    rw [done]
    rfl

section Operations

variable (roomy : l.Roomy) (housed : Housed l base s.store m)

include roomy housed

theorem addVersion_leaves (me : Thread) (listed : ProfileVersion) {profiles : List Profile}
    (named : ∀ p ∈ profiles, Named p.identity) :
    Leaves l base (fun _ n => m.versions.get? listed.version = none ∧ n = m.put listed.version
        { attributes := listed.attributes, profiles := .ofProfiles profiles })
      (s.addVersion me listed profiles) := by
  unfold addVersion
  cases prepared : s.prepareVersion me listed profiles with
  | error e => exact leaves_error housed e
  | ok state =>
      obtain ⟨absent, version, distinct⟩ := prepareVersion_ok housed.reflects prepared
      obtain ⟨t, files, mirrors⟩ := housed.files
      dsimp only
      rw [files]
      by_cases fits : nameFits listed.version.text
      · obtain ⟨after, written, mirrored⟩ := storeProfiles_files (.intro mirrors) s.clock
          (roomy.admits mirrors.begun fits) named absent version distinct
        have edit : MemoryStore.Edit {} m (m.put listed.version
            { attributes := listed.attributes, profiles := .ofProfiles profiles }) :=
          .versionAdded absent (prepareVersion_fits prepared)
        rw [written]
        exact ⟨_, ⟨mirrored, edit.sound housed.sound⟩, fun _ _ => ⟨absent, rfl⟩⟩
      · obtain ⟨e, u, failed, still⟩ := mirrors.addVersion_long fits s.clock listed.attributes
        unfold Store.addVersion
        dsimp only
        rw [failed]
        refine ⟨m, ⟨?_, housed.sound⟩, ?_⟩
        · rw [Store.onFiles, storeProfiles_error]
          exact .intro still
        · intro x succeeded
          rw [Store.onFiles, storeProfiles_error] at succeeded
          cases succeeded

theorem removeVersion_leaves (me : Thread) (v : Version) :
    Leaves l base (fun _ n => m.removeVersion v = .ok n) (s.removeVersion me v) := by
  unfold removeVersion
  cases prepared : s.prepareVersionRemoval me v with
  | error e => exact leaves_error housed e
  | ok listed =>
      simp only [prepareVersionRemoval, bind_eq_ok, load_iff housed.reflects housed.keyed] at prepared
      obtain ⟨_, _, _, ⟨entry, found, rfl⟩, _⟩ := prepared
      refine (leaves_write roomy housed (.removeVersion v) (fun n done => ?_) rfl listed).mono fun _ _ => And.right
      cases (MemoryStore.removeVersion_ok found).symm.trans done
      have edit : MemoryStore.Edit {} m { versions := m.versions.erase v } :=
        .versionRemoved fun c listed => absurd listed List.not_mem_nil
      exact edit.sound housed.sound

theorem addProfile_leaves (me : Thread) (p : Profile) :
    Leaves l base (fun _ n => m.addProfile p = .ok n) (s.addProfile me p) := by
  unfold addProfile
  cases prepared : s.prepareProfile me p with
  | error e => exact leaves_error housed e
  | ok _ =>
      simp only [prepareProfile, bind_eq_ok, guard_eq_ok, load_iff housed.reflects housed.keyed] at prepared
      obtain ⟨_, _, _, ⟨entry, found, rfl⟩, new, checked⟩ := prepared
      have absent := Dict.contains_false.mp (Bool.eq_false_iff.mpr new)
      refine (leaves_write roomy housed (.addProfile p) (fun n done => ?_) rfl p).mono fun _ _ => And.right
      cases (MemoryStore.addProfile_ok found absent).symm.trans done
      have edit : MemoryStore.Edit {} m _ := .profileAdded found absent (VersionState.fits_of_check checked)
      exact edit.sound housed.sound

theorem removeProfile_leaves (me : Thread) (v : Version) (id : ProfileId) :
    Leaves l base (fun _ n => m.removeProfile v id = .ok n) (s.removeProfile me v id) := by
  unfold removeProfile
  cases prepared : s.prepareProfileRemoval me v id with
  | error e => exact leaves_error housed e
  | ok p =>
      simp only [prepareProfileRemoval, bind_eq_ok, guard_eq_ok, load_iff housed.reflects housed.keyed] at prepared
      obtain ⟨_, _, _, ⟨entry, found, rfl⟩, q, required, alone, _⟩ := prepared
      have present := VersionState.contains_of_require required
      refine (leaves_write roomy housed (.removeProfile v id) (fun n done => ?_) rfl p).mono
        fun _ _ => And.right
      cases (MemoryStore.removeProfile_ok found present).symm.trans done
      exact MemoryStore.put_sound housed.sound
        (Catalog.erase_sound (housed.sound v entry found) (VersionState.leaf_of_childrenOf alone))

theorem replaceProfile_leaves (me : Thread) (p : Profile) (caller : Option String) :
    Leaves l base (fun _ _ => True) (s.replaceProfile me p caller) := by
  unfold replaceProfile
  cases prepared : s.prepareReplacement me p with
  | error e => exact leaves_error housed e
  | ok _ =>
      simp only [prepareReplacement, bind_eq_ok, load_iff housed.reflects housed.keyed] at prepared
      obtain ⟨_, _, _, ⟨entry, found, rfl⟩, q, required, checked⟩ := prepared
      have present := VersionState.contains_of_require required
      have replaced : ∃ n, Housed l base (s.storeReplacement p).2 n := by
        unfold storeReplacement
        split
        · exact ⟨m, housed⟩
        · obtain ⟨n, still, _⟩ := housed.perform roomy s.clock (.updateProfile p) fun n done => by
            cases (MemoryStore.updateProfile_ok found present).symm.trans done
            have exchange : m.Replaces p _ := .intro found present (VersionState.fits_of_check checked)
            exact exchange.sound housed.sound
          exact ⟨n, still⟩
      obtain ⟨n, still⟩ := replaced
      refine ⟨n, ?_, fun _ _ => trivial⟩
      dsimp only
      rcases stored : s.storeReplacement p with ⟨outcome, written⟩
      rw [stored] at still
      cases outcome <;> exact still

theorem updateProfile_leaves (me : Thread) (p : Profile) (caller : Option String) :
    Leaves l base (fun _ _ => True) (s.updateProfile me p caller) := by
  obtain ⟨n, still, _⟩ := replaceProfile_leaves roomy housed me p none
  unfold updateProfile
  cases s.containerService.check with
  | error e => exact leaves_error housed e
  | ok _ =>
      dsimp only
      rcases result : s.replaceProfile me p none with ⟨outcome, next⟩
      rw [result] at still
      refine ⟨n, ?_, fun _ _ => trivial⟩
      cases outcome with
      | error e => exact still
      | ok q =>
          dsimp only
          rw [(reprovisions_beside ..).store]
          exact still

end Operations

end Deployment
end ContainerProfiles
