import ContainerProfiles.Proofs.Folders
import ContainerProfiles.Proofs.StoredDocuments
import ContainerProfiles.Proofs.StoreEdits

namespace ContainerProfiles

-- A store on files beside one in memory. Below the root stand the documents of the versions and profiles that
-- memory holds and nothing else that a reader would look at, so whatever is read is the same.

open FileTree StoreLayout

-- What the files hold of one version. The times in the documents are those of the writing.
structure Holds (l : StoreLayout) (t : FileTree) (base : Path) (v : Version) (entry : StoredVersion) : Prop where
  admitted : l.Admits v
  paved : t.Paved base (profilesPath v.text)
  document : ∃ now, t.below base (versionPath v.text ++ ["version.json"]) =
    some (.file (Json.print (VersionDocument.toNode ⟨v, entry.attributes, now⟩)))
  written : ∀ id p, entry.profiles.get? id = some p → Named id ∧ ∃ now,
    t.below base (profilesPath v.text ++ [profileFileName id]) =
      some (.file (Json.print (ProfileDocument.sealed p now).toNode))
  others : ∀ name, (∀ id, entry.profiles.contains id → profileFileName id ≠ name) →
    t.below base (profilesPath v.text ++ [name]) = none

structure Mirrors (l : StoreLayout) (t : FileTree) (base : Path) (m : MemoryStore) : Prop where
  rooted : t.Rooted l.root base
  room : l.versionsFolder.utf8ByteSize ≤ longestPath
  paved : t.Paved base versionsPath
  marker : t.below base (["store"] ++ ["version"]) = some (.file (Json.print formatNode))
  lock : t.below base (["store"] ++ [".lock"]) ≠ some .folder
  held : ∀ v entry, m.versions.get? v = some entry → Holds l t base v entry
  nothing : ∀ name, (∀ v, m.versions.contains v → v.text ≠ name) →
    ∀ names, versionPath name <+: names → t.below base names = none

-- The document that a folder of versions is read by.
def FileStore.readable? (s : FileStore) (e : String × FileEntry) :
    Option VersionDocument :=
  match s.versionDocument? e.1 with
  | .ok found => found
  | .error _ => none

namespace Mirrors

variable {l : StoreLayout} {t : FileTree} {base : Path} {m : MemoryStore} {v : Version} {entry : StoredVersion}
  {id : ProfileId} (mirrors : Mirrors l t base m)

include mirrors

theorem begun : l.root ≠ "" := mirrors.rooted.sayable.1

theorem plain : '\x00' ∉ l.root.toList := mirrors.rooted.sayable.2.plain

theorem reaches_store : t.Reaches l.root base [] "store" :=
  ⟨mirrors.rooted, mirrors.rooted.paved, (fixedNames_proper _ (by simp [fixedNames])).solid,
    fixedNames_fit _ (by simp [fixedNames]), sayable_store mirrors.begun mirrors.plain mirrors.room⟩

theorem reaches_versions : t.Reaches l.root base ["store"] "versions" :=
  ⟨mirrors.rooted, mirrors.paved.front (List.prefix_append ["store"] ["versions"]),
    (fixedNames_proper _ (by simp [fixedNames])).solid, fixedNames_fit _ (by simp [fixedNames]),
    sayable_versions mirrors.begun mirrors.plain mirrors.room⟩

theorem reaches_inStore (known : name ∈ fixedNames) (short : name.utf8ByteSize + 1 ≤ "versions".utf8ByteSize) :
    t.Reaches l.root base ["store"] name :=
  ⟨mirrors.rooted, mirrors.paved.front (List.prefix_append ["store"] ["versions"]),
    (fixedNames_proper _ known).solid, fixedNames_fit _ known,
    sayable_inStore mirrors.begun mirrors.plain mirrors.room known short⟩

theorem reaches_version (admitted : l.Admits v) : t.Reaches l.root base versionsPath v.text :=
  ⟨mirrors.rooted, mirrors.paved, v.text_solid, admitted.fits,
    admitted.sayable_version mirrors.begun mirrors.plain⟩

theorem reaches_document (held : Holds l t base v entry) (known : name ∈ fixedNames) :
    t.Reaches l.root base (versionPath v.text) name :=
  ⟨mirrors.rooted, held.paved.front (List.prefix_append (versionPath v.text) ["profiles"]),
    (fixedNames_proper _ known).solid, fixedNames_fit _ known,
    held.admitted.sayable_document mirrors.begun mirrors.plain known⟩

theorem reaches_profile (held : Holds l t base v entry) (named : Named id) :
    t.Reaches l.root base (profilesPath v.text) (profileFileName id) :=
  ⟨mirrors.rooted, held.paved, profileFileName_solid named.checked, profileFileName_fits named.checked,
    held.admitted.sayable_profile mirrors.begun mirrors.plain named⟩

theorem absent (stored : m.versions.get? v = none) {names : Path} (under : versionPath v.text <+: names) :
    t.below base names = none := by
  refine mirrors.nothing v.text (fun w present same => ?_) names under
  rw [Version.text_injective same, Dict.contains, stored] at present
  cases present

theorem hasVersion (v : Version) : FileStore.hasVersion ⟨l, t⟩ v = m.versions.contains v := by
  unfold FileStore.hasVersion FileStore.contains
  dsimp only
  rw [versionDocument_eq]
  cases stored : m.versions.get? v with
  | none =>
      rw [Dict.contains_false.mpr stored, Bool.eq_false_iff]
      intro found
      have inside := below_of_contains mirrors.rooted (fun name member =>
        (proper_snoc (versionPath_proper v) (fixedNames_proper "version.json" (by simp [fixedNames])) name
          member).solid) found
      rw [mirrors.absent stored (List.prefix_append ..)] at inside
      cases inside
  | some entry =>
      have held := mirrors.held v entry stored
      obtain ⟨now, present⟩ := held.document
      rw [contains_below (mirrors.reaches_document held (by simp [fixedNames])), present,
        Dict.contains_iff.mpr ⟨entry, stored⟩]
      rfl

theorem requireVersion (v : Version) :
    FileStore.requireVersion ⟨l, t⟩ v = (m.stored v).map fun _ => () := by
  unfold FileStore.requireVersion MemoryStore.stored
  rw [mirrors.hasVersion, Dict.contains]
  cases m.versions.get? v <;> rfl

theorem versionDocument?_some (stored : m.versions.get? v = some entry) :
    ∃ now, FileStore.versionDocument? ⟨l, t⟩ v.text = .ok (some ⟨v, entry.attributes, now⟩) := by
  have held := mirrors.held v entry stored
  have known : "version.json" ∈ fixedNames := by simp [fixedNames]
  have reaches := mirrors.reaches_document held known
  obtain ⟨now, present⟩ := held.document
  refine ⟨now, ?_⟩
  unfold FileStore.versionDocument? FileStore.contains FileStore.read
  dsimp only
  rw [versionDocument_eq, contains_below reaches, read_below reaches present, present]
  simp only [Option.isSome_some, if_true, Except.mapError, bind, Except.bind, VersionDocument.read_print]
  rfl

theorem versionDocument?_none (stored : m.versions.get? v = none) :
    FileStore.versionDocument? ⟨l, t⟩ v.text = .ok none := by
  have missing := mirrors.hasVersion v
  rw [Dict.contains_false.mpr stored] at missing
  unfold FileStore.versionDocument?
  exact if_neg (Bool.eq_false_iff.mp missing)

theorem profileIds (stored : m.versions.get? v = some entry) :
    FileStore.profileIds ⟨l, t⟩ v.text = .ok entry.profiles.keys := by
  have held := mirrors.held v entry stored
  have known : "profiles" ∈ fixedNames := by simp [fixedNames]
  have reaches := mirrors.reaches_document held known
  have folder : t.below base (versionPath v.text ++ ["profiles"]) = some .folder := held.paved.folder
  obtain ⟨found, listed, _, members⟩ := list_below reaches folder
  have ids : (KeySet.ofList (found.filterMap FileStore.profileOfFile?)).keys = entry.profiles.keys := by
    refine Dict.keys_congr fun id => ?_
    rw [Dict.contains_ofList, List.mem_filterMap]
    constructor
    · rintro ⟨⟨name, kind⟩, member, picked⟩
      have present := (members _).mp member
      by_cases written : ∃ other, entry.profiles.contains other ∧ profileFileName other = name
      · obtain ⟨other, inside, rfl⟩ := written
        obtain ⟨p, got⟩ := Dict.contains_iff.mp inside
        obtain ⟨named, now, document⟩ := held.written other p got
        cases document.symm.trans present
        rw [profileOfFile?_name named.checked] at picked
        cases picked
        exact inside
      · have nothing := held.others name fun other inside same => written ⟨other, inside, same⟩
        cases nothing.symm.trans present
    · intro inside
      obtain ⟨p, got⟩ := Dict.contains_iff.mp inside
      obtain ⟨named, now, document⟩ := held.written id p got
      exact ⟨_, (members (profileFileName id, _)).mpr document, profileOfFile?_name named.checked _⟩
  unfold FileStore.profileIds FileStore.contains
  dsimp only
  rw [profilesFolder_eq, contains_below reaches, listed, folder]
  simp only [Option.isSome_some, if_true, Except.mapError, bind, Except.bind, ids]
  rfl

theorem version? (v : Version) : FileStore.version? ⟨l, t⟩ v = .ok (m.version? v) := by
  unfold FileStore.version? MemoryStore.version?
  cases stored : m.versions.get? v with
  | none =>
      rw [mirrors.versionDocument?_none stored]
      rfl
  | some entry =>
      obtain ⟨now, document⟩ := mirrors.versionDocument?_some stored
      rw [document, mirrors.profileIds stored]
      rfl

theorem folders {found : List (String × FileEntry)} (once : found.Nodup)
    (members : ∀ e, e ∈ found ↔ t.below base (["store"] ++ ["versions"] ++ [e.1]) = some e.2) :
    (found.filter (fun e => e.2 = .folder)).Perm (m.versions.keys.map fun v => (v.text, .folder)) := by
  refine (List.perm_ext_iff_of_nodup (once.filter _) ((Dict.keys_nodup _).map fun v w same =>
    Version.text_injective (congrArg Prod.fst same))).mpr ?_
  rintro ⟨name, kind⟩
  rw [List.mem_filter, members, List.mem_map, decide_eq_true_eq]
  constructor
  · rintro ⟨present, rfl⟩
    by_cases version : ∃ v, m.versions.contains v ∧ v.text = name
    · obtain ⟨v, inside, rfl⟩ := version
      exact ⟨v, Dict.mem_keys.mpr inside, rfl⟩
    · have nothing := mirrors.nothing name (fun v inside same => version ⟨v, inside, same⟩)
        (["store"] ++ ["versions"] ++ [name]) (List.prefix_refl _)
      cases nothing.symm.trans present
  · rintro ⟨v, member, same⟩
    obtain ⟨entry, got⟩ := Dict.contains_iff.mp (Dict.mem_keys.mp member)
    cases same
    exact ⟨(mirrors.held v entry got).paved.folders _ (List.prefix_append (versionPath v.text) ["profiles"]),
      rfl⟩

theorem documents {vs : List Version} (stored : ∀ v ∈ vs, m.versions.contains v) :
    ((vs.map fun v => (v.text, FileEntry.folder)).filterMap (FileStore.readable? ⟨l, t⟩)).map
      (·.version) = vs := by
  induction vs with
  | nil => rfl
  | cons v rest ih =>
      obtain ⟨entry, got⟩ := Dict.contains_iff.mp (stored v List.mem_cons_self)
      obtain ⟨now, document⟩ := mirrors.versionDocument?_some got
      have readable : FileStore.readable? ⟨l, t⟩ (v.text, .folder) = some ⟨v, entry.attributes, now⟩ := by
        unfold FileStore.readable?
        dsimp only
        rw [document]
      rw [List.map_cons, List.filterMap_cons_some readable, List.map_cons,
        ih fun w later => stored w (.tail _ later)]

theorem versions : FileStore.versions ⟨l, t⟩ = .ok m.versions.keys := by
  have folder : t.below base (["store"] ++ ["versions"]) = some .folder := mirrors.paved.folder
  obtain ⟨found, listed, once, members⟩ := list_below mirrors.reaches_versions folder
  let read := ((found.filter (fun e => e.2 = .folder)).filterMap (FileStore.readable? ⟨l, t⟩)).map (·.version)
  have same : read.Perm m.versions.keys := (((mirrors.folders once members).filterMap _).map _).trans
    (.of_eq (mirrors.documents fun v member => Dict.mem_keys.mp member))
  unfold FileStore.versions FileStore.contains
  dsimp only
  rw [versionsFolder_eq, contains_below mirrors.reaches_versions, listed, folder]
  simp only [Option.isSome_some, if_true, Except.mapError, bind, Except.bind]
  exact congrArg Except.ok (Dict.keys_eq (Dict.mergeSort_sorted read) ((List.mergeSort_perm ..).trans same))

theorem contains_profile (stored : m.versions.get? v = some entry) (checked : checkProfileName id = .ok ()) :
    FileStore.contains ⟨l, t⟩ (FileStore.profilePath ⟨l, t⟩ v id) = entry.profiles.contains id := by
  have held := mirrors.held v entry stored
  unfold FileStore.contains FileStore.profilePath
  dsimp only
  rw [profileFile_eq]
  cases got : entry.profiles.get? id with
  | none =>
      rw [Dict.contains_false.mpr got, Bool.eq_false_iff]
      intro found
      have solid : ∀ name ∈ profilesPath v.text ++ [profileFileName id], Solid name := fun name member => by
        rcases List.mem_append.mp member with old | new
        · exact (profilesPath_proper v name old).solid
        · exact List.mem_singleton.mp new ▸ profileFileName_solid checked
      have inside := below_of_contains mirrors.rooted solid found
      rw [held.others _ fun other present same => ?_] at inside
      · cases inside
      · rw [profileFileName_injective same, Dict.contains, got] at present
        cases present
  | some p =>
      obtain ⟨named, now, present⟩ := held.written id p got
      rw [contains_below (mirrors.reaches_profile held named), present, Dict.contains_iff.mpr ⟨p, got⟩]
      rfl

theorem profile? (v : Version) (checked : checkProfileName id = .ok ()) :
    FileStore.profile? ⟨l, t⟩ v id = m.profile? v id := by
  unfold FileStore.profile? MemoryStore.profile? FileStore.checkName
  rw [mirrors.requireVersion, checked]
  cases stored : m.versions.get? v with
  | none =>
      unfold MemoryStore.stored
      rw [stored]
      rfl
  | some entry =>
      rw [MemoryStore.stored_eq_ok.mpr stored]
      simp only [Except.map, Except.mapError, bind, Except.bind]
      rw [mirrors.contains_profile stored checked, Dict.contains]
      cases got : entry.profiles.get? id with
      | none => rfl
      | some p =>
          have held := mirrors.held v entry stored
          obtain ⟨named, now, present⟩ := held.written id p got
          have text := read_below (mirrors.reaches_profile held named) present
          unfold FileStore.read FileStore.profilePath
          dsimp only
          rw [profileFile_eq, text]
          simp only [Option.isSome_some, if_true, Except.mapError, ProfileDocument.sealed_read,
            ProfileDocument.sealed_open?]
          rfl

end Mirrors

theorem mapM_congr {f g : α → Except ε β} {xs : List α} (same : ∀ x ∈ xs, f x = g x) :
    xs.mapM f = xs.mapM g := by
  induction xs with
  | nil => rfl
  | cons x rest ih =>
      rw [List.mapM_cons, List.mapM_cons, same x List.mem_cons_self, ih fun y later => same y (.tail _ later)]

theorem Mirrors.profiles (mirrors : Mirrors l t base m) (v : Version) :
    (Store.files ⟨l, t⟩).profiles v = (Store.memory m).profiles v := by
  unfold Store.profiles Store.version?
  dsimp only
  rw [mirrors.version?]
  unfold MemoryStore.version?
  cases stored : m.versions.get? v with
  | none => simp only [Option.map_none, bind, Except.bind]
  | some entry =>
      have read : entry.profiles.keys.mapM (fun id => (Store.files ⟨l, t⟩).profile? v id) =
          entry.profiles.keys.mapM (fun id => (Store.memory m).profile? v id) := mapM_congr fun name member => by
        obtain ⟨p, got⟩ := Dict.contains_iff.mp (Dict.mem_keys.mp member)
        exact mirrors.profile? v ((mirrors.held v entry stored).written name p got).1.checked
      simp only [Option.map_some, bind, Except.bind]
      rw [read]

end ContainerProfiles
