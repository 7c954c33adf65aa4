import ContainerProfiles.Proofs.Trees
import ContainerProfiles.Proofs.VersionText
import ContainerProfiles.Store.Files

namespace ContainerProfiles

-- The names below the root of a store on files.

open FileTree

-- Names that lead down and can be looked up.
structure Proper (name : String) : Prop where
  solid : Solid name
  plain : '\x00' ∉ name.toList

theorem plain_pathOf {root : String} (begun : root ≠ "") (plain : '\x00' ∉ root.toList) {names : List String}
    (proper : ∀ name ∈ names, Proper name) : '\x00' ∉ (pathOf root names).toList := by
  induction names generalizing root with
  | nil => exact plain
  | cons name names ih =>
      have first := proper name List.mem_cons_self
      refine ih (joinPath_ne_empty first.solid begun) (fun nul => ?_) fun other member =>
        proper other (.tail _ member)
      rcases mem_joinPath first.solid begun nul with inside | slash | inside
      · exact plain inside
      · exact absurd slash (by decide)
      · exact first.plain inside

theorem sayable_pathOf {root : String} (begun : root ≠ "") (plain : '\x00' ∉ root.toList) {names : List String}
    (proper : ∀ name ∈ names, Proper name) (short : (pathOf root names).utf8ByteSize ≤ longestPath) :
    Sayable (pathOf root names) := ⟨plain_pathOf begun plain proper, short⟩

theorem proper_snoc {names : List String} (proper : ∀ other ∈ names, Proper other) (last : Proper name) :
    ∀ other ∈ names ++ [name], Proper other := by
  intro other member
  rcases List.mem_append.mp member with old | new
  · exact proper other old
  · exact List.mem_singleton.mp new ▸ last

-- One more name costs its length and a slash at most.
theorem size_snoc {root : String} (begun : root ≠ "") {names : List String} (proper : ∀ other ∈ names, Proper other)
    {name : String} (last : Proper name) :
    (pathOf root names).utf8ByteSize + name.utf8ByteSize ≤ (pathOf root (names ++ [name])).utf8ByteSize ∧
      (pathOf root (names ++ [name])).utf8ByteSize ≤
        (pathOf root names).utf8ByteSize + 1 + name.utf8ByteSize := by
  have front := pathOf_ne_empty begun fun other member => (proper other member).solid
  rw [pathOf_snoc]
  exact ⟨le_size_joinPath last.solid front, size_joinPath_le last.solid front⟩

instance (name : String) : Decidable (Solid name) :=
  decidable_of_iff ('/' ∉ name.toList ∧ isIdle name = false ∧ name ≠ "..")
    ⟨fun h => ⟨h.1, h.2.1, h.2.2⟩, fun h => ⟨h.single, h.moves, h.down⟩⟩

theorem Version.text_solid (v : Version) : Solid v.text := by
  obtain ⟨c, cs, spelled, digit⟩ := v.text_head
  have apart : ∀ other : String, (∀ d ∈ other.toList.head?, d.isDigit = false) → v.text ≠ other := by
    intro other ends same
    rw [← same, spelled] at ends
    exact Bool.false_ne_true ((ends c rfl).symm.trans digit)
  refine ⟨fun slash => ?_, ?_, apart ".." (by simp)⟩
  · exact absurd (Version.mem_text slash) (by decide)
  · unfold isIdle
    rw [decide_eq_false (apart "" (by simp)), decide_eq_false (apart "." (by simp))]
    rfl

theorem Version.text_proper (v : Version) : Proper v.text :=
  ⟨v.text_solid, fun nul => absurd (Version.mem_text nul) (by decide)⟩

def profileFileName (id : ProfileId) : String := id ++ ".json"

theorem checkProfileName_ok {id : ProfileId} (checked : checkProfileName id = .ok ()) :
    id ≠ "" ∧ id.utf8ByteSize ≤ 128 ∧ id.toList.head? ≠ some '.' ∧ '/' ∉ id.toList := by
  unfold checkProfileName at checked
  split at checked
  · cases checked
  · rename_i sized
    split at checked
    · cases checked
    · rename_i shaped
      rw [not_or] at sized shaped
      refine ⟨sized.1, Nat.not_lt.mp sized.2, shaped.1, fun slash => shaped.2 ?_⟩
      exact List.any_eq_true.mpr ⟨'/', slash, rfl⟩

theorem profileFileName_toList (id : ProfileId) :
    (profileFileName id).toList = id.toList ++ ".json".toList := String.toList_append

theorem profileFileName_injective {id other : ProfileId}
    (same : profileFileName id = profileFileName other) : id = other := by
  have spelled := congrArg String.toList same
  rw [profileFileName_toList, profileFileName_toList] at spelled
  exact String.toList_inj.mp (List.append_cancel_right spelled)

theorem profileFileName_solid {id : ProfileId} (checked : checkProfileName id = .ok ()) :
    Solid (profileFileName id) := by
  obtain ⟨_, _, _, single⟩ := checkProfileName_ok checked
  have long : ∀ other : String, other.toList.length < 5 → profileFileName id ≠ other := by
    rintro other short rfl
    rw [profileFileName_toList, List.length_append] at short
    have five : ".json".toList.length = 5 := rfl
    omega
  refine ⟨fun slash => ?_, ?_, long ".." (by decide)⟩
  · rw [profileFileName_toList, List.mem_append] at slash
    rcases slash with inside | inside
    · exact single inside
    · exact absurd inside (by decide)
  · unfold isIdle
    rw [decide_eq_false (long "" (by decide)), decide_eq_false (long "." (by decide))]
    rfl

theorem profileFileName_size {id : ProfileId} (checked : checkProfileName id = .ok ()) :
    (profileFileName id).utf8ByteSize ≤ 133 := by
  obtain ⟨_, short, _, _⟩ := checkProfileName_ok checked
  have five : ".json".utf8ByteSize = 5 := rfl
  unfold profileFileName
  rw [String.utf8ByteSize_append, five]
  omega

theorem profileFileName_fits {id : ProfileId} (checked : checkProfileName id = .ok ()) :
    nameFits (profileFileName id) := by
  have size := profileFileName_size checked
  unfold nameFits longestName
  exact decide_eq_true (by omega)

theorem profileOfFile?_name {id : ProfileId} (checked : checkProfileName id = .ok ()) (content : String) :
    FileStore.profileOfFile? (profileFileName id, .file content) = some id := by
  obtain ⟨_, _, seen, _⟩ := checkProfileName_ok checked
  have size : (profileFileName id).toList.length - 5 = id.toList.length := by
    rw [profileFileName_toList, List.length_append]
    exact Nat.add_sub_cancel ..
  have stem : (profileFileName id).toList.take id.toList.length = id.toList := by
    rw [profileFileName_toList, List.take_left]
  have ending : ".json".toList.isSuffixOf (profileFileName id).toList := by
    rw [profileFileName_toList, List.isSuffixOf_iff_suffix]
    exact List.suffix_append ..
  unfold FileStore.profileOfFile?
  dsimp only
  rw [if_pos ending, size, stem, String.ofList_toList, if_neg seen]

theorem FileStore.named_ok {s : FileStore} {id : ProfileId} (checked : checkProfileName id = .ok ())
    (step : Except StoreError Unit × FileStore) : s.named id step = step := by
  unfold named checkName
  rw [checked]
  rfl

-- A name that is refused ends an operation before it has begun.
theorem FileStore.named_error {s : FileStore} {id : ProfileId} (refused : checkProfileName id = .error fault)
    (step : Except StoreError Unit × FileStore) : s.named id step = (.error (.invalidName id fault), s) := by
  unfold named checkName
  rw [refused]
  rfl

-- Names that can be given to files.
structure Named (id : ProfileId) : Prop where
  checked : checkProfileName id = .ok ()
  plain : '\x00' ∉ id.toList

theorem Named.proper {id : ProfileId} (named : Named id) : Proper (profileFileName id) := by
  refine ⟨profileFileName_solid named.checked, ?_⟩
  rw [profileFileName_toList, List.mem_append]
  rintro (inside | inside)
  · exact named.plain inside
  · exact absurd inside (by decide)

namespace StoreLayout

def versionsPath : Path := ["store", "versions"]
def versionPath (version : String) : Path := versionsPath ++ [version]
def profilesPath (version : String) : Path := versionPath version ++ ["profiles"]

section Paths

variable (l : StoreLayout) (version : String)

theorem storeFolder_eq : l.storeFolder = pathOf l.root ([] ++ ["store"]) := rfl

theorem lockFile_eq : l.lockFile = pathOf l.root (["store"] ++ [".lock"]) := rfl

theorem formatMarker_eq : l.formatMarker = pathOf l.root (["store"] ++ ["version"]) := rfl

theorem versionsFolder_eq : l.versionsFolder = pathOf l.root (["store"] ++ ["versions"]) := rfl

theorem versionFolder_eq : l.versionFolder version = pathOf l.root (versionsPath ++ [version]) := rfl

theorem versionDocument_eq :
    l.versionDocument version = pathOf l.root (versionPath version ++ ["version.json"]) := rfl

theorem profilesFolder_eq :
    l.profilesFolder version = pathOf l.root (versionPath version ++ ["profiles"]) := rfl

theorem profileFile_eq (id : ProfileId) :
    l.profileFile version id = pathOf l.root (profilesPath version ++ [profileFileName id]) := rfl

end Paths

def fixedNames : List String := ["store", "versions", "version", ".lock", "version.json", "profiles"]

theorem fixedNames_proper : ∀ name ∈ fixedNames, Proper name := by
  have all : ∀ name ∈ fixedNames, Solid name ∧ '\x00' ∉ name.toList := by decide +kernel
  exact fun name known => ⟨(all name known).1, (all name known).2⟩

theorem fixedNames_fit : ∀ name ∈ fixedNames, nameFits name := by decide +kernel

theorem fixedNames_size : ∀ name ∈ fixedNames, name.utf8ByteSize ≤ 12 := by decide +kernel

theorem versionsPath_proper : ∀ name ∈ versionsPath, Proper name := fun name member =>
  fixedNames_proper name (by rcases List.mem_pair.mp member with rfl | rfl <;> simp [fixedNames])

theorem versionPath_proper (v : Version) : ∀ name ∈ versionPath v.text, Proper name :=
  proper_snoc versionsPath_proper v.text_proper

theorem profilesPath_proper (v : Version) : ∀ name ∈ profilesPath v.text, Proper name :=
  proper_snoc (versionPath_proper v) (fixedNames_proper _ (by simp [fixedNames]))

-- There is room for the folder of the version and for every profile in it.
structure Admits (l : StoreLayout) (v : Version) : Prop where
  fits : nameFits v.text
  room : (l.profilesFolder v.text).utf8ByteSize + 134 ≤ longestPath

section Sayable

variable {l : StoreLayout} {v : Version} (begun : l.root ≠ "") (plain : '\x00' ∉ l.root.toList)

include begun plain

theorem Admits.sayable_version (admitted : l.Admits v) :
    Sayable (pathOf l.root (versionsPath ++ [v.text])) := by
  have size := size_snoc begun (versionPath_proper v) (fixedNames_proper "profiles" (by simp [fixedNames]))
  have room := admitted.room
  rw [profilesFolder_eq] at room
  exact sayable_pathOf begun plain (versionPath_proper v) (by unfold versionPath at *; omega)

-- A document right in the folder of a version.
theorem Admits.sayable_document (admitted : l.Admits v) (known : name ∈ fixedNames) :
    Sayable (pathOf l.root (versionPath v.text ++ [name])) := by
  have last := fixedNames_proper name known
  have above := size_snoc begun (versionPath_proper v) (fixedNames_proper "profiles" (by simp [fixedNames]))
  have size := size_snoc begun (versionPath_proper v) last
  have short := fixedNames_size name known
  have room := admitted.room
  rw [profilesFolder_eq] at room
  exact sayable_pathOf begun plain (proper_snoc (versionPath_proper v) last) (by omega)

theorem Admits.sayable_profile (admitted : l.Admits v) {id : ProfileId} (named : Named id) :
    Sayable (pathOf l.root (profilesPath v.text ++ [profileFileName id])) := by
  have size := size_snoc begun (profilesPath_proper v) named.proper
  have name := profileFileName_size named.checked
  have room := admitted.room
  rw [profilesFolder_eq, ← profilesPath] at room
  exact sayable_pathOf begun plain (proper_snoc (profilesPath_proper v) named.proper) (by omega)

-- The folder of all versions has the longest name of what stands right in the store.
theorem sayable_inStore (room : l.versionsFolder.utf8ByteSize ≤ longestPath) (known : name ∈ fixedNames)
    (short : name.utf8ByteSize + 1 ≤ "versions".utf8ByteSize) :
    Sayable (pathOf l.root (["store"] ++ [name])) := by
  have store : ∀ other ∈ ["store"], Proper other := fun other member =>
    fixedNames_proper other (List.mem_singleton.mp member ▸ by simp [fixedNames])
  have last := fixedNames_proper name known
  have above := size_snoc begun store (fixedNames_proper "versions" (by simp [fixedNames]))
  have size := size_snoc begun store last
  rw [versionsFolder_eq] at room
  exact sayable_pathOf begun plain (proper_snoc store last) (by omega)

theorem sayable_versions (room : l.versionsFolder.utf8ByteSize ≤ longestPath) :
    Sayable (pathOf l.root (["store"] ++ ["versions"])) := by
  rw [versionsFolder_eq] at room
  exact sayable_pathOf begun plain versionsPath_proper room

theorem sayable_store (room : l.versionsFolder.utf8ByteSize ≤ longestPath) :
    Sayable (pathOf l.root ([] ++ ["store"])) := by
  have versions := sayable_versions begun plain room
  rw [pathOf_snoc] at versions
  refine versions.front (fixedNames_proper "versions" (by simp [fixedNames])).solid ?_
  exact pathOf_ne_empty begun fun other member =>
    (fixedNames_proper other (List.mem_singleton.mp member ▸ by simp [fixedNames])).solid

end Sayable
end StoreLayout
end ContainerProfiles
