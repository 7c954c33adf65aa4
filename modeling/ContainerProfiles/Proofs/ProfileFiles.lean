import ContainerProfiles.Proofs.Litter
import ContainerProfiles.Store.Operation

namespace ContainerProfiles

-- Profiles and their files. A name that is accepted gives a file right in the folder of its version, whatever the
-- root is, and no other profile of any version has that file.

open FileTree

theorem Stray.passed (stray : Stray name) (content : String) :
    FileStore.profileOfFile? (name, .file content) = none := by
  unfold FileStore.profileOfFile?
  dsimp only
  rcases stray with other | ⟨hidden, short⟩
  · rw [if_neg fun ending => other (List.isSuffixOf_iff_suffix.mp ending)]
  · split
    · rename_i ending
      obtain ⟨id, spelled⟩ := List.isSuffixOf_iff_suffix.mp ending
      have kept : name.toList.take (name.toList.length - 5) = id := by
        have five : ".json".toList.length = 5 := rfl
        rw [← spelled, List.length_append, five, Nat.add_sub_cancel, List.take_left]
      have first : id.head? = some '.' := by
        cases id with
        | nil => exact absurd (String.toList_inj.mp spelled.symm) short
        | cons c cs =>
            rw [← spelled] at hidden
            exact hidden
      rw [kept, String.toList_ofList, if_pos first]
    · rfl

-- A file that is to take another name later has one like this.
theorem stray_temporary (rest : String) : Stray (".tmp" ++ rest) := by
  refine .inr ⟨by simp [String.toList_append], fun same => ?_⟩
  have spelled := congrArg String.toList same
  simp [String.toList_append] at spelled

theorem not_stray {id : ProfileId} (checked : checkProfileName id = .ok ()) : ¬ Stray (profileFileName id) := by
  intro stray
  have passed := stray.passed ""
  rw [profileOfFile?_name checked] at passed
  cases passed

-- The names by which paths are compared, however they are set apart.
def components (path : String) : List String := (Text.pieces '/' path).filter (fun name => !isIdle name)

theorem components_stem (path : String) : components path = (stem path).filter (fun name => !isIdle name) := by
  unfold components stem
  split
  · rename_i slashed
    obtain ⟨cs, same⟩ := List.getLast?_eq_some_iff.mp slashed
    have spelled : path = String.ofList (cs ++ ['/']) := by rw [← same, String.ofList_toList]
    rw [spelled, pieces_snoc_slash, List.dropLast_concat, List.filter_append]
    exact List.append_nil _
  · rfl

theorem components_joinPath (solid : Solid name) (begun : path ≠ "") :
    components (joinPath path name) = components path ++ [name] := by
  have moves : (!isIdle name) = true := by simp [solid.moves]
  rw [components_stem path]
  unfold components
  rw [pieces_joinPath solid begun, List.filter_append, List.filter_singleton, moves]
  rfl

theorem components_pathOf (begun : root ≠ "") {names : List String} (solid : ∀ name ∈ names, Solid name) :
    components (pathOf root names) = components root ++ names := by
  induction names using List.reverseRecOn with
  | nil => exact (List.append_nil _).symm
  | append_singleton names name ih =>
      have front : ∀ other ∈ names, Solid other := fun other member => solid other (List.mem_append_left _ member)
      have last := solid name (List.mem_append_right _ (List.mem_singleton_self _))
      rw [pathOf_snoc, components_joinPath last (pathOf_ne_empty begun front), ih front, List.append_assoc]

namespace StoreLayout

variable {l : StoreLayout} {v w : Version} {id other : ProfileId} {t : FileTree} {folder place : Path}

-- The names from the folder of a store down to that of the profiles of a version.
def profileNames (v : Version) : Path := ["versions", v.text, "profiles"]

theorem profilesFolder_names (l : StoreLayout) (v : Version) :
    l.profilesFolder v.text = pathOf l.storeFolder (profileNames v) := by
  unfold profilesFolder versionFolder versionsFolder pathOf profileNames
  rw [List.foldl_cons, List.foldl_cons, List.foldl_cons, List.foldl_nil]

theorem profileFile_names (l : StoreLayout) (v : Version) (id : ProfileId) :
    l.profileFile v.text id = pathOf l.storeFolder (profileNames v ++ [profileFileName id]) := by
  rw [pathOf_snoc, ← profilesFolder_names]
  rfl

theorem profileNames_solid (v : Version) : ∀ name ∈ profileNames v, Solid name := by
  have versions : Solid "versions" := (fixedNames_proper _ (by simp [fixedNames])).solid
  have profiles : Solid "profiles" := (fixedNames_proper _ (by simp [fixedNames])).solid
  simp [profileNames, versions, profiles, v.text_solid]

theorem versionFolder_begun (l : StoreLayout) (v : Version) : l.versionFolder v.text ≠ "" := by
  have versions := joinPath_ne_empty (profileNames_solid v "versions" (by simp [profileNames])) l.storeFolder_ne_empty
  exact joinPath_ne_empty v.text_solid versions

theorem versionFolder_last (l : StoreLayout) (v : Version) : (l.versionFolder v.text).toList.getLast? ≠ some '/' := by
  have versions := joinPath_ne_empty (profileNames_solid v "versions" (by simp [profileNames])) l.storeFolder_ne_empty
  exact joinPath_last v.text_solid versions

theorem profilesFolder_begun (l : StoreLayout) (v : Version) : l.profilesFolder v.text ≠ "" :=
  joinPath_ne_empty (profileNames_solid v "profiles" (by simp [profileNames])) (l.versionFolder_begun v)

theorem profilesFolder_last (l : StoreLayout) (v : Version) : (l.profilesFolder v.text).toList.getLast? ≠ some '/' :=
  joinPath_last (profileNames_solid v "profiles" (by simp [profileNames])) (l.versionFolder_begun v)

-- The file of a profile is written and looked up right in the folder of its version,
theorem profileFile_target (checked : checkProfileName id = .ok ())
    (aimed : t.target (l.profileFile v.text id) = .ok place) :
    ∃ folder, t.locate (l.profilesFolder v.text) = .ok (folder, .folder) ∧ place = folder ++ [profileFileName id] ∧
      t.entries.get? place ≠ some .folder :=
  target_joinPath (profileFileName_solid checked) (l.profilesFolder_begun v) (l.profilesFolder_last v) aimed

theorem profileFile_locate {entry : FileEntry} (checked : checkProfileName id = .ok ())
    (found : t.locate (l.profileFile v.text id) = .ok (place, entry)) :
    ∃ folder, t.locate (l.profilesFolder v.text) = .ok (folder, .folder) ∧ place = folder ++ [profileFileName id] ∧
      t.entries.get? place = some entry :=
  locate_joinPath (profileFileName_solid checked) (l.profilesFolder_begun v) (l.profilesFolder_last v) found

theorem versionDocument_target (aimed : t.target (l.versionDocument v.text) = .ok place) :
    ∃ folder, t.locate (l.versionFolder v.text) = .ok (folder, .folder) ∧ place = folder ++ ["version.json"] ∧
      t.entries.get? place ≠ some .folder := by
  have solid : Solid "version.json" := (fixedNames_proper _ (by simp [fixedNames])).solid
  exact target_joinPath solid (l.versionFolder_begun v) (l.versionFolder_last v) aimed

-- and every version has a folder of its own.
theorem profilesFolder_locate (found : t.locate (l.profilesFolder v.text) = .ok (folder, .folder)) :
    ∃ base, t.trail l.storeFolder = .ok base ∧ folder = base ++ profileNames v := by
  rw [profilesFolder_names] at found
  exact trail_pathOf l.storeFolder_ne_empty (profileNames_solid v) (trail_of_locate found).1

theorem version_of_folder (one : t.locate (l.profilesFolder v.text) = .ok (folder, .folder))
    (two : t.locate (l.profilesFolder w.text) = .ok (folder, .folder)) : v = w := by
  obtain ⟨base, begun, here⟩ := profilesFolder_locate one
  obtain ⟨base', begun', there⟩ := profilesFolder_locate two
  cases begun.symm.trans begun'
  have same := List.append_cancel_left (here.symm.trans there)
  simp only [profileNames, List.cons.injEq, and_true, true_and] at same
  exact Version.text_injective same

-- A folder of profiles is two names below the one that the folders of versions are in.
theorem versionFolder_apart (above : t.locate (l.versionFolder w.text) = .ok (folder, .folder))
    (found : t.locate (l.profilesFolder v.text) = .ok (folder, .folder)) : False := by
  obtain ⟨base, begun, here⟩ := profilesFolder_locate found
  have names : l.versionFolder w.text = pathOf l.storeFolder ["versions", w.text] := by
    unfold versionFolder versionsFolder pathOf
    rw [List.foldl_cons, List.foldl_cons, List.foldl_nil]
  have solid : ∀ name ∈ ["versions", w.text], Solid name := fun name member =>
    profileNames_solid w name (by simp only [profileNames, List.mem_cons] at member ⊢; grind)
  rw [names] at above
  obtain ⟨base', begun', there⟩ := trail_pathOf l.storeFolder_ne_empty solid (trail_of_locate above).1
  cases begun.symm.trans begun'
  have same := List.append_cancel_left (here.symm.trans there)
  simp [profileNames] at same

theorem profileFile_spelled (checked : checkProfileName id = .ok ()) (l : StoreLayout) (v : Version) :
    l.profileFile v.text id = l.profilesFolder v.text ++ "/" ++ profileFileName id := by
  refine (joinPath_solid (profileFileName_solid checked) (l.profilesFolder_begun v)).trans ?_
  exact if_neg (l.profilesFolder_last v)

theorem profileFile_injective (checked : checkProfileName id = .ok ()) (checked' : checkProfileName other = .ok ())
    (same : components (l.profileFile v.text id) = components (l.profileFile w.text other)) : v = w ∧ id = other := by
  have parts : ∀ (v : Version) {id : ProfileId}, checkProfileName id = .ok () →
      components (l.profileFile v.text id) = components l.storeFolder ++ (profileNames v ++ [profileFileName id]) := by
    intro v id checked
    rw [profileFile_names]
    apply components_pathOf l.storeFolder_ne_empty
    exact List.forall_mem_append.mpr ⟨profileNames_solid v,
      List.forall_mem_singleton.mpr (profileFileName_solid checked)⟩
  rw [parts v checked, parts w checked'] at same
  have names := List.append_cancel_left same
  simp only [profileNames, List.cons_append, List.nil_append, List.cons.injEq, and_true, true_and] at names
  exact ⟨Version.text_injective names.1, profileFileName_injective names.2⟩

end StoreLayout

-- The folder of the version is there, with a file for each of the names and strays besides.
structure Stocks (l : StoreLayout) (v : Version) (folder : Path) (t : FileTree) (ids : KeySet ProfileId) : Prop where
  there : t.locate (l.profilesFolder v.text) = .ok (folder, .folder)
  stored : ∀ id, ids.contains id → checkProfileName id = .ok () ∧
    ∃ content, t.entries.get? (folder ++ [profileFileName id]) = some (.file content)
  others : ∀ name content, t.entries.get? (folder ++ [name]) = some (.file content) →
    (∃ id, ids.contains id ∧ name = profileFileName id) ∨ Stray name

namespace Stocks

variable {l : StoreLayout} {v w : Version} {folder place : Path} {t u : FileTree} {ids : KeySet ProfileId}
  {id : ProfileId} (stocks : Stocks l v folder t ids)

include stocks

theorem profileIds : FileStore.profileIds ⟨l, t⟩ v.text = .ok ids.keys := by
  have same : (KeySet.ofList ((t.entries.entries.filterMap (childOf? folder)).filterMap
      FileStore.profileOfFile?)).keys = ids.keys := by
    refine Dict.keys_congr fun id => ?_
    rw [Dict.contains_ofList, List.mem_filterMap]
    constructor
    · rintro ⟨⟨name, entry⟩, member, picked⟩
      have here := mem_children.mp member
      cases entry with
      | folder => cases picked
      | file content =>
          rcases stocks.others name content here with ⟨other, inside, rfl⟩ | stray
          · rw [profileOfFile?_name (stocks.stored other inside).1] at picked
            cases picked
            exact inside
          · rw [stray.passed] at picked
            cases picked
    · intro inside
      obtain ⟨checked, content, here⟩ := stocks.stored id inside
      exact ⟨_, mem_children.mpr here, profileOfFile?_name checked content⟩
  have present : FileStore.contains ⟨l, t⟩ (l.profilesFolder v.text) := by
    unfold FileStore.contains FileTree.contains
    dsimp only
    rw [stocks.there]
    rfl
  unfold FileStore.profileIds
  rw [if_pos present, list_of_locate stocks.there]
  exact congrArg Except.ok same

-- Whatever else comes and goes in the folder.
theorem around (there : u.locate (l.profilesFolder v.text) = .ok (folder, .folder))
    (same : ∀ name, ¬ Stray name → ∀ content, u.entries.get? (folder ++ [name]) = some (.file content) ↔
      t.entries.get? (folder ++ [name]) = some (.file content)) : Stocks l v folder u ids := by
  refine ⟨there, fun id inside => ?_, fun name content here => ?_⟩
  · obtain ⟨checked, content, here⟩ := stocks.stored id inside
    exact ⟨checked, content, (same _ (not_stray checked) content).mpr here⟩
  · by_cases stray : Stray name
    · exact .inr stray
    · exact stocks.others name content ((same name stray content).mp here)

theorem litters (litters : t.Litters u) : Stocks l v folder u ids := by
  apply stocks.around (litters.standing.locate stocks.there)
  intro name own content
  constructor
  · intro here
    rcases litters.new _ _ here with old | isFolder | ⟨other, last, same, stray⟩
    · exact old
    · cases isFolder
    · obtain ⟨_, names⟩ := List.append_inj' same rfl
      exact absurd (List.singleton_inj.mp names ▸ stray) own
  · exact litters.kept _ _

-- A file that is written or removed somewhere else.
theorem put_aside (file : t.entries.get? place ≠ some .folder) (aside : ∀ name, place ≠ folder ++ [name])
    (content : String) : Stocks l v folder (t.put place (.file content)) ids := by
  apply stocks.around ((standing_put file _).locate stocks.there)
  intro name _ content'
  unfold FileTree.put
  rw [Dict.get?_insert, if_neg (aside name).symm]

theorem erase_aside (file : t.entries.get? place ≠ some .folder) (aside : ∀ name, place ≠ folder ++ [name]) :
    Stocks l v folder { t with entries := t.entries.erase place } ids := by
  apply stocks.around ((standing_erase file).locate stocks.there)
  intro name _ content'
  rw [Dict.get?_erase, if_neg (aside name).symm]

theorem put (checked : checkProfileName id = .ok ())
    (file : t.entries.get? (folder ++ [profileFileName id]) ≠ some .folder) (content : String) :
    Stocks l v folder (t.put (folder ++ [profileFileName id]) (.file content)) (ids.add id) := by
  have entries : ∀ name, (t.put (folder ++ [profileFileName id]) (.file content)).entries.get? (folder ++ [name]) =
      if name = profileFileName id then some (.file content) else t.entries.get? (folder ++ [name]) := by
    intro name
    unfold FileTree.put
    rw [Dict.get?_insert]
    simp
  refine ⟨(standing_put file _).locate stocks.there, fun other inside => ?_, fun name content' here => ?_⟩
  · rw [entries]
    rcases Dict.contains_insert.mp inside with rfl | old
    · exact ⟨checked, content, if_pos rfl⟩
    · obtain ⟨accepted, content', here⟩ := stocks.stored other old
      refine ⟨accepted, ?_⟩
      split
      · exact ⟨content, rfl⟩
      · exact ⟨content', here⟩
  · rw [entries] at here
    split at here
    · exact .inl ⟨id, Dict.contains_insert.mpr (.inl rfl), ‹_›⟩
    · refine (stocks.others name content' here).imp_left ?_
      rintro ⟨other, inside, same⟩
      exact ⟨other, Dict.contains_insert.mpr (.inr inside), same⟩

theorem erase (file : t.entries.get? (folder ++ [profileFileName id]) ≠ some .folder) :
    Stocks l v folder { t with entries := t.entries.erase (folder ++ [profileFileName id]) } (ids.erase id) := by
  refine ⟨(standing_erase file).locate stocks.there, fun other inside => ?_, fun name content here => ?_⟩
  · obtain ⟨different, old⟩ := Dict.contains_erase.mp inside
    obtain ⟨checked, content, here⟩ := stocks.stored other old
    refine ⟨checked, content, ?_⟩
    rw [Dict.get?_erase, if_neg, here]
    intro same
    obtain ⟨_, names⟩ := List.append_inj' same rfl
    exact different (profileFileName_injective (List.singleton_inj.mp names))
  · rw [Dict.get?_erase] at here
    split at here
    · cases here
    · rename_i apart
      refine (stocks.others name content here).imp_left ?_
      rintro ⟨other, inside, rfl⟩
      exact ⟨other, Dict.contains_erase.mpr ⟨fun same => apart (same ▸ rfl), inside⟩, rfl⟩

-- The files of another version are in another folder.
theorem same (other : t.locate (l.profilesFolder v.text) = .ok (away, .folder)) : away = folder :=
  congrArg Prod.fst (Except.ok.inj (other.symm.trans stocks.there))

theorem apart (different : w ≠ v) (other : t.locate (l.profilesFolder w.text) = .ok (away, .folder))
    (name last : String) : away ++ [name] ≠ folder ++ [last] := by
  intro same
  obtain ⟨rfl, _⟩ := List.append_inj' same rfl
  exact different (StoreLayout.version_of_folder other stocks.there)

theorem writes (written : FileStore.WritesProfile l w id t u) :
    Stocks l v folder u (if w = v then ids.add id else ids) := by
  obtain ⟨checked, place, content, aimed, rfl⟩ := written
  obtain ⟨away, found, rfl, file⟩ := StoreLayout.profileFile_target checked aimed
  by_cases own : w = v
  · subst own
    obtain rfl := stocks.same found
    rw [if_pos rfl]
    exact stocks.put checked file content
  · rw [if_neg own]
    exact stocks.put_aside file (stocks.apart own found _) content

theorem removes (removed : FileStore.RemovesProfile l w id t u) :
    Stocks l v folder u (if w = v then ids.erase id else ids) := by
  obtain ⟨checked, place, content, located, rfl⟩ := removed
  obtain ⟨away, found, rfl, here⟩ := StoreLayout.profileFile_locate checked located
  by_cases own : w = v
  · subst own
    obtain rfl := stocks.same found
    rw [if_pos rfl]
    exact stocks.erase (by simp [here])
  · rw [if_neg own]
    exact stocks.erase_aside (by simp [here]) (stocks.apart own found _)

-- The document of a version is above its folder of profiles.
theorem documents (written : FileStore.Writes (l.versionDocument w.text) t u) : Stocks l v folder u ids := by
  obtain ⟨place, content, aimed, rfl⟩ := written
  obtain ⟨above, found, rfl, file⟩ := StoreLayout.versionDocument_target aimed
  apply stocks.put_aside file
  intro name same
  obtain ⟨rfl, _⟩ := List.append_inj' same rfl
  exact StoreLayout.versionFolder_apart found stocks.there

theorem ends {out : Except StoreError Unit × FileStore} {done : FileTree → FileTree → Prop} {after : KeySet ProfileId}
    (act : ∀ t u, Stocks l v folder t ids → done t u → Stocks l v folder u after)
    (ends : FileStore.Ends l done t out) : ∃ answer u, Store.writing (Store.onFiles out) = (answer, .files ⟨l, u⟩) ∧
      Stocks l v folder u (if answer.toBool then after else ids) := by
  cases ends with
  | failed e left => exact ⟨_, _, rfl, stocks.litters left⟩
  | done left acted => exact ⟨_, _, rfl, act _ _ (stocks.litters left) acted⟩

end Stocks

-- The names in a version after an operation that succeeds.
def StoreOperation.names (v : Version) (ids : KeySet ProfileId) : StoreOperation → KeySet ProfileId
  | .addProfile p | .updateProfile p => if p.version = v then ids.add p.identity else ids
  | .removeProfile w id => if w = v then ids.erase id else ids
  | _ => ids

-- What comes of a version, and its names, while the store is used and other entries come and go.
inductive Upkeep (l : StoreLayout) (v : Version) (folder : Path) : FileTree → KeySet ProfileId → Prop
  | found : Stocks l v folder t ids → Upkeep l v folder t ids
  | performed (now : String) : Upkeep l v folder t ids → (∀ w, op ≠ .removeVersion w) →
      (Store.files ⟨l, t⟩).perform now op = (answer, .files ⟨l, u⟩) →
      Upkeep l v folder u (if answer.toBool then op.names v ids else ids)
  | around : Upkeep l v folder t ids → u.locate (l.profilesFolder v.text) = .ok (folder, .folder) →
      (∀ name, ¬ Stray name → ∀ content, u.entries.get? (folder ++ [name]) = some (.file content) ↔
        t.entries.get? (folder ++ [name]) = some (.file content)) → Upkeep l v folder u ids

-- Whatever is asked of the store but to remove a version.
theorem Stocks.perform {l : StoreLayout} {folder : Path} {t : FileTree} {ids : KeySet ProfileId}
    (stocks : Stocks l v folder t ids) (now : String) {op : StoreOperation} (kept : ∀ w, op ≠ .removeVersion w) :
    ∃ answer u, (Store.files ⟨l, t⟩).perform now op = (answer, .files ⟨l, u⟩) ∧
      Stocks l v folder u (if answer.toBool then op.names v ids else ids) := by
  cases op with
  | versions | version | profile | profiles => exact ⟨_, t, rfl, (ite_self ids).symm ▸ stocks⟩
  | removeVersion w => exact absurd rfl (kept w)
  | addVersion w attributes =>
      exact stocks.ends (fun _ _ still => still.documents) (FileStore.ends_addVersion now w attributes)
  | addProfile p => exact stocks.ends (fun _ _ still => still.writes) (FileStore.ends_addProfile now p)
  | updateProfile p => exact stocks.ends (fun _ _ still => still.writes) (FileStore.ends_updateProfile now p)
  | removeProfile w id => exact stocks.ends (fun _ _ still => still.removes) (FileStore.ends_removeProfile w id)

theorem Upkeep.stocks {l : StoreLayout} {folder : Path} {t : FileTree} {ids : KeySet ProfileId}
    (upkeep : Upkeep l v folder t ids) : Stocks l v folder t ids := by
  induction upkeep with
  | found stocks => exact stocks
  | performed now _ kept asked ih =>
      obtain ⟨answer, u, same, still⟩ := ih.perform now kept
      cases asked.symm.trans same
      exact still
  | around _ there same ih => exact ih.around there same

structure Confines (l : StoreLayout) : Prop where
  refused : ∀ id fault, checkProfileName id = .error fault → ∀ (t : FileTree) now v (p : Profile), p.identity = id →
    let s : FileStore := ⟨l, t⟩
    s.addProfile now p = (.error (.invalidName id fault), s) ∧
    s.updateProfile now p = (.error (.invalidName id fault), s) ∧
    s.removeProfile v id = (.error (.invalidName id fault), s)
  -- A name in the folder of the version, as a text
  child : ∀ (v : Version) id, checkProfileName id = .ok () → Solid (profileFileName id) ∧
    l.profileFile v.text id = l.profilesFolder v.text ++ "/" ++ profileFileName id
  -- and in every tree, wherever the root leads there.
  written : ∀ (v : Version) id, checkProfileName id = .ok () → ∀ (t : FileTree) place,
    t.target (l.profileFile v.text id) = .ok place →
    ∃ folder, t.locate (l.profilesFolder v.text) = .ok (folder, .folder) ∧ place = folder ++ [profileFileName id]
  found : ∀ (v : Version) id, checkProfileName id = .ok () → ∀ (t : FileTree) place entry,
    t.locate (l.profileFile v.text id) = .ok (place, entry) →
    ∃ folder, t.locate (l.profilesFolder v.text) = .ok (folder, .folder) ∧ place = folder ++ [profileFileName id]
  apart : ∀ (v w : Version) id other, checkProfileName id = .ok () → checkProfileName other = .ok () →
    components (l.profileFile v.text id) = components (l.profileFile w.text other) → v = w ∧ id = other
  -- The names that are stored are listed, whatever is interrupted or stands in between.
  listed : ∀ v folder t ids, Stocks l v folder t ids → FileStore.profileIds ⟨l, t⟩ v.text = .ok ids.keys
  interrupted : ∀ rest, Stray (".tmp" ++ rest)
  upheld : ∀ v folder t ids, Upkeep l v folder t ids → Stocks l v folder t ids

theorem StoreLayout.confines (l : StoreLayout) : Confines l where
  refused := by
    rintro _ fault refused t now v p rfl
    exact ⟨FileStore.named_error refused _, FileStore.named_error refused _, FileStore.named_error refused _⟩
  child v _ checked := ⟨profileFileName_solid checked, profileFile_spelled checked l v⟩
  written v id checked t place aimed := by
    obtain ⟨folder, there, same, _⟩ := profileFile_target checked aimed
    exact ⟨folder, there, same⟩
  found v id checked t place entry located := by
    obtain ⟨folder, there, same, _⟩ := profileFile_locate checked located
    exact ⟨folder, there, same⟩
  apart _ _ _ _ checked checked' := profileFile_injective checked checked'
  listed _ _ _ _ := Stocks.profileIds
  interrupted := stray_temporary
  upheld _ _ _ _ := Upkeep.stocks

def cluttered : FileTree where
  entries := ⟨[(["store"], .folder), (["store", "versions"], .folder), (["store", "versions", "1.0.0"], .folder),
    (["store", "versions", "1.0.0", "profiles"], .folder),
    (["store", "versions", "1.0.0", "profiles", ".tmpAb12Cd"], .file ""),
    (["store", "versions", "1.0.0", "profiles", "a.json.json"], .file ""),
    (["store", "versions", "1.0.0", "profiles", "b..c.json"], .file ""),
    (["store", "versions", "1.0.0", "profiles", "d.json"], .folder)], by decide +kernel⟩

theorem cluttered_stocks :
    Stocks ⟨""⟩ .first (StoreLayout.profilesPath "1.0.0") cluttered (.ofList ["a.json", "b..c"]) where
  there := by decide +kernel
  stored := by
    have both : ∀ id ∈ ["a.json", "b..c"], checkProfileName id = .ok () ∧
        cluttered.entries.get? (StoreLayout.profilesPath "1.0.0" ++ [profileFileName id]) = some (.file "") := by
      decide +kernel
    intro id inside
    obtain ⟨checked, here⟩ := both id (Dict.contains_ofList.mp inside)
    exact ⟨checked, "", here⟩
  others := by
    intro name content here
    have member : (StoreLayout.profilesPath "1.0.0" ++ [name], FileEntry.file content) ∈ cluttered.entries.entries :=
      Dict.mem_entries.mpr here
    simp [cluttered, StoreLayout.profilesPath, StoreLayout.versionPath, StoreLayout.versionsPath] at member
    rcases member with ⟨rfl, _⟩ | ⟨rfl, _⟩ | ⟨rfl, _⟩
    · exact .inr (stray_temporary "Ab12Cd")
    · exact .inl ⟨"a.json", Dict.contains_ofList.mpr (by simp), rfl⟩
    · exact .inl ⟨"b..c", Dict.contains_ofList.mpr (by simp), rfl⟩

theorem confines_cluttered : FileStore.profileIds ⟨⟨""⟩, cluttered⟩ "1.0.0" = .ok ["a.json", "b..c"] :=
  (StoreLayout.confines ⟨""⟩).listed .first _ _ _ cluttered_stocks

end ContainerProfiles
