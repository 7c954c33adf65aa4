import ContainerProfiles.Proofs.Mirrors

namespace ContainerProfiles

-- Writing to files and to memory. Every write answers the same on both sides and leaves files that mirror what is
-- then in memory; all that a refusal leaves behind is the lock file.

open FileTree StoreLayout

-- What is in memory after a write, which is what was there if it was refused.
def MemoryStore.settle (m : MemoryStore) : Except StoreError MemoryStore → MemoryStore
  | .ok n => n
  | .error _ => m

-- A write to files that ends as the one to memory does.
structure Matches (l : StoreLayout) (base : Path) (m : MemoryStore) (r : Except StoreError MemoryStore)
    (w : Except StoreError Unit × FileStore) : Prop where
  answer : w.1 = r.map fun _ => ()
  layout : w.2.layout = l
  mirrors : Mirrors l w.2.tree base (m.settle r)

variable {l : StoreLayout} {t u : FileTree} {base : Path} {m n : MemoryStore} {v w : Version}
  {entry : StoredVersion} {id : ProfileId} {p : Profile}

theorem versionPath_unique {one two : String} {names : Path} (first : versionPath one <+: names)
    (second : versionPath two <+: names) : one = two := by
  have same := List.prefix_of_prefix_length_le first second (Nat.le_refl 3)
  simpa [versionPath, versionsPath] using same.eq_of_length rfl

theorem Holds.same (held : Holds l t base v entry)
    (unchanged : ∀ names, versionPath v.text <+: names ∨ names <+: profilesPath v.text →
      u.below base names = t.below base names) : Holds l u base v entry := by
  have inside : ∀ rest, u.below base (versionPath v.text ++ rest) = t.below base (versionPath v.text ++ rest) :=
    fun rest => unchanged _ (.inl (List.prefix_append ..))
  refine ⟨held.admitted, held.paved.same fun front isFront => unchanged front (.inr isFront), ?_, ?_, ?_⟩
  · rw [inside]
    exact held.document
  · intro id p got
    obtain ⟨named, now, present⟩ := held.written id p got
    refine ⟨named, now, ?_⟩
    rw [profilesPath, List.append_assoc, inside, ← List.append_assoc]
    exact present
  · intro name apart
    rw [profilesPath, List.append_assoc, inside, ← List.append_assoc]
    exact held.others name apart

-- Only the folder of one version has changed.
theorem Mirrors.alter (mirrors : Mirrors l t base m) (rooted : u.Rooted l.root base)
    (aside : ∀ names, ¬ versionPath v.text <+: names → u.below base names = t.below base names)
    (same : ∀ w, w ≠ v → n.versions.get? w = m.versions.get? w)
    (held : ∀ entry, n.versions.get? v = some entry → Holds l u base v entry)
    (gone : n.versions.get? v = none → ∀ names, versionPath v.text <+: names → u.below base names = none) :
    Mirrors l u base n := by
  have short : ∀ names : Path, names.length < 3 → u.below base names = t.below base names :=
    fun names short => aside names fun under => Nat.not_lt.mpr under.length_le short
  refine ⟨rooted, mirrors.room, mirrors.paved.same fun front isFront => ?_, ?_, ?_, ?_, ?_⟩
  · exact short front (Nat.lt_succ_of_le isFront.length_le)
  · rw [short _ (by simp)]
    exact mirrors.marker
  · rw [short _ (by simp)]
    exact mirrors.lock
  · intro w entry stored
    by_cases here : w = v
    · subst here
      exact held entry stored
    · rw [same w here] at stored
      refine (mirrors.held w entry stored).same fun names either => aside names fun under => ?_
      have apart : v.text ≠ w.text := fun texts => here (Version.text_injective texts).symm
      rcases either with above | isFront
      · exact apart (versionPath_unique under above)
      · exact apart (versionPath_unique (under.trans isFront) (List.prefix_append ..))
  · intro name apart names under
    by_cases here : v.text = name
    · subst here
      refine gone ?_ names under
      cases stored : n.versions.get? v with
      | none => rfl
      | some entry => exact absurd rfl (apart v (Dict.contains_iff.mpr ⟨entry, stored⟩))
    · rw [aside names fun above => here (versionPath_unique above under)]
      refine mirrors.nothing name (fun w present => ?_) names under
      by_cases other : w = v
      · subst other
        exact here
      · refine apart w ?_
        unfold Dict.contains at present ⊢
        rw [same w other]
        exact present

-- One profile of a version is written anew, or is there no more.
theorem Holds.rewrite (held : Holds l t base v entry) (id : ProfileId) {profiles : Catalog}
    (aside : ∀ names, names ≠ profilesPath v.text ++ [profileFileName id] →
      u.below base names = t.below base names)
    (same : ∀ other, other ≠ id → profiles.get? other = entry.profiles.get? other)
    (here : ∀ p, profiles.get? id = some p → Named id ∧ ∃ now,
      u.below base (profilesPath v.text ++ [profileFileName id]) =
        some (.file (Json.print (ProfileDocument.sealed p now).toNode)))
    (gone : profiles.get? id = none → u.below base (profilesPath v.text ++ [profileFileName id]) = none) :
    Holds l u base v { entry with profiles } := by
  have short : ∀ names : Path, names.length < 5 → u.below base names = t.below base names :=
    fun names short => aside names fun whole => by
      rw [whole] at short
      exact Nat.lt_irrefl 5 short
  refine ⟨held.admitted, held.paved.same fun front isFront => ?_, ?_, ?_, ?_⟩
  · exact short front (Nat.lt_succ_of_le isFront.length_le)
  · rw [short (versionPath v.text ++ ["version.json"]) (Nat.lt_succ_self 4)]
    exact held.document
  · intro other p got
    by_cases apart : other = id
    · subst apart
      exact here p got
    · rw [same other apart] at got
      obtain ⟨named, now, present⟩ := held.written other p got
      refine ⟨named, now, ?_⟩
      rw [aside _ fun whole => apart (profileFileName_injective (List.singleton_inj.mp
        (List.append_cancel_left whole)))]
      exact present
  · intro name apart
    by_cases whole : profileFileName id = name
    · subst whole
      refine gone ?_
      cases got : profiles.get? id with
      | none => rfl
      | some p => exact absurd rfl (apart id (Dict.contains_iff.mpr ⟨p, got⟩))
    · rw [aside _ fun same => whole (List.singleton_inj.mp (List.append_cancel_left same)).symm]
      refine held.others name fun other present => ?_
      by_cases mine : other = id
      · subst mine
        exact whole
      · refine apart other ?_
        unfold Dict.contains at present ⊢
        rw [same other mine]
        exact present

theorem Mirrors.touched (mirrors : Mirrors l t base m) :
    Mirrors l (t.put (base ++ (["store"] ++ [".lock"])) (.file "")) base m := by
  have elsewhere : ∀ names, names ≠ ["store"] ++ [".lock"] →
      (t.put (base ++ (["store"] ++ [".lock"])) (.file "")).below base names = t.below base names :=
    fun names apart => by rw [below_put _ _ (by simp), if_neg apart]
  have within : ∀ version names, versionPath version <+: names → names ≠ ["store"] ++ [".lock"] := by
    rintro version names ⟨rest, rfl⟩
    simp [versionPath, versionsPath]
  refine ⟨mirrors.rooted.put (by simp) _, mirrors.room, mirrors.paved.same fun front isFront => ?_, ?_, ?_, ?_, ?_⟩
  · refine elsewhere front ?_
    rintro rfl
    simp [versionsPath, List.cons_prefix_cons] at isFront
  · rw [elsewhere _ (by simp)]
    exact mirrors.marker
  · rw [below_put _ _ (by simp), if_pos rfl]
    intro same
    cases same
  · intro v entry stored
    refine (mirrors.held v entry stored).same fun names either => elsewhere names ?_
    rcases either with under | isFront
    · exact within v.text names under
    · rintro rfl
      simp [profilesPath, versionPath, versionsPath, List.cons_prefix_cons] at isFront
  · intro name apart names under
    rw [elsewhere names (within name names under)]
    exact mirrors.nothing name apart names under

theorem Mirrors.takeLock (mirrors : Mirrors l t base m) :
    ∃ u, FileStore.takeLock ⟨l, t⟩ = (.ok (), ⟨l, u⟩) ∧ Mirrors l u base m := by
  have store : t.below base ([] ++ ["store"]) = some .folder :=
    mirrors.paved.folders ["store"] (List.prefix_append ["store"] ["versions"])
  have known : ".lock" ∈ fixedNames := by simp [fixedNames]
  have reaches := mirrors.reaches_inStore known (by decide)
  obtain ⟨u, touched, either⟩ := touch_below reaches mirrors.lock
  refine ⟨u, ?_, ?_⟩
  · unfold FileStore.takeLock FileStore.makeFolders FileStore.commit FileStore.onTree
    dsimp only
    rw [storeFolder_eq, makeFolders_present mirrors.reaches_store store]
    simp only [FileStore.andThen, Except.mapError]
    rw [lockFile_eq, touched]
    rfl
  · rcases either with rfl | rfl
    · exact mirrors
    · exact mirrors.touched

theorem Mirrors.locked_cases (mirrors : Mirrors l t base m) (check : FileStore → Except StoreError Unit)
    (step : FileStore → Except StoreError Unit × FileStore) :
    ∃ u, Mirrors l u base m ∧
      ((∃ e, check ⟨l, u⟩ = .error e ∧ FileStore.locked ⟨l, t⟩ check step = (.error e, ⟨l, u⟩)) ∨
        (check ⟨l, u⟩ = .ok () ∧ FileStore.locked ⟨l, t⟩ check step = step ⟨l, u⟩)) := by
  obtain ⟨u, taken, still⟩ := mirrors.takeLock
  refine ⟨u, still, ?_⟩
  unfold FileStore.locked
  rw [taken]
  simp only [FileStore.andThen]
  cases check ⟨l, u⟩ with
  | error e => exact .inl ⟨e, rfl, rfl⟩
  | ok _ => exact .inr ⟨rfl, rfl⟩

-- Behind the lock, a check that speaks as memory does and a step that ends as memory does.
theorem Mirrors.locked {r : Except StoreError MemoryStore} {check : FileStore → Except StoreError Unit}
    {step : FileStore → Except StoreError Unit × FileStore} (mirrors : Mirrors l t base m)
    (refused : ∀ u e, Mirrors l u base m → check ⟨l, u⟩ = .error e → r = .error e)
    (done : ∀ u, Mirrors l u base m → check ⟨l, u⟩ = .ok () → Matches l base m r (step ⟨l, u⟩)) :
    Matches l base m r (FileStore.locked ⟨l, t⟩ check step) := by
  obtain ⟨u, still, ⟨e, checked, same⟩ | ⟨checked, same⟩⟩ := mirrors.locked_cases check step
  · rw [same, refused u e still checked]
    exact ⟨rfl, rfl, still⟩
  · rw [same]
    exact done u still checked

theorem Mirrors.put (mirrors : Mirrors l t base m) (rooted : u.Rooted l.root base)
    (aside : ∀ names, ¬ versionPath v.text <+: names → u.below base names = t.below base names)
    (held : Holds l u base v entry) : Mirrors l u base (m.put v entry) := by
  refine mirrors.alter rooted aside (fun w apart => ?_) (fun other found => ?_) fun none => ?_
  · rw [MemoryStore.get?_put, if_neg apart]
  · rw [MemoryStore.get?_put, if_pos rfl] at found
    cases found
    exact held
  · rw [MemoryStore.get?_put, if_pos rfl] at none
    cases none

-- The two folders of a new version, with nothing in them yet.
theorem Mirrors.folders_made (mirrors : Mirrors l t base m) (stored : m.versions.get? v = none)
    (admitted : l.Admits v) :
    ∃ u, t.makeFolders (l.profilesFolder v.text) = (.ok (), u) ∧ u.Rooted l.root base ∧
      u.Paved base (profilesPath v.text) ∧
      (∀ names, ¬ versionPath v.text <+: names → u.below base names = t.below base names) ∧
      ∀ names, versionPath v.text <+: names → ¬ names <+: profilesPath v.text → u.below base names = none := by
  have known : "profiles" ∈ fixedNames := by simp [fixedNames]
  have empty : ∀ names, versionPath v.text <+: names → t.below base names = none := fun names =>
    mirrors.absent stored
  obtain ⟨u, made, rooted, paved, look⟩ := makeFolders_two (mirrors.reaches_version admitted)
    (empty _ (List.prefix_refl _)) (fixedNames_proper _ known).solid (fixedNames_fit _ known)
    (admitted.sayable_document mirrors.begun mirrors.plain known) (empty _ (List.prefix_append ..))
  refine ⟨u, ?_, rooted, paved, fun names out => ?_, fun names under out => ?_⟩
  · rw [profilesFolder_eq]
    exact made
  · rw [look, if_neg, if_neg]
    · rintro rfl
      exact out (List.prefix_refl _)
    · rintro rfl
      exact out (List.prefix_append ..)
  · rw [look, if_neg, if_neg, empty names under]
    · rintro rfl
      exact out (List.prefix_append ..)
    · rintro rfl
      exact out (List.prefix_refl _)

theorem Mirrors.version_added (mirrors : Mirrors l t base m) (stored : m.versions.get? v = none)
    (admitted : l.Admits v) (attributes : Attributes) (now : String) :
    ∃ u w, t.makeFolders (l.profilesFolder v.text) = (.ok (), u) ∧
      u.replace (l.versionDocument v.text) (Json.print (VersionDocument.toNode ⟨v, attributes, now⟩)) = .ok w ∧
      Mirrors l w base (m.put v { attributes }) := by
  obtain ⟨u, made, rooted, paved, aside, empty⟩ := mirrors.folders_made stored admitted
  have known : "version.json" ∈ fixedNames := by simp [fixedNames]
  have file : versionPath v.text ++ ["version.json"] ≠ [] := by simp
  have apart : ¬ versionPath v.text ++ ["version.json"] <+: profilesPath v.text := by
    simp [profilesPath, List.prefix_append_right_inj, List.cons_prefix_cons]
  have unread := empty _ (List.prefix_append ..) apart
  have replaced := replace_below ⟨rooted, paved.front (List.prefix_append (versionPath v.text) ["profiles"]),
    (fixedNames_proper _ known).solid, fixedNames_fit _ known,
    admitted.sayable_document mirrors.begun mirrors.plain known⟩
    (by rw [unread]; exact (Option.some_ne_none _).symm) (Json.print (VersionDocument.toNode ⟨v, attributes, now⟩))
  rw [← versionDocument_eq] at replaced
  refine ⟨u, _, made, replaced, mirrors.put (rooted.put file _) (fun names out => ?_)
    ⟨admitted, paved.put file apart, ⟨now, ?_⟩, fun id p got => ?_, fun name _ => ?_⟩⟩
  · rw [below_put _ _ file, if_neg, aside names out]
    rintro rfl
    exact out (List.prefix_append ..)
  · rw [below_put _ _ file, if_pos rfl]
  · cases got
  · have under : versionPath v.text <+: profilesPath v.text ++ [name] :=
      (List.prefix_append ..).trans (List.prefix_append ..)
    rw [below_put _ _ file, if_neg, empty _ under fun isFront => absurd isFront.length_le (by simp)]
    simp [profilesPath]

theorem Mirrors.version_removed (mirrors : Mirrors l t base m) (stored : m.versions.get? v = some entry) :
    ∃ w, t.removeFolder (l.versionFolder v.text) = .ok w ∧
      Mirrors l w base { versions := m.versions.erase v } := by
  have held := mirrors.held v entry stored
  have folder : t.below base (versionsPath ++ [v.text]) = some .folder :=
    held.paved.folders (versionPath v.text) (List.prefix_append ..)
  have inner : versionsPath ++ [v.text] ≠ [] := by simp
  have removed := removeFolder_below (mirrors.reaches_version held.admitted) folder
  rw [← versionFolder_eq] at removed
  refine ⟨_, removed, mirrors.alter (v := v) (mirrors.rooted.without inner) (fun names aside => ?_)
    (fun w apart => ?_) (fun entry found => ?_) fun _ names under => ?_⟩
  · rw [below_without _ _ inner]
    exact if_neg aside
  · rw [Dict.get?_erase, if_neg apart]
  · rw [Dict.get?_erase, if_pos rfl] at found
    cases found
  · rw [below_without _ _ inner]
    exact if_pos under

theorem Mirrors.profile_written (mirrors : Mirrors l t base m) (stored : m.versions.get? p.version = some entry)
    (named : Named p.identity) (now : String) :
    t.makeFolders (l.profilesFolder p.version.text) = (.ok (), t) ∧
      ∃ w, t.replace (l.profileFile p.version.text p.identity)
          (Json.print (ProfileDocument.sealed p now).toNode) = .ok w ∧
        Mirrors l w base
          (m.put p.version { entry with profiles := entry.profiles.insert p.identity p }) := by
  have held := mirrors.held p.version entry stored
  have known : "profiles" ∈ fixedNames := by simp [fixedNames]
  have reaches := mirrors.reaches_profile held named
  have inner : profilesPath p.version.text ++ [profileFileName p.identity] ≠ [] := by simp
  have free : t.below base (profilesPath p.version.text ++ [profileFileName p.identity]) ≠ some .folder := by
    cases got : entry.profiles.get? p.identity with
    | some q =>
        obtain ⟨_, _, present⟩ := held.written _ q got
        rw [present]
        intro same
        cases same
    | none =>
        rw [held.others _ fun other present same => ?_]
        · exact (Option.some_ne_none _).symm
        · rw [profileFileName_injective same, Dict.contains, got] at present
          cases present
  constructor
  · rw [profilesFolder_eq]
    exact makeFolders_present (mirrors.reaches_document held known) held.paved.folder
  · have replaced := replace_below reaches free (Json.print (ProfileDocument.sealed p now).toNode)
    rw [← profileFile_eq] at replaced
    refine ⟨_, replaced, mirrors.put (mirrors.rooted.put inner _) (fun names aside => ?_) (held.rewrite
      p.identity (fun names apart => ?_) (fun other apart => ?_) (fun q got => ?_) fun none => ?_)⟩
    · rw [below_put _ _ inner, if_neg]
      rintro rfl
      exact aside ((List.prefix_append ..).trans (List.prefix_append ..))
    · rw [below_put _ _ inner, if_neg apart]
    · rw [Dict.get?_insert, if_neg apart]
    · rw [Dict.get?_insert, if_pos rfl] at got
      cases got
      exact ⟨named, now, by rw [below_put _ _ inner, if_pos rfl]⟩
    · rw [Dict.get?_insert, if_pos rfl] at none
      cases none

theorem Mirrors.profile_removed (mirrors : Mirrors l t base m) (stored : m.versions.get? v = some entry)
    (got : entry.profiles.get? id = some p) :
    ∃ w, t.removeFile (l.profileFile v.text id) = .ok w ∧
      Mirrors l w base (m.put v { entry with profiles := entry.profiles.erase id }) := by
  have held := mirrors.held v entry stored
  obtain ⟨named, now, present⟩ := held.written id p got
  have inner : profilesPath v.text ++ [profileFileName id] ≠ [] := by simp
  have removed := removeFile_below (mirrors.reaches_profile held named) present
  rw [← profileFile_eq] at removed
  refine ⟨_, removed, mirrors.put (mirrors.rooted.erase inner) (fun names aside => ?_) (held.rewrite
    id (fun names apart => ?_) (fun other apart => ?_) (fun q found => ?_) fun _ => ?_)⟩
  · rw [below_erase _ _ inner, if_neg]
    rintro rfl
    exact aside ((List.prefix_append ..).trans (List.prefix_append ..))
  · rw [below_erase _ _ inner, if_neg apart]
  · rw [Dict.get?_erase, if_neg apart]
  · rw [Dict.get?_erase, if_pos rfl] at found
    cases found
  · rw [below_erase _ _ inner, if_pos rfl]

theorem Mirrors.addVersion (mirrors : Mirrors l t base m) (admitted : l.Admits v) (now : String)
    (attributes : Attributes) :
    Matches l base m (m.addVersion v attributes) (FileStore.addVersion ⟨l, t⟩ now v attributes) := by
  unfold FileStore.addVersion
  refine mirrors.locked (fun u e still refused => ?_) fun u still free => ?_
  · rw [still.hasVersion] at refused
    unfold MemoryStore.addVersion
    split at refused
    · rename_i present
      cases refused
      exact if_pos present
    · cases refused
  · rw [still.hasVersion] at free
    have absent : m.versions.get? v = none := by
      cases stored : m.versions.get? v with
      | none => rfl
      | some entry =>
          rw [Dict.contains_iff.mpr ⟨entry, stored⟩] at free
          cases free
    obtain ⟨w, x, made, replaced, mirrored⟩ := still.version_added absent admitted attributes now
    rw [MemoryStore.addVersion_ok absent]
    unfold FileStore.makeFolders FileStore.commit FileStore.onTree
    dsimp only
    rw [made]
    simp only [FileStore.andThen, Except.mapError]
    rw [replaced]
    exact ⟨rfl, rfl, mirrored⟩

-- What a write asks of the version it goes to.
def StoredVersion.require (v : Version) (id : ProfileId) (entry : StoredVersion) : Except StoreError Unit :=
  if entry.profiles.contains id then .ok () else .error (.profileNotFound v id)

def StoredVersion.requireNo (v : Version) (id : ProfileId) (entry : StoredVersion) : Except StoreError Unit :=
  if entry.profiles.contains id then .error (.profileExists v id) else .ok ()

-- A stored version that passes the check is changed.
def MemoryStore.amend (m : MemoryStore) (v : Version) (check : StoredVersion → Except StoreError Unit)
    (change : StoredVersion → MemoryStore) : Except StoreError MemoryStore :=
  m.stored v >>= fun entry => check entry >>= fun _ => .ok (change entry)

theorem MemoryStore.removeVersion_eq (m : MemoryStore) (v : Version) :
    m.removeVersion v = m.amend v (fun _ => .ok ()) fun _ => { versions := m.versions.erase v } := rfl

theorem MemoryStore.addProfile_eq (m : MemoryStore) (p : Profile) :
    m.addProfile p = m.amend p.version (StoredVersion.requireNo p.version p.identity) fun entry =>
      m.put p.version { entry with profiles := entry.profiles.insert p.identity p } := by
  unfold addProfile amend StoredVersion.requireNo
  congr 1
  funext entry
  cases entry.profiles.contains p.identity <;> rfl

theorem MemoryStore.updateProfile_eq (m : MemoryStore) (p : Profile) :
    m.updateProfile p = m.amend p.version (StoredVersion.require p.version p.identity) fun entry =>
      m.put p.version { entry with profiles := entry.profiles.insert p.identity p } := by
  unfold updateProfile amend StoredVersion.require
  congr 1
  funext entry
  cases entry.profiles.contains p.identity <;> rfl

theorem MemoryStore.removeProfile_eq (m : MemoryStore) (v : Version) (id : ProfileId) :
    m.removeProfile v id = m.amend v (StoredVersion.require v id) fun entry =>
      m.put v { entry with profiles := entry.profiles.erase id } := by
  unfold removeProfile amend StoredVersion.require
  congr 1
  funext entry
  cases entry.profiles.contains id <;> rfl

theorem Mirrors.amended {check : FileStore → Except StoreError Unit}
    {step : FileStore → Except StoreError Unit × FileStore} {asked : StoredVersion → Except StoreError Unit}
    {change : StoredVersion → MemoryStore} (mirrors : Mirrors l t base m)
    (checks : ∀ u, Mirrors l u base m → check ⟨l, u⟩ = m.stored v >>= asked)
    (done : ∀ u entry, Mirrors l u base m → m.versions.get? v = some entry → asked entry = .ok () →
      Matches l base m (.ok (change entry)) (step ⟨l, u⟩)) :
    Matches l base m (m.amend v asked change) (FileStore.locked ⟨l, t⟩ check step) := by
  unfold MemoryStore.amend
  refine mirrors.locked (fun u e still refused => ?_) fun u still passed => ?_
  · rw [checks u still, bind_eq_error] at refused
    refine bind_eq_error.mpr (refused.imp_right ?_)
    rintro ⟨entry, stored, failed⟩
    exact ⟨entry, stored, bind_eq_error.mpr (.inl failed)⟩
  · rw [checks u still, bind_eq_ok] at passed
    obtain ⟨entry, stored, fine⟩ := passed
    have result : (m.stored v >>= fun entry => asked entry >>= fun _ => .ok (change entry)) =
        .ok (change entry) :=
      bind_eq_ok.mpr ⟨entry, stored, bind_eq_ok.mpr ⟨(), fine, rfl⟩⟩
    rw [result]
    exact done u entry still (MemoryStore.stored_eq_ok.mp stored) fine

theorem Mirrors.removeVersion (mirrors : Mirrors l t base m) (v : Version) :
    Matches l base m (m.removeVersion v) (FileStore.removeVersion ⟨l, t⟩ v) := by
  unfold FileStore.removeVersion
  rw [MemoryStore.removeVersion_eq]
  refine mirrors.amended (fun u still => ?_) fun u entry still stored _ => ?_
  · rw [still.requireVersion]
    cases m.stored v <;> rfl
  · obtain ⟨w, removed, mirrored⟩ := still.version_removed stored
    unfold FileStore.commit FileStore.onTree
    dsimp only
    rw [removed]
    exact ⟨rfl, rfl, mirrored⟩

theorem Mirrors.requireProfile (mirrors : Mirrors l t base m) (checked : checkProfileName id = .ok ())
    (v : Version) : FileStore.requireProfile ⟨l, t⟩ v id = m.stored v >>= StoredVersion.require v id := by
  unfold FileStore.requireProfile
  rw [mirrors.requireVersion]
  cases stored : m.stored v with
  | error e => rfl
  | ok entry =>
      simp only [Except.map, bind, Except.bind, StoredVersion.require]
      rw [mirrors.contains_profile (MemoryStore.stored_eq_ok.mp stored) checked]
      cases entry.profiles.contains id <;> rfl

theorem Mirrors.requireNoProfile (mirrors : Mirrors l t base m) (checked : checkProfileName id = .ok ())
    (v : Version) : FileStore.requireNoProfile ⟨l, t⟩ v id = m.stored v >>= StoredVersion.requireNo v id := by
  unfold FileStore.requireNoProfile
  rw [mirrors.requireVersion]
  cases stored : m.stored v with
  | error e => rfl
  | ok entry =>
      simp only [Except.map, bind, Except.bind, StoredVersion.requireNo]
      rw [mirrors.contains_profile (MemoryStore.stored_eq_ok.mp stored) checked]
      cases entry.profiles.contains id <;> rfl

theorem StoredVersion.require_ok (present : entry.require v id = .ok ()) : ∃ p, entry.profiles.get? id = some p := by
  unfold require at present
  split at present
  · rename_i inside
    exact Dict.contains_iff.mp inside
  · cases present

theorem Mirrors.writeProfile (mirrors : Mirrors l t base m) (stored : m.versions.get? p.version = some entry)
    (named : Named p.identity) (now : String) :
    Matches l base m
      (.ok (m.put p.version { entry with profiles := entry.profiles.insert p.identity p }))
      (FileStore.writeProfile ⟨l, t⟩ now p) := by
  obtain ⟨made, w, replaced, mirrored⟩ := mirrors.profile_written stored named now
  unfold FileStore.writeProfile FileStore.makeFolders FileStore.commit FileStore.onTree FileStore.profilePath
  dsimp only
  rw [made]
  simp only [FileStore.andThen, Except.mapError]
  rw [replaced]
  exact ⟨rfl, rfl, mirrored⟩

theorem Mirrors.addProfile (mirrors : Mirrors l t base m) (named : Named p.identity) (now : String) :
    Matches l base m (m.addProfile p) (FileStore.addProfile ⟨l, t⟩ now p) := by
  unfold FileStore.addProfile
  rw [FileStore.named_ok named.checked, MemoryStore.addProfile_eq]
  exact mirrors.amended (fun u still => still.requireNoProfile named.checked p.version)
    fun u entry still stored _ => still.writeProfile stored named now

-- A name that no file can have is found unfit when everything else is done.
theorem Mirrors.addProfile_unfit (mirrors : Mirrors l t base m) (checked : checkProfileName p.identity = .ok ())
    (nul : '\x00' ∈ p.identity.toList) (now : String) :
    ∃ e u, FileStore.addProfile ⟨l, t⟩ now p = (.error e, ⟨l, u⟩) ∧ Mirrors l u base m := by
  unfold FileStore.addProfile
  rw [FileStore.named_ok checked]
  obtain ⟨u, still, ⟨e, _, same⟩ | ⟨free, same⟩⟩ := mirrors.locked_cases
    (fun s => s.requireNoProfile p.version p.identity) fun s => s.writeProfile now p
  · exact ⟨e, u, same, still⟩
  · rw [still.requireNoProfile checked, bind_eq_ok] at free
    obtain ⟨entry, stored, _⟩ := free
    have held := still.held _ _ (MemoryStore.stored_eq_ok.mp stored)
    have known : "profiles" ∈ fixedNames := by simp [fixedNames]
    have made := makeFolders_present (still.reaches_document held known) held.paved.folder
    have spelled : '\x00' ∈ (l.profileFile p.version.text p.identity).toList := by
      rw [profileFile_eq, pathOf_snoc]
      refine mem_of_mem_name (profileFileName_solid checked)
        (pathOf_ne_empty still.begun fun name member => (profilesPath_proper _ name member).solid) ?_
      rw [profileFileName_toList]
      exact List.mem_append_left _ nul
    refine ⟨.file .unfit, u, same.trans ?_, still⟩
    unfold FileStore.writeProfile FileStore.makeFolders FileStore.commit FileStore.onTree FileStore.profilePath
    dsimp only
    rw [profilesFolder_eq, made]
    simp only [FileStore.andThen, Except.mapError]
    rw [replace_nul spelled]
    rfl

theorem Mirrors.updateProfile (mirrors : Mirrors l t base m) (checked : checkProfileName p.identity = .ok ())
    (now : String) : Matches l base m (m.updateProfile p) (FileStore.updateProfile ⟨l, t⟩ now p) := by
  unfold FileStore.updateProfile
  rw [FileStore.named_ok checked, MemoryStore.updateProfile_eq]
  refine mirrors.amended (fun u still => still.requireProfile checked p.version)
    fun u entry still stored present => ?_
  obtain ⟨old, got⟩ := StoredVersion.require_ok present
  exact still.writeProfile stored ((still.held _ _ stored).written _ old got).1 now

theorem Mirrors.removeProfile (mirrors : Mirrors l t base m) (checked : checkProfileName id = .ok ())
    (v : Version) : Matches l base m (m.removeProfile v id) (FileStore.removeProfile ⟨l, t⟩ v id) := by
  unfold FileStore.removeProfile
  rw [FileStore.named_ok checked, MemoryStore.removeProfile_eq]
  refine mirrors.amended (fun u still => still.requireProfile checked v) fun u entry still stored present => ?_
  obtain ⟨p, got⟩ := StoredVersion.require_ok present
  obtain ⟨w, removed, mirrored⟩ := still.profile_removed stored got
  unfold FileStore.commit FileStore.onTree FileStore.profilePath
  dsimp only
  rw [removed]
  exact ⟨rfl, rfl, mirrored⟩

end ContainerProfiles
