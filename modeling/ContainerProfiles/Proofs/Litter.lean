import ContainerProfiles.Proofs.Folders

namespace ContainerProfiles

-- What a store on files leaves around, in any tree.

open FileTree

-- A listing of profiles passes over files of this name: of another kind, or hidden.
def Stray (name : String) : Prop :=
  ¬ ".json".toList <:+ name.toList ∨ name.toList.head? = some '.' ∧ name ≠ ".json"

namespace FileTree

variable {t u w : FileTree} {path name : String} {here p q names : Path}

structure Standing (t u : FileTree) : Prop where
  working : u.workingFolder = t.workingFolder
  folders : ∀ p, t.entries.get? p = some .folder → u.entries.get? p = some .folder

theorem Standing.trans (one : t.Standing u) (two : u.Standing w) : t.Standing w :=
  ⟨two.working.trans one.working, fun p folder => two.folders p (one.folders p folder)⟩

theorem Standing.entry? (standing : t.Standing u) (folder : t.entry? p = some .folder) :
    u.entry? p = some .folder := by
  unfold FileTree.entry? at folder ⊢
  split
  · rfl
  · rename_i inner
    rw [if_neg inner] at folder
    exact standing.folders p folder

theorem folder_of_step (stepped : t.step here name = .ok p) : t.entry? here = some .folder := by
  unfold step at stepped
  split at stepped
  · cases stepped
  · cases stepped
  · assumption

theorem folder_of_steps (walked : names.foldlM t.step here = .ok p) (folder : t.entry? p = some .folder) :
    t.entry? here = some .folder := by
  cases names with
  | nil =>
      cases walked
      exact folder
  | cons name names =>
      obtain ⟨_, stepped, _⟩ := bind_eq_ok.mp walked
      exact folder_of_step stepped

theorem Standing.step (standing : t.Standing u) (stepped : t.step here name = .ok p)
    (folder : t.entry? p = some .folder) : u.step here name = .ok p := by
  have above := folder_of_step stepped
  unfold FileTree.step at stepped ⊢
  rw [above] at stepped
  rw [standing.entry? above]
  dsimp only at stepped ⊢
  have inside : p = here ++ [name] → u.entries.contains (here ++ [name]) := by
    rintro rfl
    have there := standing.entry? folder
    unfold FileTree.entry? at there
    rw [if_neg (by simp)] at there
    exact Dict.contains_iff.mpr ⟨_, there⟩
  grind

theorem Standing.steps (standing : t.Standing u) (walked : names.foldlM t.step here = .ok p)
    (folder : t.entry? p = some .folder) : names.foldlM u.step here = .ok p := by
  induction names generalizing here with
  | nil => exact walked
  | cons name names ih =>
      rw [List.foldlM_cons, bind_eq_ok] at walked ⊢
      obtain ⟨middle, stepped, rest⟩ := walked
      exact ⟨middle, standing.step stepped (folder_of_steps rest folder), ih rest⟩

theorem Standing.begin? (standing : t.Standing u) (path : String) : u.begin? path = t.begin? path := by
  unfold FileTree.begin?
  rw [standing.working]

theorem Standing.locate (standing : t.Standing u) (found : t.locate path = .ok (p, .folder)) :
    u.locate path = .ok (p, .folder) := by
  have begins := standing.begin? path
  obtain ⟨⟨start, names⟩, opened, rest⟩ := bind_eq_ok.mp found
  obtain ⟨q, walked, looked⟩ := bind_eq_ok.mp rest
  split at looked
  · rename_i folder
    cases pure_eq_ok.mp looked
    refine bind_eq_ok.mpr ⟨_, begins.trans opened, bind_eq_ok.mpr ⟨p, standing.steps walked folder, ?_⟩⟩
    rw [standing.entry? folder]
    rfl
  · cases throw_eq_ok.mp looked

theorem standing_put (file : t.entries.get? p ≠ some .folder) (entry : FileEntry) : t.Standing (t.put p entry) := by
  refine ⟨rfl, fun q folder => ?_⟩
  unfold FileTree.put
  rw [Dict.get?_insert, if_neg, folder]
  rintro rfl
  exact file folder

theorem standing_erase (file : t.entries.get? p ≠ some .folder) :
    t.Standing { t with entries := t.entries.erase p } := by
  refine ⟨rfl, fun q folder => ?_⟩
  rw [Dict.get?_erase, if_neg, folder]
  rintro rfl
  exact file folder

-- A file goes where its path ends with a name of its own and no slash, unless a folder is there.
theorem target_eq_ok : t.target path = .ok p ↔ ∃ spot, t.spot path = .ok spot ∧
    (spot.stays = false ∧ spot.slashed = false) ∧ nameFits spot.name ∧
    t.entries.get? spot.path ≠ some .folder ∧ p = spot.path := by
  unfold target
  rw [bind_eq_ok]
  refine exists_congr fun spot => and_congr_right fun _ => ?_
  constructor
  · intro aimed
    split at aimed
    · cases throw_eq_ok.mp aimed
    · split at aimed
      · cases throw_eq_ok.mp aimed
      · split at aimed
        · cases throw_eq_ok.mp aimed
        · rename_i moves fits file
          exact ⟨by simpa using moves, by simpa using fits, file, (pure_eq_ok.mp aimed).symm⟩
  · rintro ⟨⟨moves, slashless⟩, fits, file, rfl⟩
    rw [moves, slashless, fits]
    exact if_neg file

theorem put_of_replace {content : String} (replaced : t.replace path content = .ok u) :
    ∃ place, t.target path = .ok place ∧ u = t.put place (.file content) := by
  unfold replace write at replaced
  rw [mapError_eq_ok] at replaced
  obtain ⟨place, aimed, same⟩ := bind_eq_ok.mp replaced
  exact ⟨place, aimed, (pure_eq_ok.mp same).symm⟩

-- What was there is there still, and besides there are folders and strays.
structure Litters (t u : FileTree) : Prop where
  working : u.workingFolder = t.workingFolder
  kept : t.Within u
  new : ∀ p entry, u.entries.get? p = some entry →
    t.entries.get? p = some entry ∨ entry = .folder ∨ ∃ folder name, p = folder ++ [name] ∧ Stray name

theorem Litters.refl (t : FileTree) : t.Litters t := ⟨rfl, fun _ _ => id, fun _ _ => .inl⟩

theorem Litters.trans (one : t.Litters u) (two : u.Litters w) : t.Litters w := by
  refine ⟨two.working.trans one.working, fun p entry here => two.kept p entry (one.kept p entry here), ?_⟩
  intro p entry here
  rcases two.new p entry here with old | new
  · exact one.new p entry old
  · exact .inr new

theorem Litters.standing (litters : t.Litters u) : t.Standing u :=
  ⟨litters.working, fun p folder => litters.kept p .folder folder⟩

-- What is found is found still.
theorem Litters.contains (litters : t.Litters u) (present : t.contains path) : u.contains path := by
  unfold FileTree.contains at present ⊢
  cases found : t.locate path with
  | error fault =>
      rw [found] at present
      cases present
  | ok pair =>
      obtain ⟨p, entry⟩ := pair
      obtain ⟨⟨begin, names⟩, opened, rest⟩ := bind_eq_ok.mp found
      obtain ⟨p, walked, looked⟩ := bind_eq_ok.mp rest
      have along : u.locate path = .ok (p, entry) := by
        have opened' : u.begin? path = .ok (begin, names) := (litters.standing.begin? path).trans opened
        split at looked
        · rename_i there
          cases pure_eq_ok.mp looked
          refine bind_eq_ok.mpr ⟨_, opened', bind_eq_ok.mpr ⟨p, litters.kept.steps walked, ?_⟩⟩
          rw [litters.kept.entry? there]
          rfl
        · cases throw_eq_ok.mp looked
      rw [along]
      rfl

theorem litters_put {entry : FileEntry} (free : t.entries.contains p = false)
    (litter : entry = .folder ∨ ∃ folder name, p = folder ++ [name] ∧ Stray name) : t.Litters (t.put p entry) := by
  have absent := Dict.contains_false.mp free
  refine ⟨rfl, fun q entry here => ?_, fun q other here => ?_⟩
  · unfold FileTree.put
    rw [Dict.get?_insert, if_neg, here]
    rintro rfl
    cases absent.symm.trans here
  · unfold FileTree.put at here
    rw [Dict.get?_insert] at here
    split at here
    · rename_i same
      cases here
      exact .inr (same ▸ litter)
    · exact .inl here

-- A relation between trees that new folders do not break.
structure AllowsFolders (R : FileTree → FileTree → Prop) : Prop where
  refl : ∀ t, R t t
  trans : ∀ {t u w}, R t u → R u w → R t w
  put : ∀ t p, t.entries.contains p = false → R t (t.put p .folder)

namespace AllowsFolders
variable {R : FileTree → FileTree → Prop} (allows : AllowsFolders R)
include allows

theorem makeFolder (made : t.makeFolder path = .ok u) : R t u := by
  obtain ⟨spot, _, rest⟩ := bind_eq_ok.mp made
  split at rest
  · cases throw_eq_ok.mp rest
  · split at rest
    · cases throw_eq_ok.mp rest
    · split at rest
      · cases throw_eq_ok.mp rest
      · rename_i free
        cases pure_eq_ok.mp rest
        exact allows.put t _ (Bool.eq_false_iff.mpr free)

theorem ensure (made : ∀ u, x = .ok u → R t u) : R t (t.ensure path x).2 := by
  unfold FileTree.ensure
  split
  · exact made _ rfl
  · split <;> exact allows.refl t

theorem makeUpTo (fuel : Nat) (t : FileTree) (path : String) : R t (FileTree.makeUpTo fuel t path).2 := by
  induction fuel generalizing t path with
  | zero => exact allows.refl t
  | succ fuel ih =>
      unfold FileTree.makeUpTo
      split
      · exact allows.refl t
      · split
        · have above := ih t (parent path)
          split
          · rename_i u made
            rw [made] at above
            exact allows.trans above (allows.ensure fun _ => allows.makeFolder)
          · exact above
        · exact allows.ensure fun _ => allows.makeFolder

theorem makeFolders (t : FileTree) (path : String) : R t (t.makeFolders path).2 := allows.makeUpTo _ t path

end AllowsFolders

theorem litters_makeFolders (t : FileTree) (path : String) : t.Litters (t.makeFolders path).2 :=
  AllowsFolders.makeFolders ⟨.refl, .trans, fun _ _ free => litters_put free (.inl rfl)⟩ t path

-- The same files, in whatever folders.
def SameFiles (t u : FileTree) : Prop :=
  ∀ p content, u.entries.get? p = some (.file content) ↔ t.entries.get? p = some (.file content)

theorem sameFiles_makeFolders (t : FileTree) (path : String) : t.SameFiles (t.makeFolders path).2 := by
  refine AllowsFolders.makeFolders ⟨fun _ _ _ => .rfl, fun one two p content => (two p content).trans (one p content),
    fun t p free q content => ?_⟩ t path
  unfold FileTree.put
  rw [Dict.get?_insert]
  split
  · rename_i same
    rw [same, Dict.contains_false.mp free]
    simp
  · exact .rfl

section Joined

variable (solid : Solid name) (begun : path ≠ "") (last : path.toList.getLast? ≠ some '/')

include solid begun last

-- It is looked up right in the folder of the path,
theorem locate_joinPath {entry : FileEntry} (found : t.locate (joinPath path name) = .ok (p, entry)) :
    ∃ folder, t.locate path = .ok (folder, .folder) ∧ p = folder ++ [name] ∧ t.entries.get? p = some entry := by
  have front := (sayable_of_locate found).2.front solid begun
  obtain ⟨walked, present⟩ := trail_of_locate found
  rw [trail_joinPath solid begun, bind_eq_ok] at walked
  obtain ⟨folder, above, stepped⟩ := walked
  obtain ⟨isFolder, _, _, rfl⟩ := (step_eq_ok solid).mp stepped
  refine ⟨folder, (locate_eq_ok begun front last).mpr ⟨above, isFolder⟩, rfl, ?_⟩
  unfold entry? at present
  rwa [if_neg (by simp)] at present

-- and written there too.
theorem target_joinPath (aimed : t.target (joinPath path name) = .ok p) :
    ∃ folder, t.locate path = .ok (folder, .folder) ∧ p = folder ++ [name] ∧ t.entries.get? p ≠ some .folder := by
  obtain ⟨spot, spotted, _, _, file, rfl⟩ := target_eq_ok.mp aimed
  have sayable : Sayable (joinPath path name) := by
    obtain ⟨_, opened, _⟩ := bind_eq_ok.mp spotted
    exact (sayable_of_begin? opened).2
  rw [spot_joinPath solid begun sayable, bind_eq_ok] at spotted
  obtain ⟨folder, above, same⟩ := spotted
  split at same
  · rename_i isFolder
    cases same
    exact ⟨folder, (locate_eq_ok begun (sayable.front solid begun) last).mpr ⟨above, isFolder⟩, rfl, file⟩
  · cases same

theorem litters_touch (stray : Stray name) (touched : t.touch (joinPath path name) = .ok u) : t.Litters u := by
  obtain ⟨p, aimed, same⟩ := bind_eq_ok.mp touched
  obtain ⟨folder, _, rfl, _⟩ := target_joinPath solid begun last aimed
  cases pure_eq_ok.mp same
  split
  · exact .refl t
  · rename_i free
    exact litters_put (Bool.eq_false_iff.mpr free) (.inr ⟨folder, name, rfl, stray⟩)

end Joined
end FileTree

theorem stray_lock : Stray ".lock" := .inl (by decide)

namespace StoreLayout

theorem storeFolder_ne_empty (l : StoreLayout) : l.storeFolder ≠ "" := by
  unfold storeFolder joinPath
  intro empty
  have spelled := congrArg String.toList empty
  split at spelled
  · cases spelled
  · split at spelled <;> simp [String.toList_append] at spelled

theorem storeFolder_last (l : StoreLayout) : l.storeFolder.toList.getLast? ≠ some '/' := by
  have tail : ∀ cs : List Char, (cs ++ "store".toList).getLast? = some 'e' := fun cs => by simp
  unfold storeFolder joinPath
  split
  · decide
  · split
    · rw [String.toList_append, tail]
      decide
    · rw [String.toList_append, tail]
      decide

end StoreLayout

namespace FileStore

-- An operation fails with no more than what was left around, or does something to a tree with that.
inductive Ends (l : StoreLayout) (done : FileTree → FileTree → Prop) (t : FileTree) :
    Except StoreError Unit × FileStore → Prop
  | failed (e : StoreError) : t.Litters u → Ends l done t (.error e, ⟨l, u⟩)
  | done : t.Litters u → done u w → Ends l done t (.ok (), ⟨l, w⟩)

-- A file is written, of a profile with a name that is accepted,
def Writes (path : String) (u w : FileTree) : Prop :=
  ∃ place content, u.target path = .ok place ∧ w = u.put place (.file content)

def WritesProfile (l : StoreLayout) (v : Version) (id : ProfileId) (u w : FileTree) : Prop :=
  checkProfileName id = .ok () ∧ Writes (l.profileFile v.text id) u w

-- or the file of such a profile is removed.
def RemovesProfile (l : StoreLayout) (v : Version) (id : ProfileId) (u w : FileTree) : Prop :=
  checkProfileName id = .ok () ∧ ∃ place content,
    u.locate (l.profileFile v.text id) = .ok (place, .file content) ∧ w = { u with entries := u.entries.erase place }

variable {l : StoreLayout} {t u : FileTree} {path : String} {done : FileTree → FileTree → Prop}
  {step : FileStore → Except StoreError Unit × FileStore}

theorem Ends.after {out : Except StoreError Unit × FileStore} (ends : Ends l done u out) (litters : t.Litters u) :
    Ends l done t out := by
  cases ends with
  | failed e more => exact .failed e (litters.trans more)
  | done more act => exact .done (litters.trans more) act

theorem Ends.andThen {first : Except StoreError Unit × FileStore} (ends : Ends l Litters t first)
    (next : ∀ u, Ends l done u (step ⟨l, u⟩)) : Ends l done t (andThen first step) := by
  cases ends with
  | failed e litters => exact .failed e litters
  | done litters more => exact (next _).after (litters.trans more)

theorem ends_commit {x : Except FileFault FileTree} (act : ∀ w, x = .ok w → done t w) :
    Ends l done t (commit ⟨l, t⟩ x) := by
  cases x with
  | error fault => exact .failed _ (.refl t)
  | ok w => exact .done (.refl t) (act w rfl)

theorem ends_makeFolders (path : String) : Ends l Litters t (makeFolders ⟨l, t⟩ path) := by
  have litters := litters_makeFolders t path
  unfold makeFolders onTree
  dsimp only
  generalize t.makeFolders path = made at litters
  obtain ⟨outcome, u⟩ := made
  cases outcome with
  | error fault => exact .failed _ litters
  | ok _ => exact .done litters (.refl u)

theorem ends_takeLock : Ends l Litters t (takeLock ⟨l, t⟩) := by
  apply (ends_makeFolders l.storeFolder).andThen
  intro u
  apply ends_commit
  intro w touched
  have solid : Solid ".lock" := by decide
  exact litters_touch solid l.storeFolder_ne_empty l.storeFolder_last stray_lock touched

theorem ends_locked (check : FileStore → Except StoreError Unit) (next : ∀ u, Ends l done u (step ⟨l, u⟩)) :
    Ends l done t (locked ⟨l, t⟩ check step) := by
  apply ends_takeLock.andThen
  intro u
  split
  · exact .failed _ (.refl u)
  · exact next u

theorem ends_named (id : ProfileId) {out : Except StoreError Unit × FileStore}
    (next : checkProfileName id = .ok () → Ends l done t out) : Ends l done t (named ⟨l, t⟩ id out) := by
  cases checked : checkProfileName id with
  | error fault =>
      rw [named_error checked]
      exact .failed _ (.refl t)
  | ok _ =>
      rw [named_ok checked]
      exact next checked

theorem writes_replace (replaced : t.replace path content = .ok u) : Writes path t u := by
  obtain ⟨place, aimed, same⟩ := put_of_replace replaced
  exact ⟨place, content, aimed, same⟩

theorem ends_addVersion (now : String) (v : Version) (attributes : Attributes) :
    Ends l (Writes (l.versionDocument v.text)) t (addVersion ⟨l, t⟩ now v attributes) := by
  apply ends_locked
  intro u
  apply (ends_makeFolders _).andThen
  intro u
  exact ends_commit fun w => writes_replace

theorem ends_writeProfile {p : Profile} (checked : checkProfileName p.identity = .ok ()) (now : String) :
    Ends l (WritesProfile l p.version p.identity) t (writeProfile ⟨l, t⟩ now p) := by
  apply (ends_makeFolders _).andThen
  intro u
  exact ends_commit fun w replaced => ⟨checked, writes_replace replaced⟩

theorem ends_addProfile (now : String) (p : Profile) :
    Ends l (WritesProfile l p.version p.identity) t (addProfile ⟨l, t⟩ now p) :=
  ends_named p.identity fun checked => ends_locked _ fun _ => ends_writeProfile checked now

theorem ends_updateProfile (now : String) (p : Profile) :
    Ends l (WritesProfile l p.version p.identity) t (updateProfile ⟨l, t⟩ now p) :=
  ends_named p.identity fun checked => ends_locked _ fun _ => ends_writeProfile checked now

theorem ends_removeProfile (v : Version) (id : ProfileId) :
    Ends l (RemovesProfile l v id) t (removeProfile ⟨l, t⟩ v id) := by
  apply ends_named
  intro checked
  apply ends_locked
  intro u
  apply ends_commit
  intro w removed
  obtain ⟨⟨place, entry⟩, found, rest⟩ := bind_eq_ok.mp removed
  cases entry with
  | folder => cases throw_eq_ok.mp rest
  | file content => exact ⟨checked, place, content, found, (pure_eq_ok.mp rest).symm⟩

end FileStore
end ContainerProfiles
