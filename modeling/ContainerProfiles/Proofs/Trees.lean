import ContainerProfiles.Proofs.Paths
import Mathlib.Data.List.Induction
import Mathlib.Data.List.Nodup

namespace ContainerProfiles

-- Folders and files below a root. What is written there changes nothing on the way to the root, so the root leads
-- to the same folder for good, and every operation on a path below it is one on the names alone.

def pathOf (root : String) (names : List String) : String := names.foldl joinPath root

theorem pathOf_snoc (root : String) (names : List String) (name : String) :
    pathOf root (names ++ [name]) = joinPath (pathOf root names) name := by
  simp [pathOf]

theorem pathOf_ne_empty {root : String} (begun : root ≠ "") {names : List String}
    (solid : ∀ name ∈ names, Solid name) : pathOf root names ≠ "" := by
  induction names generalizing root with
  | nil => exact begun
  | cons name names ih =>
      exact ih (joinPath_ne_empty (solid name List.mem_cons_self) begun)
        fun other member => solid other (.tail _ member)

-- What a path has to be like to be looked up at all.
structure Sayable (path : String) : Prop where
  plain : '\x00' ∉ path.toList
  short : path.utf8ByteSize ≤ FileTree.longestPath

theorem Sayable.front {path name : String} (sayable : Sayable (joinPath path name)) (solid : Solid name)
    (begun : path ≠ "") : Sayable path := by
  refine ⟨fun nul => sayable.plain (mem_of_mem_path solid begun nul), ?_⟩
  have longer := le_size_joinPath solid begun
  have short := sayable.short
  omega

namespace FileTree

variable {t u : FileTree} {root path name : String} {base names here : Path}

def start (t : FileTree) (path : String) : Path :=
  if path.toList.head? = some '/' then [] else t.workingFolder

theorem begin?_ok (begun : path ≠ "") (sayable : Sayable path) :
    t.begin? path = .ok (t.start path, Text.pieces '/' path) := by
  have plain : path.toList.contains '\x00' = false := by simpa using sayable.plain
  have short : ¬ longestPath < path.utf8ByteSize := Nat.not_lt.mpr sayable.short
  unfold begin? start
  rw [plain, if_neg Bool.false_ne_true, if_neg begun, if_neg short]

theorem sayable_of_begin? (opened : t.begin? path = .ok pair) : path ≠ "" ∧ Sayable path := by
  unfold begin? at opened
  split at opened
  · cases opened
  · rename_i plain
    split at opened
    · cases opened
    · rename_i begun
      split at opened
      · cases opened
      · rename_i short
        exact ⟨begun, by simpa using plain, Nat.not_lt.mp short⟩

theorem replace_nul (nul : '\x00' ∈ path.toList) (content : String) :
    t.replace path content = .error .unfit := by
  have refused : t.begin? path = .error .nulInName := if_pos (by simpa using nul)
  unfold replace write target spot
  rw [refused]
  rfl

-- The way along the names of a path, with no look at how long it is.
def trail (t : FileTree) (path : String) : Except FileFault Path :=
  (stem path).foldlM t.step (t.start path)

theorem trail_joinPath (solid : Solid name) (begun : path ≠ "") :
    t.trail (joinPath path name) = t.trail path >>= fun here => t.step here name := by
  unfold trail start
  rw [stem_joinPath solid begun, joinPath_head solid begun, List.foldlM_append]
  congr 1
  funext here
  simp

theorem spot_joinPath (solid : Solid name) (begun : path ≠ "") (sayable : Sayable (joinPath path name)) :
    t.spot (joinPath path name) = t.trail path >>= fun folder =>
      if t.entry? folder = some .folder then .ok ⟨folder, name, false⟩ else .error .notFolder := by
  have trimmed : ((stem path ++ [name]).reverse.dropWhile (· = "")).reverse = stem path ++ [name] := by
    rw [List.reverse_append, List.reverse_singleton, List.singleton_append,
      List.dropWhile_cons_of_neg (by simpa using solid.ne_empty)]
    simp
  have begins : t.start (joinPath path name) = t.start path := by
    unfold start
    rw [joinPath_head solid begun]
  unfold spot trail
  rw [begin?_ok (joinPath_ne_empty solid begun) sayable, pieces_joinPath solid begun, begins]
  simp only [bind, Except.bind, trimmed, List.dropLast_concat, List.getLastD_concat, Nat.lt_irrefl,
    decide_false]
  rfl

theorem step_empty (t : FileTree) (here : Path) :
    t.step here "" = .ok here ∨ ∃ fault, t.step here "" = .error fault := by
  unfold step
  split
  · exact .inr ⟨_, rfl⟩
  · exact .inr ⟨_, rfl⟩
  · exact .inl (if_pos rfl)

theorem locate_eq_ok {entry : FileEntry} (begun : path ≠ "") (sayable : Sayable path)
    (last : path.toList.getLast? ≠ some '/') :
    t.locate path = .ok (here, entry) ↔ t.trail path = .ok here ∧ t.entry? here = some entry := by
  have pieces : stem path = Text.pieces '/' path := if_neg last
  unfold locate trail
  rw [begin?_ok begun sayable, pieces, bind_eq_ok]
  constructor
  · rintro ⟨_, same, rest⟩
    cases same
    obtain ⟨p, walked, found⟩ := bind_eq_ok.mp rest
    split at found
    · rename_i present
      cases pure_eq_ok.mp found
      exact ⟨walked, present⟩
    · cases throw_eq_ok.mp found
  · rintro ⟨walked, present⟩
    refine ⟨_, rfl, bind_eq_ok.mpr ⟨here, walked, ?_⟩⟩
    rw [present]
    rfl

-- With a slash at the end the way is the same, and leads to a folder.
theorem trail_of_locate {entry : FileEntry} (found : t.locate path = .ok (here, entry)) :
    t.trail path = .ok here ∧ t.entry? here = some entry := by
  obtain ⟨⟨begin, pieces⟩, opened, _⟩ := bind_eq_ok.mp found
  obtain ⟨begun, sayable⟩ := sayable_of_begin? opened
  by_cases last : path.toList.getLast? = some '/'
  · obtain ⟨cs, spelled⟩ := List.getLast?_eq_some_iff.mp last
    have parted : Text.pieces '/' path = stem path ++ [""] := by
      have whole : path = String.ofList (cs ++ ['/']) := by rw [← spelled, String.ofList_toList]
      unfold stem
      rw [if_pos last, whole, pieces_snoc_slash, List.dropLast_concat]
    unfold locate at found
    rw [begin?_ok begun sayable, parted] at found
    obtain ⟨_, same, rest⟩ := bind_eq_ok.mp found
    cases same
    obtain ⟨p, walked, looked⟩ := bind_eq_ok.mp rest
    rw [List.foldlM_append, bind_eq_ok] at walked
    obtain ⟨q, along, ended⟩ := walked
    have stays : p = q := by
      rw [List.foldlM_cons, bind_eq_ok] at ended
      obtain ⟨r, stepped, same⟩ := ended
      cases pure_eq_ok.mp same
      rcases t.step_empty q with still | ⟨fault, refused⟩
      · exact Except.ok.inj (stepped.symm.trans still)
      · cases stepped.symm.trans refused
    subst stays
    split at looked
    · rename_i present
      cases pure_eq_ok.mp looked
      exact ⟨along, present⟩
    · cases throw_eq_ok.mp looked
  · exact (locate_eq_ok begun sayable last).mp found

theorem sayable_of_locate {entry : FileEntry} (found : t.locate path = .ok (here, entry)) :
    path ≠ "" ∧ Sayable path := by
  obtain ⟨_, opened, _⟩ := bind_eq_ok.mp found
  exact sayable_of_begin? opened

theorem step_eq_ok (solid : Solid name) {p : Path} :
    t.step here name = .ok p ↔ t.entry? here = some .folder ∧ nameFits name ∧
      t.entries.contains (here ++ [name]) ∧ p = here ++ [name] := by
  unfold step
  rw [solid.moves, if_neg Bool.false_ne_true, if_neg solid.down]
  split
  · simp_all
  · simp_all
  · rename_i folder
    rw [folder]
    split
    · rename_i long
      have unfit : nameFits name = false := by simpa using long
      simp [unfit]
    · rename_i fits
      have fit : nameFits name := by simpa using fits
      split
      · rename_i present
        simp [fit, present, eq_comm]
      · rename_i absent
        simp [absent]

def below (t : FileTree) (base names : Path) : Option FileEntry := t.entry? (base ++ names)

theorem below_cons (t : FileTree) (base : Path) (name : String) (rest : Path) :
    t.below base (name :: rest) = t.entries.get? (base ++ name :: rest) := by
  unfold below entry?
  exact if_neg (by simp)

theorem below_snoc (t : FileTree) (base names : Path) (name : String) :
    t.below base (names ++ [name]) = t.entries.get? (base ++ names ++ [name]) := by
  unfold below entry?
  rw [if_neg (by simp), List.append_assoc]

theorem contains_of_below {entry : FileEntry} (present : t.below base (names ++ [name]) = some entry) :
    t.entries.contains (base ++ names ++ [name]) :=
  Dict.contains_iff.mpr ⟨entry, below_snoc .. ▸ present⟩

theorem contains_of_not_below (absent : t.below base (names ++ [name]) = none) :
    t.entries.contains (base ++ names ++ [name]) = false :=
  Dict.contains_false.mpr (below_snoc .. ▸ absent)

-- The root leads to the folder, and led there before anything was below it.
def Rooted (t : FileTree) (root : String) (base : Path) : Prop :=
  ∃ before : FileTree, before.locate root = .ok (base, .folder) ∧
    (∀ name rest, before.entries.get? (base ++ name :: rest) = none) ∧
    t.workingFolder = before.workingFolder ∧
    ∀ p, (∀ name rest, p ≠ base ++ name :: rest) → t.entries.get? p = before.entries.get? p

theorem rooted_of_empty (found : t.locate root = .ok (base, .folder))
    (empty : ∀ name rest, t.entries.get? (base ++ name :: rest) = none) : t.Rooted root base :=
  ⟨t, found, empty, rfl, fun _ _ => rfl⟩

theorem Rooted.change (rooted : t.Rooted root base) (working : u.workingFolder = t.workingFolder)
    (outside : ∀ p, (∀ name rest, p ≠ base ++ name :: rest) → u.entries.get? p = t.entries.get? p) :
    u.Rooted root base := by
  obtain ⟨before, found, empty, same, unchanged⟩ := rooted
  exact ⟨before, found, empty, working.trans same, fun p out =>
    (outside p out).trans (unchanged p out)⟩

theorem Rooted.put (rooted : t.Rooted root base) {spot : Path} (inner : spot ≠ []) (entry : FileEntry) :
    (t.put (base ++ spot) entry).Rooted root base := by
  obtain ⟨name, rest, rfl⟩ := List.exists_cons_of_ne_nil inner
  refine rooted.change rfl fun p out => ?_
  unfold FileTree.put
  rw [Dict.get?_insert, if_neg (out name rest)]

theorem Rooted.erase (rooted : t.Rooted root base) {spot : Path} (inner : spot ≠ []) :
    ({ t with entries := t.entries.erase (base ++ spot) } : FileTree).Rooted root base := by
  obtain ⟨name, rest, rfl⟩ := List.exists_cons_of_ne_nil inner
  refine rooted.change rfl fun p out => ?_
  rw [Dict.get?_erase, if_neg (out name rest)]

theorem Rooted.without (rooted : t.Rooted root base) {spot : Path} (inner : spot ≠ []) :
    ({ t with entries := t.entries.filter (fun q _ => !(base ++ spot).isPrefixOf q) } : FileTree).Rooted
      root base := by
  obtain ⟨name, rest, rfl⟩ := List.exists_cons_of_ne_nil inner
  refine rooted.change rfl fun p out => ?_
  have kept : (base ++ name :: rest).isPrefixOf p = false := by
    rw [Bool.eq_false_iff]
    intro isFront
    obtain ⟨tail, rfl⟩ := List.isPrefixOf_iff_prefix.mp isFront
    exact out name (rest ++ tail) (by simp)
  rw [Dict.get?_filter, kept]
  cases t.entries.get? p <;> rfl

theorem below_put (t : FileTree) (base : Path) {spot : Path} (inner : spot ≠ []) (entry : FileEntry)
    (names : Path) : (t.put (base ++ spot) entry).below base names =
      if names = spot then some entry else t.below base names := by
  cases names with
  | nil =>
      rw [if_neg (Ne.symm inner)]
      unfold below entry? FileTree.put
      rw [Dict.get?_insert]
      simp [inner]
  | cons other others =>
      rw [below_cons, below_cons]
      unfold FileTree.put
      rw [Dict.get?_insert]
      simp

theorem below_erase (t : FileTree) (base : Path) {spot : Path} (inner : spot ≠ []) (names : Path) :
    ({ t with entries := t.entries.erase (base ++ spot) } : FileTree).below base names =
      if names = spot then none else t.below base names := by
  cases names with
  | nil =>
      rw [if_neg (Ne.symm inner)]
      unfold below entry?
      rw [Dict.get?_erase]
      simp [inner]
  | cons other others =>
      rw [below_cons, below_cons, Dict.get?_erase]
      simp

theorem below_without (t : FileTree) (base : Path) {spot : Path} (inner : spot ≠ []) (names : Path) :
    ({ t with entries := t.entries.filter (fun q _ => !(base ++ spot).isPrefixOf q) } : FileTree).below
      base names = if spot <+: names then none else t.below base names := by
  have same : ∀ rest : Path, (base ++ spot).isPrefixOf (base ++ rest) = true ↔ spot <+: rest := by
    intro rest
    rw [List.isPrefixOf_iff_prefix, List.prefix_append_right_inj]
  cases names with
  | nil =>
      have out : ¬ spot <+: [] := fun none => inner (List.prefix_nil.mp none)
      have kept := (same []).not.mpr out
      rw [if_neg out]
      unfold below entry?
      rw [Dict.get?_filter, Bool.eq_false_iff.mpr kept]
      cases t.entries.get? (base ++ []) <;> rfl
  | cons other others =>
      rw [below_cons, below_cons, Dict.get?_filter]
      split
      · rename_i under
        rw [(same _).mpr under]
        cases t.entries.get? (base ++ other :: others) <;> rfl
      · rename_i out
        rw [Bool.eq_false_iff.mpr ((same _).not.mpr out)]
        cases t.entries.get? (base ++ other :: others) <;> rfl

theorem Rooted.sayable (rooted : t.Rooted root base) : root ≠ "" ∧ Sayable root := by
  obtain ⟨before, found, _⟩ := rooted
  exact sayable_of_locate found

-- Whatever is there is also there in the other tree.
def Within (t u : FileTree) : Prop := ∀ p entry, t.entries.get? p = some entry → u.entries.get? p = some entry

theorem Within.entry? {entry : FileEntry} (within : t.Within u) (present : t.entry? here = some entry) :
    u.entry? here = some entry := by
  unfold FileTree.entry? at present ⊢
  split at present
  · rename_i top
    rw [if_pos top]
    exact present
  · rename_i inner
    rw [if_neg inner]
    exact within here entry present

theorem Within.step {next : Path} (within : t.Within u) (walked : t.step here name = .ok next) :
    u.step here name = .ok next := by
  unfold FileTree.step at walked ⊢
  split at walked
  · cases walked
  · cases walked
  · rename_i folder
    rw [within.entry? folder]
    dsimp only
    have inside : t.entries.contains (here ++ [name]) → u.entries.contains (here ++ [name]) := by
      intro present
      obtain ⟨entry, found⟩ := Dict.contains_iff.mp present
      exact Dict.contains_iff.mpr ⟨entry, within _ _ found⟩
    grind

theorem Within.steps (within : t.Within u) {names next : Path} (walked : names.foldlM t.step here = .ok next) :
    names.foldlM u.step here = .ok next := by
  induction names generalizing here with
  | nil => exact walked
  | cons name names ih =>
      rw [List.foldlM_cons, bind_eq_ok] at walked ⊢
      obtain ⟨middle, stepped, rest⟩ := walked
      exact ⟨middle, within.step stepped, ih rest⟩

theorem Rooted.trail (rooted : t.Rooted root base) : t.trail root = .ok base := by
  obtain ⟨before, found, empty, working, unchanged⟩ := rooted
  -- What is met on the way is there, so it is not below the root and has not changed.
  have within : before.Within t := by
    intro p entry present
    rw [unchanged p fun name rest same => ?_, present]
    rw [same, empty] at present
    cases present
  have begins : t.start root = before.start root := by
    unfold start
    rw [working]
  unfold FileTree.trail
  rw [begins]
  exact within.steps (trail_of_locate found).1

theorem Rooted.folder (rooted : t.Rooted root base) : t.entry? base = some .folder := by
  obtain ⟨before, found, empty, _, unchanged⟩ := rooted
  have folder := (trail_of_locate found).2
  unfold entry? at folder ⊢
  split
  · rfl
  · rename_i inner
    rw [if_neg inner] at folder
    rw [unchanged base (fun name rest same => by simp at same), folder]

-- Folders all the way, with names that fit.
structure Paved (t : FileTree) (base names : Path) : Prop where
  solid : ∀ name ∈ names, Solid name
  fits : ∀ name ∈ names, nameFits name
  folders : ∀ front, front <+: names → t.below base front = some .folder

theorem Rooted.paved (rooted : t.Rooted root base) : t.Paved base [] := by
  refine ⟨nofun, nofun, fun front none => ?_⟩
  rw [List.prefix_nil.mp none]
  unfold below
  rw [List.append_nil]
  exact rooted.folder

theorem Paved.front (paved : t.Paved base names) {front : Path} (isFront : front <+: names) :
    t.Paved base front :=
  ⟨fun name member => paved.solid name (isFront.subset member),
    fun name member => paved.fits name (isFront.subset member),
    fun other inner => paved.folders other (inner.trans isFront)⟩

theorem Paved.same (paved : t.Paved base names)
    (unchanged : ∀ front, front <+: names → u.below base front = t.below base front) : u.Paved base names :=
  ⟨paved.solid, paved.fits, fun front isFront => (unchanged front isFront).trans (paved.folders front isFront)⟩

theorem Paved.snoc (paved : t.Paved base names) (solid : Solid name) (fits : nameFits name)
    (folder : t.below base (names ++ [name]) = some .folder) : t.Paved base (names ++ [name]) := by
  refine ⟨fun other member => ?_, fun other member => ?_, fun front isFront => ?_⟩
  · rcases List.mem_append.mp member with old | new
    · exact paved.solid other old
    · exact List.mem_singleton.mp new ▸ solid
  · rcases List.mem_append.mp member with old | new
    · exact paved.fits other old
    · exact List.mem_singleton.mp new ▸ fits
  · rcases List.prefix_concat_iff.mp isFront with rfl | shorter
    · exact folder
    · exact paved.folders front shorter

theorem Paved.folder (paved : t.Paved base names) : t.below base names = some .folder :=
  paved.folders names (List.prefix_refl names)

theorem Paved.put (paved : t.Paved base names) {spot : Path} (inner : spot ≠ []) {entry : FileEntry}
    (aside : ¬ spot <+: names) : (t.put (base ++ spot) entry).Paved base names := by
  refine paved.same fun front isFront => ?_
  rw [below_put _ _ inner, if_neg]
  rintro rfl
  exact aside isFront

theorem trail_paved (rooted : t.Rooted root base) (paved : t.Paved base names) :
    t.trail (pathOf root names) = .ok (base ++ names) := by
  induction names using List.reverseRecOn with
  | nil =>
      rw [List.append_nil]
      exact rooted.trail
  | append_singleton names name ih =>
      have front := paved.front (List.prefix_append names [name])
      have solid := paved.solid name (List.mem_append_right _ (List.mem_singleton_self _))
      have fits := paved.fits name (List.mem_append_right _ (List.mem_singleton_self _))
      have begun := pathOf_ne_empty rooted.sayable.1 front.solid
      have present := contains_of_below paved.folder
      rw [pathOf_snoc, trail_joinPath solid begun, bind_eq_ok]
      refine ⟨_, ih front, (step_eq_ok solid).mpr ⟨front.folder, fits, present, ?_⟩⟩
      rw [List.append_assoc]

-- A path below a root leads down from where the root leads to.
theorem trail_pathOf (begun : root ≠ "") (solid : ∀ name ∈ names, Solid name)
    (walked : t.trail (pathOf root names) = .ok here) :
    ∃ base, t.trail root = .ok base ∧ here = base ++ names := by
  induction names using List.reverseRecOn generalizing here with
  | nil => exact ⟨here, walked, (List.append_nil here).symm⟩
  | append_singleton names name ih =>
      have front : ∀ other ∈ names, Solid other := fun other member =>
        solid other (List.mem_append_left _ member)
      have last := solid name (List.mem_append_right _ (List.mem_singleton_self _))
      rw [pathOf_snoc, trail_joinPath last (pathOf_ne_empty begun front), bind_eq_ok] at walked
      obtain ⟨above, before, stepped⟩ := walked
      obtain ⟨base, rooted, rfl⟩ := ih front before
      obtain ⟨_, _, _, rfl⟩ := (step_eq_ok last).mp stepped
      exact ⟨base, rooted, List.append_assoc ..⟩

-- What a path leads to is there under its names.
theorem below_of_locate {entry : FileEntry} (rooted : t.Rooted root base)
    (solid : ∀ name ∈ names, Solid name) (found : t.locate (pathOf root names) = .ok (here, entry)) :
    here = base ++ names ∧ t.below base names = some entry := by
  obtain ⟨walked, present⟩ := trail_of_locate found
  obtain ⟨_, begun, rfl⟩ := trail_pathOf rooted.sayable.1 solid walked
  cases rooted.trail.symm.trans begun
  exact ⟨rfl, present⟩

theorem below_of_contains (rooted : t.Rooted root base) (solid : ∀ name ∈ names, Solid name)
    (found : t.contains (pathOf root names)) : (t.below base names).isSome := by
  unfold contains at found
  cases located : t.locate (pathOf root names) with
  | error fault =>
      rw [located] at found
      cases found
  | ok pair =>
      obtain ⟨q, entry⟩ := pair
      obtain ⟨_, present⟩ := below_of_locate rooted solid located
      rw [present]
      rfl

-- An entry as it is listed when it stands right in the folder.
def childOf? (folder : Path) (e : Path × FileEntry) : Option (String × FileEntry) :=
  match e.1.getLast? with
  | some name => if e.1 = folder ++ [name] then some (name, e.2) else none
  | none => none

theorem childOf?_eq_some {folder : Path} {d : Path × FileEntry} {e : String × FileEntry} :
    childOf? folder d = some e ↔ d = (folder ++ [e.1], e.2) := by
  obtain ⟨p, entry⟩ := d
  obtain ⟨name, entry'⟩ := e
  unfold childOf?
  dsimp only
  cases last : p.getLast? with
  | none =>
      rw [List.getLast?_eq_none_iff] at last
      subst last
      simp
  | some other =>
      dsimp only
      constructor
      · intro picked
        split at picked
        · rename_i same
          cases picked
          rw [same]
        · cases picked
      · intro same
        cases same
        rw [List.getLast?_concat] at last
        cases last
        simp

theorem list_of_locate {folder : Path} (found : t.locate path = .ok (folder, .folder)) :
    t.list path = .ok (t.entries.entries.filterMap (childOf? folder)) := by
  unfold list
  rw [found]
  rfl

theorem mem_children {folder : Path} {e : String × FileEntry} :
    e ∈ t.entries.entries.filterMap (childOf? folder) ↔ t.entries.get? (folder ++ [e.1]) = some e.2 := by
  rw [List.mem_filterMap]
  constructor
  · rintro ⟨d, member, picked⟩
    rw [childOf?_eq_some.mp picked] at member
    exact Dict.mem_entries.mp member
  · intro found
    exact ⟨_, Dict.mem_entries.mpr found, childOf?_eq_some.mpr rfl⟩

-- Folders lead to where the name belongs, whether anything is there or not.
structure Reaches (t : FileTree) (root : String) (base names : Path) (name : String) : Prop where
  rooted : t.Rooted root base
  paved : t.Paved base names
  solid : Solid name
  fits : nameFits name
  sayable : Sayable (pathOf root (names ++ [name]))

section Operations

variable (reaches : t.Reaches root base names name)

include reaches

theorem Reaches.begun : pathOf root names ≠ "" :=
  pathOf_ne_empty reaches.rooted.sayable.1 reaches.paved.solid

theorem Reaches.moves (p : Path) : Spot.stays ⟨p, name, false⟩ = false := by
  unfold Spot.stays
  rw [reaches.solid.moves, Bool.false_or, decide_eq_false reaches.solid.down]

theorem locate_below {entry : FileEntry} (present : t.below base (names ++ [name]) = some entry) :
    t.locate (pathOf root (names ++ [name])) = .ok (base ++ (names ++ [name]), entry) := by
  have begun := reaches.begun
  have inside := contains_of_below present
  have sayable := reaches.sayable
  rw [pathOf_snoc] at sayable ⊢
  rw [locate_eq_ok (joinPath_ne_empty reaches.solid begun) sayable (joinPath_last reaches.solid begun),
    trail_joinPath reaches.solid begun, bind_eq_ok]
  refine ⟨⟨_, trail_paved reaches.rooted reaches.paved, ?_⟩, present⟩
  refine (step_eq_ok reaches.solid).mpr ⟨reaches.paved.folder, reaches.fits, inside, ?_⟩
  rw [List.append_assoc]

theorem contains_below : t.contains (pathOf root (names ++ [name])) =
    (t.below base (names ++ [name])).isSome := by
  cases present : t.below base (names ++ [name]) with
  | some entry =>
      unfold contains
      rw [locate_below reaches present]
      rfl
  | none =>
      rw [Option.isSome_none, Bool.eq_false_iff]
      intro found
      have inside := below_of_contains reaches.rooted (fun other member => by
        rcases List.mem_append.mp member with old | new
        · exact reaches.paved.solid other old
        · exact List.mem_singleton.mp new ▸ reaches.solid) found
      rw [present] at inside
      cases inside

theorem read_below (present : t.below base (names ++ [name]) = some (.file content)) :
    t.read (pathOf root (names ++ [name])) = .ok content := by
  unfold read
  rw [locate_below reaches present]
  rfl

theorem isFolder_below (present : t.below base (names ++ [name]) = some .folder) :
    t.isFolder (pathOf root (names ++ [name])) := by
  unfold isFolder
  rw [locate_below reaches present]

theorem spot_below : t.spot (pathOf root (names ++ [name])) = .ok ⟨base ++ names, name, false⟩ := by
  have begun := reaches.begun
  have folder : t.entry? (base ++ names) = some .folder := reaches.paved.folder
  have sayable := reaches.sayable
  rw [pathOf_snoc] at sayable ⊢
  rw [spot_joinPath reaches.solid begun sayable, trail_paved reaches.rooted reaches.paved]
  exact if_pos folder

theorem target_below (file : t.below base (names ++ [name]) ≠ some .folder) :
    t.target (pathOf root (names ++ [name])) = .ok (base ++ (names ++ [name])) := by
  have free : ¬ t.entries.get? (Spot.path ⟨base ++ names, name, false⟩) = some .folder := by
    rw [below_snoc] at file
    exact file
  unfold target
  rw [spot_below reaches]
  simp only [bind, Except.bind, reaches.moves, reaches.fits, free, Bool.or_self, Bool.false_eq_true, if_false,
    Bool.not_true]
  exact congrArg Except.ok (List.append_assoc ..)

theorem replace_below (file : t.below base (names ++ [name]) ≠ some .folder) (content : String) :
    t.replace (pathOf root (names ++ [name])) content =
      .ok (t.put (base ++ (names ++ [name])) (.file content)) := by
  unfold replace write
  rw [target_below reaches file]
  rfl

theorem touch_below (file : t.below base (names ++ [name]) ≠ some .folder) :
    ∃ u, t.touch (pathOf root (names ++ [name])) = .ok u ∧
      (u = t ∨ u = t.put (base ++ (names ++ [name])) (.file "")) := by
  unfold touch
  rw [target_below reaches file]
  simp only [bind, Except.bind, pure, Except.pure]
  split
  · exact ⟨t, rfl, .inl rfl⟩
  · exact ⟨_, rfl, .inr rfl⟩

theorem removeFile_below (present : t.below base (names ++ [name]) = some (.file content)) :
    t.removeFile (pathOf root (names ++ [name])) =
      .ok { t with entries := t.entries.erase (base ++ (names ++ [name])) } := by
  unfold removeFile
  rw [locate_below reaches present]
  rfl

theorem removeFolder_below (present : t.below base (names ++ [name]) = some .folder) :
    t.removeFolder (pathOf root (names ++ [name])) = .ok { t with
      entries := t.entries.filter (fun q _ => !(base ++ (names ++ [name])).isPrefixOf q) } := by
  unfold removeFolder
  rw [locate_below reaches present]
  rfl

theorem list_below (present : t.below base (names ++ [name]) = some .folder) :
    ∃ found, t.list (pathOf root (names ++ [name])) = .ok found ∧ found.Nodup ∧
      ∀ e, e ∈ found ↔ t.below base (names ++ [name] ++ [e.1]) = some e.2 := by
  refine ⟨_, list_of_locate (locate_below reaches present), ?_, fun e => ?_⟩
  · refine List.Nodup.filterMap (fun d d' e one two => ?_) (Dict.entries_nodup _)
    rw [childOf?_eq_some.mp one, childOf?_eq_some.mp two]
  · rw [mem_children, below_snoc]

theorem makeFolder_taken (present : t.below base (names ++ [name]) = some .folder) :
    t.makeFolder (pathOf root (names ++ [name])) = .error .taken := by
  have inside : t.entries.contains (Spot.path ⟨base ++ names, name, false⟩) := contains_of_below present
  unfold makeFolder
  rw [spot_below reaches]
  simp only [bind, Except.bind, reaches.moves, reaches.fits, inside, Bool.false_eq_true, if_false, if_true, Bool.not_true]
  rfl

theorem makeFolder_new (absent : t.below base (names ++ [name]) = none) :
    t.makeFolder (pathOf root (names ++ [name])) = .ok (t.put (base ++ (names ++ [name])) .folder) := by
  have free : t.entries.contains (Spot.path ⟨base ++ names, name, false⟩) = false :=
    contains_of_not_below absent
  unfold makeFolder
  rw [spot_below reaches]
  simp only [bind, Except.bind, reaches.moves, reaches.fits, free, Bool.false_eq_true, if_false, Bool.not_true]
  exact congrArg (fun p => Except.ok (t.put p .folder)) (List.append_assoc ..)

theorem makeFolders_present (present : t.below base (names ++ [name]) = some .folder) :
    t.makeFolders (pathOf root (names ++ [name])) = (.ok (), t) := by
  have begun := joinPath_ne_empty reaches.solid (reaches.begun)
  rw [← pathOf_snoc] at begun
  unfold makeFolders
  rw [makeUpTo, if_neg begun, makeFolder_taken reaches present]
  unfold ensure
  dsimp only
  rw [isFolder_below reaches present]
  rfl

theorem parent_joined (inner : Solid last) :
    parent (pathOf root (names ++ [name] ++ [last])) = pathOf root (names ++ [name]) := by
  have begun := reaches.begun
  have begun' := joinPath_ne_empty reaches.solid begun
  have names' : Text.pieces '/' (joinPath (pathOf root names) name) = stem (pathOf root names) ++ [name] :=
    pieces_joinPath reaches.solid begun
  have whole : Text.pieces '/' (pathOf root (names ++ [name] ++ [last])) =
      stem (pathOf root names) ++ [name] ++ [last] := by
    rw [pathOf_snoc, pathOf_snoc, pieces_joinPath inner begun', stem_joinPath reaches.solid begun]
  unfold parent
  dsimp only
  rw [whole, List.reverse_append, List.reverse_singleton, List.singleton_append,
    List.dropWhile_cons_of_neg (by simp [inner.moves]), List.tail_cons, List.reverse_append,
    List.reverse_singleton, List.singleton_append, List.dropWhile_cons_of_neg (by simp [reaches.solid.moves]),
    List.reverse_cons, List.reverse_reverse, ← names', pathOf_snoc]
  apply String.toList_inj.mp
  rw [String.toList_intercalate]
  have spelled : String.toList ∘ String.ofList = id := funext fun _ => String.toList_ofList
  unfold Text.pieces
  rw [List.map_map, spelled, List.map_id]
  exact List.intercalate_splitOn '/'

-- A folder below one that is missing is missed only when its name is looked up.
theorem makeFolder_astray (absent : t.below base (names ++ [name]) = none) (inner : Solid last)
    (sayable : Sayable (pathOf root (names ++ [name] ++ [last]))) :
    t.makeFolder (pathOf root (names ++ [name] ++ [last])) = .error .missing := by
  have lost : t.step (base ++ names) name = .error .missing := by
    have folder : t.entry? (base ++ names) = some .folder := reaches.paved.folder
    have empty := contains_of_not_below absent
    unfold FileTree.step
    rw [folder, reaches.solid.moves, reaches.fits, empty]
    simp [reaches.solid.down]
  have astray : t.spot (pathOf root (names ++ [name] ++ [last])) = .error .missing := by
    rw [pathOf_snoc, pathOf_snoc] at sayable ⊢
    rw [spot_joinPath inner (joinPath_ne_empty reaches.solid reaches.begun) sayable,
      trail_joinPath reaches.solid reaches.begun, trail_paved reaches.rooted reaches.paved]
    change (t.step (base ++ names) name >>= _) = _
    rw [lost]
    rfl
  unfold makeFolder
  rw [astray]
  rfl

theorem Reaches.paved_put : (t.put (base ++ (names ++ [name])) .folder).Paved base (names ++ [name]) := by
  have nonempty : names ++ [name] ≠ [] := by simp
  refine (reaches.paved.put nonempty fun isFront => ?_).snoc reaches.solid reaches.fits ?_
  · have short := isFront.length_le
    rw [List.length_append] at short
    exact Nat.lt_irrefl _ short
  · rw [below_put _ _ nonempty, if_pos rfl]

theorem makeFolders_two (absent : t.below base (names ++ [name]) = none) (inner : Solid last)
    (fits : nameFits last) (sayable : Sayable (pathOf root (names ++ [name] ++ [last])))
    (free : t.below base (names ++ [name] ++ [last]) = none) :
    ∃ u, t.makeFolders (pathOf root (names ++ [name] ++ [last])) = (.ok (), u) ∧ u.Rooted root base ∧
      u.Paved base (names ++ [name] ++ [last]) ∧
      ∀ other, u.below base other = if other = names ++ [name] ++ [last] then some .folder
        else if other = names ++ [name] then some .folder else t.below base other := by
  have nonempty : names ++ [name] ≠ [] := by simp
  have nonempty' : names ++ [name] ++ [last] ≠ [] := by simp
  have outer := joinPath_ne_empty reaches.solid reaches.begun
  have made := makeFolder_new reaches absent
  have reaches' : (t.put (base ++ (names ++ [name])) .folder).Reaches root base (names ++ [name]) last :=
    ⟨reaches.rooted.put nonempty .folder, reaches.paved_put, inner, fits, sayable⟩
  have made' := makeFolder_new reaches' (by rw [below_put _ _ nonempty, if_neg (by simp), free])
  have fuel : ∃ n, (Text.pieces '/' (pathOf root (names ++ [name] ++ [last]))).length = n + 1 := by
    rw [pathOf_snoc, pathOf_snoc, pieces_joinPath inner outer]
    exact ⟨_, List.length_append⟩
  obtain ⟨n, size⟩ := fuel
  refine ⟨_, ?_, reaches'.rooted.put nonempty' .folder, reaches'.paved_put, fun other => ?_⟩
  · unfold makeFolders
    rw [size, makeUpTo, if_neg (by rw [pathOf_snoc, pathOf_snoc]; exact joinPath_ne_empty inner outer),
      makeFolder_astray reaches absent inner sayable]
    dsimp only
    rw [parent_joined reaches inner, makeUpTo, if_neg (by rw [pathOf_snoc]; exact outer), made]
    dsimp only [ensure]
    rw [made']
  · rw [below_put _ _ nonempty', below_put _ _ nonempty]

end Operations
end FileTree
end ContainerProfiles
