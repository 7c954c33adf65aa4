import ContainerProfiles.CommandLine.Run
import ContainerProfiles.Proofs.HousedStarts
import ContainerProfiles.Proofs.Litter

namespace ContainerProfiles

-- Commands on a store, one after another. Whatever the settings, whether the command succeeds or not, and also if
-- it is a start that fails, the store can be opened again and its profiles fit together.

open FileTree StoreLayout
open Store (Housed)

variable {l : StoreLayout} {t u : FileTree} {base : Path} {m n : MemoryStore} {v w : Version}

namespace Store

variable {s : Store}

-- Versions and their profiles read as in the memory.
def Reads (s : Store) (m : MemoryStore) : Prop :=
  ∀ v, s.version? v = .ok (m.version? v) ∧ s.profiles v = (Store.memory m).profiles v

theorem Housed.reads (housed : Housed l base s m) : s.Reads m :=
  fun v => ⟨housed.reflects.version? v, housed.reflects.profiles v⟩

theorem profiles_absent (absent : s.version? v = .ok none) : s.profiles v = .error (.versionNotFound v) := by
  unfold Store.profiles
  rw [absent]
  rfl

end Store

namespace StoreLayout

theorem Roomy.versionsFolder (roomy : l.Roomy) : l.versionsFolder.utf8ByteSize ≤ longestPath :=
  Nat.le_trans (Nat.le_add_right ..) roomy.room

theorem Vacant.version? (vacant : l.Vacant t base) (v : Version) : (Store.files ⟨l, t⟩).version? v = .ok none := by
  obtain ⟨u, made, rooted, _, alone⟩ := vacant
  have known : "version.json" ∈ fixedNames := by simp [fixedNames]
  have litters := litters_makeFolders t l.versionsFolder
  rw [made] at litters
  have missing : t.contains (l.versionDocument v.text) = false := by
    refine Bool.eq_false_iff.mpr fun present => ?_
    have found := litters.contains present
    rw [versionDocument_eq] at found
    have inside := below_of_contains rooted (fun name member =>
      (proper_snoc (versionPath_proper v) (fixedNames_proper _ known) name member).solid) found
    have deep : ¬ versionPath v.text ++ ["version.json"] <+: versionsPath := fun isFront =>
      absurd isFront.length_le (by simp [versionPath, versionsPath])
    rw [alone _ deep] at inside
    cases inside
  unfold Store.version? FileStore.version? FileStore.versionDocument? FileStore.contains
  dsimp only
  rw [missing]
  rfl

-- A store that fits together is on the tree, or there is a place for one.
inductive Opens (l : StoreLayout) (t : FileTree) : Prop
  | vacant {base : Path} : l.Vacant t base → Opens l t
  | housed {base : Path} {m : MemoryStore} : Housed l base (.files ⟨l, t⟩) m → Opens l t

-- The store that is opened holds what was there.
theorem Opens.opened (opens : l.Opens t) (roomy : l.Roomy) :
    ∃ u base m, FileStore.prepare ⟨l, t⟩ = (.ok (), ⟨l, u⟩) ∧ Housed l base (.files ⟨l, u⟩) m ∧
      (Store.files ⟨l, t⟩).Reads m := by
  cases opens with
  | @vacant base vacant =>
      obtain ⟨u, prepared, mirrors⟩ := vacant.opened roomy.versionsFolder
      refine ⟨u, base, {}, prepared, ⟨.intro mirrors, MemoryStore.sound_empty⟩, fun v => ⟨vacant.version? v, ?_⟩⟩
      have absent : (Store.memory {}).version? v = .ok none := rfl
      exact (Store.profiles_absent (vacant.version? v)).trans (Store.profiles_absent absent).symm
  | @housed base m housed =>
      obtain ⟨_, same, mirrors⟩ := housed.files
      cases same
      exact ⟨t, base, m, mirrors.prepare, housed, housed.reads⟩

end StoreLayout

namespace CommandLine

open Deployment (Leaves)

variable {c : Context} {s : Deployment}

theorem treeOf_eq (files : s.store = .files ⟨l, t⟩) : treeOf s = t := by
  unfold treeOf
  rw [files]

theorem opens_treeOf (housed : Housed l base s.store m) : l.Opens (treeOf s) := by
  obtain ⟨t, files, _⟩ := housed.files
  rw [treeOf_eq files]
  exact .housed (files ▸ housed)

theorem build_eq_ok {settings : Settings} {store : Store} {supplied : Provisioner} {audience : Audience}
    (built : Deployment.build settings store supplied audience time = .ok s) :
    s.store = store ∧ s.settings = settings ∧ settings.version = .ok s.defaultVersion ∧ s.Unlocked := by
  have unlocked := Deployment.unlocked_of_build built
  simp only [Deployment.build, bind_eq_ok, pure_eq_ok] at built
  obtain ⟨_, _, _, version, rfl⟩ := built
  exact ⟨rfl, rfl, version, unlocked⟩

-- What a command does once it has a deployment: the store stays one that fits together.
def Keeps (l : StoreLayout) (rest : Deployment → Except CommandError Exit × Deployment) : Prop :=
  ∀ s base m, Housed l base s.store m → ∃ n, Housed l base (rest s).2.store n

theorem keeps_of_leaves {α : Type} {makes : α → MemoryStore → Prop} {out : Outcome α}
    (leaves : Leaves l base makes out) : ∃ n, Housed l base out.2.store n := by
  obtain ⟨n, housed, _⟩ := leaves
  exact ⟨n, housed⟩

theorem keeps_looking (look : Deployment → Except OperationError Exit) : Keeps l fun s => looking s (look s) :=
  fun _ _ m housed => ⟨m, housed⟩

theorem getProfiles_housed (housed : Housed l base s.store m) {me : Thread} {profiles : List Profile}
    (got : s.getProfiles me w = .ok profiles) :
    ∃ entry, m.versions.get? w = some entry ∧ profiles = entry.profiles.values := by
  simp only [Deployment.getProfiles, bind_eq_ok, pure_eq_ok,
    Deployment.load_iff housed.reflects housed.keyed] at got
  obtain ⟨_, _, _, ⟨entry, found, rfl⟩, rfl⟩ := got
  exact ⟨entry, found, rfl⟩

-- There are files for the profiles that are copied, so there can be files for the copies.
theorem copiedProfiles_named (housed : Housed l base s.store m) {source : Option String} {seed : List Profile}
    (copied : copiedProfiles s v source = .ok seed) : ∀ p ∈ seed, Named p.identity := by
  cases source with
  | none =>
      cases copied
      exact fun p listed => absurd listed List.not_mem_nil
  | some source =>
      simp only [copiedProfiles, bind_eq_ok, mapError_eq_ok, pure_eq_ok] at copied
      obtain ⟨w, _, profiles, got, rfl⟩ := copied
      obtain ⟨entry, found, rfl⟩ := getProfiles_housed housed got
      intro p member
      obtain ⟨q, original, rfl⟩ := List.mem_map.mp member
      obtain ⟨id, stored⟩ := Dict.mem_values.mp original
      have named := housed.named found (Dict.contains_iff.mpr ⟨q, stored⟩)
      rwa [← (housed.sound w entry found).keyed id q stored] at named

section Roomy

variable (roomy : l.Roomy)

include roomy

theorem keeps_addVersion (c : Context) (v : Version) (source : Option String) : Keeps l (addVersion c v source) := by
  intro s base m housed
  unfold addVersion
  cases copied : copiedProfiles s v source with
  | error e => exact ⟨m, housed⟩
  | ok seed => exact keeps_of_leaves (Deployment.addVersion_leaves roomy housed mainThread _
      (copiedProfiles_named housed copied))

theorem keeps_removeVersion (c : Context) (v : Version) : Keeps l (removeVersion c v) :=
  fun _ _ _ housed => keeps_of_leaves (Deployment.removeVersion_leaves roomy housed mainThread v)

theorem keeps_removeProfile (c : Context) (v : Version) (id : ProfileId) : Keeps l (removeProfile c v id) :=
  fun _ _ _ housed => keeps_of_leaves (Deployment.removeProfile_leaves roomy housed mainThread v id)

theorem importProfile_keeps (housed : Housed l base s.store m) (update : Bool) (p : Profile) :
    ∃ n, Housed l base (importProfile s update p).2.store n := by
  unfold importProfile
  split
  · exact ⟨m, housed⟩
  · split
    · exact keeps_of_leaves (Deployment.updateProfile_leaves roomy housed mainThread p none)
    · exact keeps_of_leaves (Deployment.addProfile_leaves roomy housed mainThread p)

theorem importFiles_keeps (housed : Housed l base s.store m) (update : Bool) (fallback : Option Version)
    (done : List Profile) (files : List String) :
    ∃ n, Housed l base (importFiles update fallback done s files).2.store n := by
  induction files generalizing s m done with
  | nil => exact ⟨m, housed⟩
  | cons file rest ih =>
      unfold importFiles
      split
      · exact ⟨m, housed⟩
      · rename_i p _
        have next := importProfile_keeps roomy housed update p
        rcases imports : importProfile s update p with ⟨outcome, t⟩
        rw [imports] at next
        obtain ⟨n, still⟩ := next
        cases outcome with
        | error e => exact ⟨n, still⟩
        | ok q => exact ih still _

theorem keeps_importFiles (c : Context) (update : Bool) (fallback : Option Version) (files : List String) :
    Keeps l fun s =>
      let (outcome, s) := importFiles update fallback [] s files
      (outcome.map (imported c), s) :=
  fun _ _ _ housed => importFiles_keeps roomy housed update fallback [] files

end Roomy

theorem dryRun_store (v : Version) (ids : List ProfileId) (s : Deployment) : (dryRun v ids s).2.store = s.store := by
  refine Deployment.andThen_keeps (P := fun t => t.store = s.store) (Deployment.create_beside ..).store fun _ t same => ?_
  have started := (t.startContainer_assigns mainThread dryRunContainer (some watcher)).beside.store
  dsimp only
  split
  · exact started.trans same
  · refine Deployment.andThen_keeps (P := fun t => t.store = s.store) ?_ fun _ _ same => same
    exact (Deployment.destroy_beside ..).store.trans (started.trans same)

theorem keeps_dryRun (c : Context) (v : Version) (ids : List ProfileId) :
    Keeps l fun s => acting (dryRunExit c) (dryRun v ids s) :=
  fun s _ m housed => ⟨m, (dryRun_store v ids s).symm ▸ housed⟩

section Commands

variable (roomy : l.Roomy) (opens : l.Opens t) (here : c.store = l.root)

include roomy opens here

omit opens here in
theorem start_of_build {supplied : Provisioner} (housed : Housed l base (.files ⟨l, u⟩) m)
    (built : Deployment.build c.settings (.files ⟨l, u⟩) supplied {} c.clock = .ok s) :
    ∃ n, Housed l base (s.start mainThread).2.store n := by
  obtain ⟨files, _⟩ := build_eq_ok built
  exact keeps_of_leaves (Deployment.start_leaves roomy (files ▸ housed) mainThread)

theorem started_opens (supplied : Provisioner) {rest : Deployment → Except CommandError Exit × Deployment}
    (keeps : Keeps l rest) : l.Opens (started c supplied t rest).2 := by
  obtain ⟨u, base, m, prepared, housed, _⟩ := opens.opened roomy
  unfold started openStore
  rw [here, prepared]
  dsimp only
  cases built : Deployment.build c.settings (.files ⟨l, u⟩) supplied {} c.clock with
  | error e => exact .housed housed
  | ok s =>
      obtain ⟨n, still⟩ := start_of_build roomy housed built
      dsimp only
      rcases starts : s.start mainThread with ⟨outcome, d⟩
      rw [starts] at still
      cases outcome with
      | error e => exact opens_treeOf still
      | ok root =>
          obtain ⟨k, kept⟩ := keeps d base n still
          exact opens_treeOf kept

theorem bare_opens {rest : Deployment → Except CommandError Exit × Deployment} (keeps : Keeps l rest) :
    l.Opens (bare c t rest).2 := started_opens roomy opens here {} keeps

omit roomy here in
theorem onVersion_opens (version : String) {run : Version → Ran} (each : ∀ v, l.Opens (run v).2) :
    l.Opens (onVersion t version run).2 := by
  unfold onVersion
  split
  · exact opens
  · exact each _

-- A dry run opens the store twice, and what the first start made sure of is there for the second.
theorem provision_opens (v : Version) (ids : List ProfileId) (runtime : Option String) :
    l.Opens (provision c t v ids runtime).2 := by
  unfold provision
  cases chosen : withRuntime c runtime with
  | error e => exact opens
  | ok dry =>
      have there : dry.store = l.root := by
        unfold withRuntime at chosen
        split at chosen
        · cases chosen
          exact here
        · split at chosen
          · cases chosen
            exact here
          · cases chosen
      obtain ⟨u, base, m, prepared, housed, _⟩ := opens.opened roomy
      unfold openStore
      rw [here, prepared]
      dsimp only
      cases built : Deployment.build c.settings (.files ⟨l, u⟩) {} {} c.clock with
      | error e => exact .housed housed
      | ok s =>
          obtain ⟨n, still⟩ := start_of_build roomy housed built
          dsimp only
          rcases starts : s.start mainThread with ⟨outcome, d⟩
          rw [starts] at still
          cases outcome with
          | error e => exact opens_treeOf still
          | ok root =>
              dsimp only [Deployment.andThen]
              cases offered d v with
              | error e => exact opens_treeOf still
              | ok resources =>
                  exact started_opens roomy (opens_treeOf still) there _ (keeps_dryRun dry v ids)

theorem runCommand_opens (command : Command) : l.Opens (runCommand c t command).2 := by
  cases command with
  | versions =>
      rw [runCommand]
      exact bare_opens roomy opens here (keeps_looking _)
  | addVersion version source =>
      rw [runCommand]
      exact onVersion_opens opens version fun v =>
        bare_opens roomy opens here (keeps_addVersion roomy c v source)
  | removeVersion version =>
      rw [runCommand]
      exact onVersion_opens opens version fun v => bare_opens roomy opens here (keeps_removeVersion roomy c v)
  | profiles version =>
      rw [runCommand]
      exact onVersion_opens opens version fun v => bare_opens roomy opens here (keeps_looking _)
  | showProfile version id =>
      rw [runCommand]
      exact onVersion_opens opens version fun v => bare_opens roomy opens here (keeps_looking _)
  | importFiles files version update =>
      rw [runCommand]
      cases version.mapM readVersion with
      | error e => exact opens
      | ok fallback => exact bare_opens roomy opens here (keeps_importFiles roomy c update fallback files)
  | removeProfile version id =>
      rw [runCommand]
      exact onVersion_opens opens version fun v =>
        bare_opens roomy opens here (keeps_removeProfile roomy c v id)
  | effective version ids =>
      rw [runCommand]
      exact onVersion_opens opens version fun v => bare_opens roomy opens here (keeps_looking _)
  | provision version ids runtime =>
      rw [runCommand]
      exact onVersion_opens opens version fun v => provision_opens roomy opens here v ids runtime
  | completions shell =>
      rw [runCommand]
      exact opens

end Commands

-- What a command leaves, also where it fails.
def treeAfter (c : Context) (t : FileTree) (command : Command) : FileTree := (runCommand c t command).2

-- What commands on one store make of a tree where there was none.
inductive Reached (l : StoreLayout) : FileTree → Prop
  | vacant {t : FileTree} {base : Path} : l.Vacant t base → Reached l t
  | ran {t : FileTree} (c : Context) (command : Command) : c.store = l.root → Reached l t →
      Reached l (treeAfter c t command)

theorem Reached.opens (roomy : l.Roomy) (reached : Reached l t) : l.Opens t := by
  induction reached with
  | vacant vacant => exact .vacant vacant
  | ran c command here _ opens => exact runCommand_opens roomy opens here command

theorem Reached.invoked (reached : Reached l t) (around : Surroundings) (i : Invocation)
    (here : expandHome around.home i.store = l.root) : Reached l (runInvocation around t i).2 := by
  unfold runInvocation
  split
  · exact reached
  · split
    · exact reached
    · rename_i settings _
      let c : Context :=
        { store := expandHome around.home i.store, settings, json := i.json, clock := around.clock }
      have ran : Reached l (treeAfter c t i.command) := .ran c i.command here reached
      unfold treeAfter at ran
      dsimp only
      split
      · rename_i done tree runs
        rw [runs] at ran
        exact ran
      · rename_i e tree runs
        rw [runs] at ran
        exact ran

end CommandLine
end ContainerProfiles
