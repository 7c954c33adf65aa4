import ContainerProfiles.Proofs.MirroredWrites
import ContainerProfiles.Store.Operation

namespace ContainerProfiles

-- Stores that are asked for one thing after another. A store on files that begins in an empty folder gives the
-- answers that one in memory gives, and opening it again finds it as it was left.

open FileTree StoreLayout

variable {l : StoreLayout} {t : FileTree} {base : Path} {m : MemoryStore}

-- A place for a store: its folders can be made, and nothing else is in the root then.
def StoreLayout.Vacant (l : StoreLayout) (t : FileTree) (base : Path) : Prop :=
  ∃ u, t.makeFolders l.versionsFolder = (.ok (), u) ∧ u.Rooted l.root base ∧ u.Paved base versionsPath ∧
    ∀ names, ¬ names <+: versionsPath → u.below base names = none

theorem vacant_of_empty (found : t.locate l.root = .ok (base, .folder))
    (empty : ∀ name rest, t.entries.get? (base ++ name :: rest) = none)
    (room : l.versionsFolder.utf8ByteSize ≤ longestPath) :
    l.Vacant t base := by
  have rooted := rooted_of_empty found empty
  have begun : l.root ≠ "" := rooted.sayable.1
  have plain : '\x00' ∉ l.root.toList := rooted.sayable.2.plain
  have nothing : ∀ names, names ≠ [] → t.below base names = none := by
    intro names filled
    obtain ⟨name, rest, rfl⟩ := List.exists_cons_of_ne_nil filled
    rw [below_cons]
    exact empty name rest
  have store : "store" ∈ fixedNames := by simp [fixedNames]
  have versions : "versions" ∈ fixedNames := by simp [fixedNames]
  obtain ⟨u, made, grown, paved, look⟩ := makeFolders_two
    ⟨rooted, rooted.paved, (fixedNames_proper _ store).solid, fixedNames_fit _ store, sayable_store begun plain room⟩
    (nothing _ (by simp)) (fixedNames_proper _ versions).solid (fixedNames_fit _ versions)
    (sayable_versions begun plain room) (nothing _ (by simp))
  refine ⟨u, ?_, grown, paved, fun names out => ?_⟩
  · rw [versionsFolder_eq]
    exact made
  · rw [look, if_neg, if_neg, nothing]
    · rintro rfl
      exact out List.nil_prefix
    · rintro rfl
      exact out (List.prefix_append ["store"] ["versions"])
    · rintro rfl
      exact out (List.prefix_refl _)

theorem StoreLayout.Vacant.opened (vacant : l.Vacant t base) (room : l.versionsFolder.utf8ByteSize ≤ longestPath) :
    ∃ u, FileStore.prepare ⟨l, t⟩ = (.ok (), ⟨l, u⟩) ∧ Mirrors l u base {} := by
  obtain ⟨u, made, grown, paved, alone⟩ := vacant
  have version : "version" ∈ fixedNames := by simp [fixedNames]
  have file : ["store"] ++ ["version"] ≠ ([] : Path) := by simp
  have apart : ¬ ["store"] ++ ["version"] <+: versionsPath := by simp [versionsPath, List.cons_prefix_cons]
  have unmarked := alone _ apart
  have reaches : u.Reaches l.root base ["store"] "version" :=
    ⟨grown, paved.front (List.prefix_append ["store"] ["versions"]), (fixedNames_proper _ version).solid,
      fixedNames_fit _ version,
      sayable_inStore grown.sayable.1 grown.sayable.2.plain room version (by decide)⟩
  have replaced := replace_below reaches (by rw [unmarked]; exact (Option.some_ne_none _).symm) (Json.print formatNode)
  have look := below_put u base file (.file (Json.print formatNode))
  refine ⟨_, ?_, grown.put file (.file (Json.print formatNode)), room, paved.put file apart, ?_, ?_, ?_, ?_⟩
  · unfold FileStore.prepare FileStore.makeFolders FileStore.contains FileStore.commit FileStore.onTree
    dsimp only
    rw [made]
    simp only [FileStore.andThen, Except.mapError]
    rw [formatMarker_eq, contains_below reaches, unmarked, replaced]
    rfl
  · rw [look, if_pos rfl]
  · rw [look, if_neg (by simp), alone _ (by simp [versionsPath, List.cons_prefix_cons])]
    exact (Option.some_ne_none _).symm
  · intro v entry stored
    cases stored
  · intro name _ names under
    have deep : 3 ≤ names.length := under.length_le
    rw [look, if_neg, alone names fun isFront => ?_]
    · have short : names.length ≤ 2 := isFront.length_le
      omega
    · rintro rfl
      exact absurd deep (by decide)

theorem mirrors_opened (found : t.locate l.root = .ok (base, .folder))
    (empty : ∀ name rest, t.entries.get? (base ++ name :: rest) = none)
    (room : l.versionsFolder.utf8ByteSize ≤ longestPath) :
    ∃ u, FileStore.prepare ⟨l, t⟩ = (.ok (), ⟨l, u⟩) ∧ Mirrors l u base {} :=
  (vacant_of_empty found empty room).opened room

-- A store that has been opened is found in order and left alone.
theorem Mirrors.prepare (mirrors : Mirrors l t base m) :
    FileStore.prepare ⟨l, t⟩ = (.ok (), ⟨l, t⟩) := by
  have folder : t.below base (["store"] ++ ["versions"]) = some .folder := mirrors.paved.folder
  have known : "version" ∈ fixedNames := by simp [fixedNames]
  have reaches := mirrors.reaches_inStore known (by decide)
  have format : FileStore.checkFormat ⟨l, t⟩ = .ok () := by
    unfold FileStore.checkFormat FileStore.read
    dsimp only
    rw [formatMarker_eq, read_below reaches mirrors.marker]
    simp only [Except.mapError, bind, Except.bind, format_read]
    rfl
  unfold FileStore.prepare FileStore.makeFolders FileStore.contains FileStore.onTree
  dsimp only
  rw [versionsFolder_eq, makeFolders_present mirrors.reaches_versions folder]
  simp only [FileStore.andThen, Except.mapError]
  rw [formatMarker_eq, contains_below reaches, mirrors.marker]
  exact congrArg (·, _) format

-- Files are there for the profiles that are named, and for the versions that are added.
def StoreOperation.Fits (l : StoreLayout) : StoreOperation → Prop
  | .addVersion v _ => l.Admits v
  | .addProfile p | .updateProfile p => Named p.identity
  | .profile _ id | .removeProfile _ id => Named id
  | .versions | .version _ | .removeVersion _ | .profiles _ => True

namespace Store

-- Calls with their times, one after another.
def calls (s : Store) : List (String × StoreOperation) → List (Except StoreError StoreReply) × Store
  | [] => ([], s)
  | (now, op) :: rest =>
      let (answer, next) := s.perform now op
      let (answers, last) := next.calls rest
      (answer :: answers, last)

inductive Mirrored (l : StoreLayout) (base : Path) : Store → Store → Prop
  | intro {t : FileTree} {m : MemoryStore} : Mirrors l t base m → Mirrored l base (.files ⟨l, t⟩) (.memory m)

theorem Mirrored.reopened (mirrored : Mirrored l base s r) : s.reopened = .ok s := by
  obtain ⟨mirrors⟩ := mirrored
  unfold Store.reopened
  dsimp only
  rw [mirrors.prepare]
  rfl

theorem mirrored_write {r : Except StoreError MemoryStore} {w : Except StoreError Unit × FileStore}
    (ended : Matches l base m r w) :
    (onFiles w).1 = (onMemory m r).1 ∧ Mirrored l base (onFiles w).2 (onMemory m r).2 := by
  obtain ⟨outcome, layout, tree⟩ := w
  obtain ⟨answer, same, mirrors⟩ := ended
  dsimp only at answer same mirrors
  subst answer same
  cases r with
  | error e => exact ⟨rfl, .intro mirrors⟩
  | ok n => exact ⟨rfl, .intro mirrors⟩

theorem mirrored_writing {r : Except StoreError MemoryStore} {w : Except StoreError Unit × FileStore}
    (ended : Matches l base m r w) :
    (writing (onFiles w)).1 = (writing (onMemory m r)).1 ∧
      Mirrored l base (writing (onFiles w)).2 (writing (onMemory m r)).2 :=
  ⟨congrArg (Except.map fun _ => StoreReply.done) (mirrored_write ended).1, (mirrored_write ended).2⟩

theorem reading_congr {s r : Store} {answer : α → StoreReply} {x y : Except StoreError α} (same : x = y) :
    (s.reading answer x).1 = (r.reading answer y).1 := by
  subst same
  rfl

theorem Mirrored.perform (mirrored : Mirrored l base s r) (now : String) {op : StoreOperation}
    (fits : op.Fits l) : (s.perform now op).1 = (r.perform now op).1 ∧
      Mirrored l base (s.perform now op).2 (r.perform now op).2 := by
  have whole := mirrored
  obtain @⟨t, m, mirrors⟩ := mirrored
  cases op with
  | versions => exact ⟨reading_congr mirrors.versions, whole⟩
  | version v => exact ⟨reading_congr (mirrors.version? v), whole⟩
  | profile v id => exact ⟨reading_congr (mirrors.profile? v fits.checked), whole⟩
  | profiles v => exact ⟨reading_congr (mirrors.profiles v), whole⟩
  | addVersion v attributes => exact mirrored_writing (mirrors.addVersion fits now attributes)
  | removeVersion v => exact mirrored_writing (mirrors.removeVersion v)
  | addProfile p => exact mirrored_writing (mirrors.addProfile fits now)
  | updateProfile p => exact mirrored_writing (mirrors.updateProfile fits.checked now)
  | removeProfile v id => exact mirrored_writing (mirrors.removeProfile fits.checked v)

theorem Mirrored.calls (mirrored : Mirrored l base s r) {ops : List (String × StoreOperation)}
    (fit : ∀ call ∈ ops, call.2.Fits l) :
    (s.calls ops).1 = (r.calls ops).1 ∧ Mirrored l base (s.calls ops).2 (r.calls ops).2 := by
  induction ops generalizing s r with
  | nil => exact ⟨rfl, mirrored⟩
  | cons call rest ih =>
      obtain ⟨now, op⟩ := call
      obtain ⟨same, next⟩ := mirrored.perform now (fit (now, op) List.mem_cons_self)
      obtain ⟨others, last⟩ := ih next fun later member => fit later (.tail _ member)
      exact ⟨congrArg₂ List.cons same others, last⟩

theorem files_refine_memory {l : StoreLayout} {t : FileTree} {base : Path}
    (found : t.locate l.root = .ok (base, .folder))
    (empty : ∀ name rest, t.entries.get? (base ++ name :: rest) = none)
    (room : l.versionsFolder.utf8ByteSize ≤ longestPath) {ops : List (String × StoreOperation)}
    (fit : ∀ call ∈ ops, call.2.Fits l) :
    ∃ f, FileStore.prepare ⟨l, t⟩ = (.ok (), f) ∧
      ((files f).calls ops).1 = ((memory {}).calls ops).1 ∧
      ((files f).calls ops).2.reopened = .ok ((files f).calls ops).2 := by
  obtain ⟨u, opened, mirrors⟩ := mirrors_opened found empty room
  obtain ⟨same, last⟩ := (Mirrored.intro mirrors).calls fit
  exact ⟨_, opened, same, last.reopened⟩

def someCalls : List (String × StoreOperation) :=
  [("monday", .addVersion .first ∅), ("monday", .addVersion .first ∅),
   ("tuesday", .addProfile { identity := "web", version := .first }), ("tuesday", .profile .first "web"),
   ("tuesday", .profiles .first), ("friday", .removeProfile .first "web"), ("friday", .versions)]

theorem files_refine_memory_root :
    ∃ f, FileStore.prepare ⟨⟨"/"⟩, {}⟩ = (.ok (), f) ∧
      ((files f).calls someCalls).1 =
        [.ok .done, .error (.versionExists .first), .ok .done,
         .ok (.profile (some { identity := "web", version := .first })),
         .ok (.profiles [{ identity := "web", version := .first }]), .ok .done, .ok (.versions [.first])] ∧
      ((files f).calls someCalls).2.reopened = .ok ((files f).calls someCalls).2 := by
  have web : Named "web" := ⟨by decide +kernel, by decide +kernel⟩
  have admitted : StoreLayout.Admits ⟨"/"⟩ .first := ⟨by decide +kernel, by decide +kernel⟩
  have fit : ∀ call ∈ someCalls, call.2.Fits ⟨"/"⟩ := by
    simp [someCalls, StoreOperation.Fits, web, admitted]
  have found : FileTree.locate {} "/" = .ok ([], .folder) := rfl
  obtain ⟨f, opened, same, again⟩ := files_refine_memory (l := ⟨"/"⟩) found (fun _ _ => rfl) (by decide +kernel) fit
  exact ⟨f, opened, same, again⟩

end Store
end ContainerProfiles
