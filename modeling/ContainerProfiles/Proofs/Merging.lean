import ContainerProfiles.Inheritance.Merge
import ContainerProfiles.Proofs.Entries
import Mathlib.Data.List.Induction
import Mathlib.Data.List.Nodup

namespace ContainerProfiles

-- What a merged profile holds, read off the declarations one key at a time: the last mention of a key counts, an
-- item that is no configuration replaces what was said before it, and configurations grow together from the last
-- such replacement on.

theorem eraseDups_concat [BEq α] [LawfulBEq α] (l : List α) (x : α) :
    (l ++ [x]).eraseDups = if x ∈ l then l.eraseDups else l.eraseDups ++ [x] := by
  rw [List.eraseDups_append, List.cons_removeAll]
  by_cases old : x ∈ l <;> simp [old, List.eraseDups_cons]

theorem nodup_eraseDups [BEq α] [LawfulBEq α] (l : List α) : l.eraseDups.Nodup := by
  induction l using List.reverseRecOn with
  | nil => exact .nil
  | append_singleton l x ih =>
      rw [eraseDups_concat]
      split
      · exact ih
      · rename_i new
        exact List.Nodup.append ih (List.nodup_singleton _)
          (List.disjoint_singleton.mpr fun member => new (List.mem_eraseDups.mp member))

theorem eraseDups_eq_self [BEq α] [LawfulBEq α] {l : List α} (once : l.Nodup) : l.eraseDups = l := by
  induction l using List.reverseRecOn with
  | nil => rfl
  | append_singleton l x ih =>
      obtain ⟨before, _, apart⟩ := List.nodup_append.mp once
      rw [eraseDups_concat, if_neg fun old => apart x old x List.mem_cons_self rfl, ih before]

-- New values that are added once each come in the order of all that was added.
theorem eraseDups_append_new [DecidableEq α] (l later : List α) :
    (l ++ (later.filter (· ∉ l)).eraseDups).eraseDups = (l ++ later).eraseDups := by
  have removed : ∀ m : List α, m.removeAll l = m.filter (· ∉ l) := by
    intro m
    unfold List.removeAll
    exact List.filter_congr fun x _ => by simp
  have new : (later.filter (· ∉ l)).eraseDups.filter (· ∉ l) = (later.filter (· ∉ l)).eraseDups := by
    refine List.filter_eq_self.mpr fun x member => ?_
    exact (List.mem_filter.mp (List.mem_eraseDups.mp member)).2
  rw [List.eraseDups_append, List.eraseDups_append, removed, removed, new, eraseDups_eq_self (nodup_eraseDups _)]

-- A key that comes once is found in one place.
theorem filter_key_of_nodup [DecidableEq κ] {key : α → κ} {l : List α} {x : α}
    (once : (l.map key).Nodup) (member : x ∈ l) :
    l.filter (key · = key x) = [x] := by
  induction l with
  | nil => cases member
  | cons y rest ih =>
      obtain ⟨new, others⟩ := List.nodup_cons.mp once
      rw [List.filter_cons]
      rcases List.mem_cons.mp member with rfl | later
      · have apart : rest.filter (key · = key x) = [] := by
          refine List.filter_eq_nil_iff.mpr fun z there same => new ?_
          exact List.mem_map.mpr ⟨z, there, of_decide_eq_true same⟩
        rw [if_pos (decide_eq_true rfl), apart]
      · have other : key y ≠ key x := fun same => new (List.mem_map.mpr ⟨x, later, same.symm⟩)
        rw [if_neg (by simpa using other), ih others later]

section Gather

variable {α κ : Type} [DecidableEq κ] (key : α → κ) (change : α → α → α) (keep : α → α)

-- The first element of the same key takes the new one over itself; without one, it comes last.
def gatherOne (l : List α) (x : α) : List α := alterFirst (fun y => key y = key x) (change · x) (keep x) l

def gather (l later : List α) : List α := later.foldl (gatherOne key change keep) l

-- What becomes of a single key: the first mention is kept, the others are laid over it.
def laidOne (found : Option α) (x : α) : Option α := some ((found.map (change · x)).getD (keep x))

def laid (found : Option α) (later : List α) : Option α := later.foldl (laidOne change keep) found

theorem laid_some (x : α) (later : List α) : laid change keep (some x) later = some (later.foldl change x) := by
  induction later generalizing x with
  | nil => rfl
  | cons y rest ih => exact ih (change x y)

variable {key change keep} (changed : ∀ x y, key x = key y → key (change x y) = key y)
  (kept : ∀ x, key (keep x) = key x)
include changed kept

theorem keys_gatherOne (l : List α) (x : α) :
    (gatherOne key change keep l x).map key = if key x ∈ l.map key then l.map key else l.map key ++ [key x] := by
  unfold gatherOne
  induction l with
  | nil => simp [alterFirst, kept]
  | cons y rest ih =>
      unfold alterFirst
      by_cases same : key y = key x
      · simp [same, changed y x same]
      · rw [if_neg (by simpa using same), List.map_cons, ih, List.map_cons]
        by_cases old : key x ∈ rest.map key
        · rw [if_pos old, if_pos (List.mem_cons_of_mem _ old)]
        · rw [if_neg old, if_neg (by simpa [Ne.symm same] using old), List.cons_append]

theorem filter_gatherOne (l : List α) (x : α) (k : κ) :
    (gatherOne key change keep l x).filter (key · = k) =
      if key x = k then (laidOne change keep (l.find? (key · = k)) x).toList ++ (l.filter (key · = k)).tail
      else l.filter (key · = k) := by
  unfold gatherOne laidOne
  induction l with
  | nil => by_cases asked : key x = k <;> simp [alterFirst, kept, asked]
  | cons y rest ih =>
      unfold alterFirst
      by_cases same : key y = key x
      · by_cases asked : key x = k <;> simp [same, changed y x same, asked]
      · rw [if_neg (by simpa using same), List.filter_cons, ih, List.find?_cons, List.filter_cons]
        by_cases asked : key y = k
        · have other : key x ≠ k := fun here => same (asked.trans here.symm)
          simp [asked, other]
        · simp [asked]

theorem find?_gatherOne (l : List α) (x : α) (k : κ) :
    (gatherOne key change keep l x).find? (key · = k) =
      if key x = k then laidOne change keep (l.find? (key · = k)) x else l.find? (key · = k) := by
  rw [← List.head?_filter, filter_gatherOne changed kept]
  split
  · rfl
  · exact List.head?_filter

-- The keys that were there stay, and the new ones follow in the order in which they first come up.
theorem keys_gather (l later : List α) :
    (gather key change keep l later).map key =
      l.map key ++ ((later.map key).filter (· ∉ l.map key)).eraseDups := by
  induction later using List.reverseRecOn with
  | nil => simp [gather]
  | append_singleton later x ih =>
      unfold gather at ih ⊢
      rw [List.foldl_concat, keys_gatherOne changed kept, ih, List.map_append, List.filter_append]
      by_cases old : key x ∈ l.map key
      · rw [if_pos (List.mem_append_left _ old), List.map_singleton, List.filter_singleton]
        simp [old]
      · have new : [key x].filter (· ∉ l.map key) = [key x] := List.filter_cons_of_pos (by simpa using old)
        rw [List.map_singleton, new, eraseDups_concat]
        by_cases again : key x ∈ (later.map key).filter (· ∉ l.map key)
        · rw [if_pos (List.mem_append_right _ (List.mem_eraseDups.mpr again)), if_pos again]
        · rw [if_neg again, if_neg ?_, List.append_assoc]
          rw [List.mem_append, List.mem_eraseDups]
          exact not_or.mpr ⟨old, again⟩

theorem find?_gather (l later : List α) (k : κ) :
    (gather key change keep l later).find? (key · = k) =
      laid change keep (l.find? (key · = k)) (later.filter (key · = k)) := by
  induction later generalizing l with
  | nil => rfl
  | cons x rest ih =>
      refine (ih (gatherOne key change keep l x)).trans ?_
      rw [find?_gatherOne changed kept, List.filter_cons]
      by_cases asked : key x = k
      · simp [asked, laid]
      · simp [asked]

end Gather

-- The last of the maps that says anything of the key.
def lastMention (k : String) (said : List Attributes) : Option String := (said.filterMap (·.get? k)).getLast?

theorem lastMention_concat (k : String) (said : List Attributes) (a : Attributes) :
    lastMention k (said ++ [a]) = (a.get? k).or (lastMention k said) := by
  unfold lastMention
  rw [List.filterMap_append, List.getLast?_append]
  cases found : a.get? k <;> simp [found]

namespace Attributes

theorem not_mem_keys {a : Attributes} {k : String} : k ∉ a.keys ↔ a.get? k = none := by
  rw [Dict.mem_keys, Bool.not_eq_true, Dict.contains_false]

-- A mention counts as none where it takes the key away.
abbrev undeleted (mention : Option String) : Option String := mention.filter (· ≠ deleted)

def mergeOne (base : Attributes) (e : String × String) : Attributes :=
  if e.2 = deleted then base.erase e.1 else base.insert e.1 e.2

theorem get?_mergeOne (base : Attributes) (e : String × String) (k : String) :
    (mergeOne base e).get? k = if k = e.1 then undeleted (some e.2) else base.get? k := by
  unfold mergeOne
  by_cases gone : e.2 = deleted <;> by_cases asked : k = e.1 <;>
    simp [gone, asked, undeleted, Option.filter_some]

theorem get?_merge_of_not_mem {base : Attributes} {pairs : List (String × String)} {k : String}
    (absent : k ∉ pairs.map Prod.fst) : (pairs.foldl mergeOne base).get? k = base.get? k := by
  induction pairs generalizing base with
  | nil => rfl
  | cons e rest ih =>
      rw [List.map_cons, List.mem_cons, not_or] at absent
      rw [List.foldl_cons, ih absent.2, get?_mergeOne, if_neg absent.1]

theorem get?_merge_of_mem {base : Attributes} {pairs : List (String × String)} {k x : String}
    (distinct : (pairs.map Prod.fst).Nodup) (member : (k, x) ∈ pairs) :
    (pairs.foldl mergeOne base).get? k = undeleted (some x) := by
  induction pairs generalizing base with
  | nil => cases member
  | cons e rest ih =>
      obtain ⟨new, others⟩ := List.nodup_cons.mp distinct
      rw [List.foldl_cons]
      rcases List.mem_cons.mp member with rfl | later
      · rw [get?_merge_of_not_mem new, get?_mergeOne, if_pos rfl]
      · exact ih others later

theorem get?_merge (base overlay : Attributes) (k : String) :
    (base.merge overlay).get? k = ((overlay.get? k).map fun x => undeleted (some x)).getD (base.get? k) := by
  cases found : overlay.get? k with
  | some x => exact get?_merge_of_mem (Dict.keys_nodup overlay) (Dict.get?_eq_some.mp found)
  | none => exact get?_merge_of_not_mem (not_mem_keys.mpr found)

theorem get?_extend (base overlay : Attributes) (k : String) :
    (base.extend overlay.entries).get? k = (overlay.get? k).or (base.get? k) := by
  cases found : overlay.get? k with
  | some x => exact Dict.get?_extend_of_mem (Dict.keys_nodup overlay) (Dict.get?_eq_some.mp found)
  | none => exact Dict.get?_extend_of_not_mem (not_mem_keys.mpr found)

-- Laid over one another, the maps hold what the last mention of each key says.
theorem get?_foldl_merge {base : Attributes} {before : List Attributes} {k : String}
    (settled : base.get? k = undeleted (lastMention k before)) (said : List Attributes) :
    (said.foldl merge base).get? k = undeleted (lastMention k (before ++ said)) := by
  induction said generalizing base before with
  | nil => rw [List.append_nil, List.foldl_nil, settled]
  | cons a rest ih =>
      rw [List.foldl_cons, List.append_cons]
      refine ih ?_
      rw [get?_merge, lastMention_concat, settled]
      cases a.get? k <;> rfl

end Attributes

namespace Configuration

theorem overlay_name (base child : Configuration) (same : base.name = child.name) :
    (base.overlay child).name = child.name := same

@[simp] theorem withoutDeleted_name (c : Configuration) : c.withoutDeleted.name = c.name := rfl

-- What is held under each key, where the configurations `said` were laid over one another.
structure Settled (said : List Configuration) (c : Configuration) : Prop where
  attributes : ∀ k, c.attributes.get? k = Attributes.undeleted (lastMention k (said.map (·.attributes)))
  directives : ∀ k, c.directives.get? k = lastMention k (said.map (·.directives))

theorem settled_first (c : Configuration) : Settled [c] c.withoutDeleted where
  attributes := fun k => by
    change (Dict.filter _ _).get? k = _
    rw [Dict.get?_filter, List.map_singleton, ← List.nil_append [c.attributes], lastMention_concat]
    cases c.attributes.get? k <;> rfl
  directives := fun k => by
    rw [List.map_singleton, ← List.nil_append [c.directives], lastMention_concat]
    cases found : c.directives.get? k <;> exact found

theorem Settled.overlay {said : List Configuration} {base : Configuration} (settled : Settled said base)
    (child : Configuration) : Settled (said ++ [child]) (base.overlay child) where
  attributes := fun k => by
    rw [List.map_append]
    exact Attributes.get?_foldl_merge (settled.attributes k) [child.attributes]
  directives := fun k => by
    rw [List.map_append, List.map_singleton, lastMention_concat, ← settled.directives k]
    exact Attributes.get?_extend base.directives child.directives k

theorem laid_settled (said : List Configuration) :
    match laid overlay withoutDeleted none said with
    | none => said = []
    | some c => Settled said c := by
  induction said using List.reverseRecOn with
  | nil => rfl
  | append_singleton said child ih =>
      unfold laid at ih ⊢
      rw [List.foldl_concat]
      cases before : said.foldl (laidOne overlay withoutDeleted) none with
      | none =>
          rw [before] at ih
          subst ih
          exact settled_first child
      | some base =>
          rw [before] at ih
          exact Settled.overlay ih child

end Configuration

namespace ConfigurationItem

def withoutDeleted (item : ConfigurationItem) : ConfigurationItem :=
  { item with configurations := item.configurations.map (·.withoutDeleted) }

-- A run of declarations laid over one another.
def grown (first : ConfigurationItem) (later : List ConfigurationItem) : ConfigurationItem :=
  later.foldl overlay first.withoutDeleted

-- Of the first declaration only the first configuration of a name is ever met again.
def mentions (first : ConfigurationItem) (later : List ConfigurationItem) (name : String) : List Configuration :=
  (first.configuration? name).toList ++ (later.flatMap (·.configurations)).filter (·.name = name)

abbrev names (configurations : List Configuration) : List String := configurations.map (·.name)

abbrev gathered : List Configuration → List Configuration → List Configuration :=
  gather Configuration.name Configuration.overlay Configuration.withoutDeleted

theorem foldl_overlayOne (base : ConfigurationItem) (configurations : List Configuration) :
    configurations.foldl overlayOne base =
      { base with configurations := gathered base.configurations configurations } := by
  induction configurations generalizing base with
  | nil => rfl
  | cons c rest ih => exact ih (base.overlayOne c)

theorem foldl_overlay (base : ConfigurationItem) (later : List ConfigurationItem) :
    later.foldl overlay base =
      { base with configurations := gathered base.configurations (later.flatMap (·.configurations)) } := by
  induction later generalizing base with
  | nil => rfl
  | cons item rest ih =>
      rw [List.foldl_cons, ih, overlay, foldl_overlayOne, List.flatMap_cons]
      unfold gathered gather
      rw [List.foldl_append]

structure Grown (first : ConfigurationItem) (later : List ConfigurationItem) (item : ConfigurationItem) : Prop where
  id : item.id = first.id
  -- The first declaration may repeat a name, the later ones add each new name once.
  names : names item.configurations = names first.configurations ++
    ((names (later.flatMap (·.configurations))).filter (· ∉ names first.configurations)).eraseDups
  order : (ConfigurationItem.names item.configurations).eraseDups =
    (ConfigurationItem.names ((first :: later).flatMap (·.configurations))).eraseDups
  mentioned : ∀ name, item.configuration? name = none ↔ mentions first later name = []
  settled : ∀ name c, item.configuration? name = some c → c.Settled (mentions first later name)

theorem names_gathered (l later : List Configuration) :
    names (gathered l later) = names l ++ ((names later).filter (· ∉ names l)).eraseDups :=
  keys_gather Configuration.overlay_name Configuration.withoutDeleted_name l later

theorem find?_gathered (l later : List Configuration) (name : String) :
    (gathered l later).find? (·.name = name) =
      laid Configuration.overlay Configuration.withoutDeleted (l.find? (·.name = name))
        (later.filter (·.name = name)) :=
  find?_gather Configuration.overlay_name Configuration.withoutDeleted_name l later name

theorem configuration?_grown (first : ConfigurationItem) (later : List ConfigurationItem) (name : String) :
    (first.grown later).configuration? name =
      laid Configuration.overlay Configuration.withoutDeleted none (mentions first later name) := by
  have opening : first.withoutDeleted.configurations.find? (·.name = name) =
      (first.configuration? name).map (·.withoutDeleted) := List.find?_map
  rw [grown, foldl_overlay]
  refine (find?_gathered _ _ name).trans ?_
  rw [opening, mentions]
  cases first.configuration? name <;> rfl

theorem names_grown (first : ConfigurationItem) (later : List ConfigurationItem) :
    names (first.grown later).configurations = names first.configurations ++
      ((names (later.flatMap (·.configurations))).filter (· ∉ names first.configurations)).eraseDups := by
  have kept : names first.withoutDeleted.configurations = names first.configurations := by
    simp [names, withoutDeleted, Function.comp_def]
  rw [grown, foldl_overlay, ← kept]
  exact names_gathered _ _

theorem grown_grown (first : ConfigurationItem) (later : List ConfigurationItem) :
    Grown first later (first.grown later) := by
  have settled := fun name => Configuration.laid_settled (mentions first later name)
  refine ⟨?_, names_grown first later, ?_, fun name => ?_, fun name c found => ?_⟩
  · rw [grown, foldl_overlay]
    rfl
  · rw [names_grown, eraseDups_append_new, List.flatMap_cons, names, names, names, List.map_append]
  · rw [configuration?_grown]
    constructor
    · intro absent
      have none_said := settled name
      rw [absent] at none_said
      exact none_said
    · intro unsaid
      rw [unsaid]
      rfl
  · rw [configuration?_grown] at found
    have said := settled name
    rw [found] at said
    exact said

end ConfigurationItem

namespace Item

-- What a list of declarations of one item ends in, from the last on that is no configuration.
theorem run_of_configuration {said : List Item} {last : ConfigurationItem}
    (ends : said.getLast? = some (.configuration last)) :
    ∃ before first later, said = before ++ ((first :: later).map configuration) ∧
      ∀ d, before.getLast? = some d → d.configuration? = none := by
  induction said using List.reverseRecOn generalizing last with
  | nil => cases ends
  | append_singleton said d ih =>
      rw [List.getLast?_concat] at ends
      cases ends
      cases before : said.getLast? with
      | none =>
          rw [List.getLast?_eq_none_iff.mp before]
          exact ⟨[], last, [], rfl, nofun⟩
      | some d =>
          cases d with
          | configuration earlier =>
              obtain ⟨before, first, later, parts, cut⟩ := ih before
              exact ⟨before, first, later ++ [last], by simp [parts], cut⟩
          | resource item => exact ⟨said, last, [], rfl, fun d same => by
              rw [before] at same
              cases same
              rfl⟩
          | requirement item => exact ⟨said, last, [], rfl, fun d same => by
              rw [before] at same
              cases same
              rfl⟩

@[simp] theorem withoutDeleted_id (item : Item) : item.withoutDeleted.id = item.id := by
  cases item <;> rfl

theorem overlay_id (base child : Item) (same : base.id = child.id) : (base.overlay child).id = child.id := by
  cases base with
  | configuration base =>
      cases child with
      | configuration child =>
          change (base.overlay child).id = child.id
          rw [ConfigurationItem.overlay, ConfigurationItem.foldl_overlayOne]
          exact same
      | resource child => rfl
      | requirement child => rfl
  | resource base => exact withoutDeleted_id child
  | requirement base => exact withoutDeleted_id child

theorem overlay_of_other {base child : Item} (other : base.configuration? = none ∨ child.configuration? = none) :
    base.overlay child = child.withoutDeleted := by
  cases base <;> cases child <;> simp_all [overlay, configuration?]

theorem withoutDeleted_of_other {item : Item} (other : item.configuration? = none) : item.withoutDeleted = item := by
  cases item with
  | configuration item => cases other
  | resource item => rfl
  | requirement item => rfl

theorem laid_of_other {said : List Item} {d : Item} (ends : said.getLast? = some d)
    (other : d.configuration? = none) : laid overlay withoutDeleted none said = some d := by
  obtain ⟨before, rfl⟩ := List.getLast?_eq_some_iff.mp ends
  unfold laid
  rw [List.foldl_concat, laidOne]
  cases before.foldl (laidOne overlay withoutDeleted) none with
  | none => exact congrArg some (withoutDeleted_of_other other)
  | some base => exact congrArg some ((overlay_of_other (.inr other)).trans (withoutDeleted_of_other other))

theorem foldl_overlay_configuration (base : ConfigurationItem) (later : List ConfigurationItem) :
    (later.map configuration).foldl overlay (configuration base) = configuration (later.foldl .overlay base) := by
  rw [List.foldl_map]
  induction later generalizing base with
  | nil => rfl
  | cons item rest ih => exact ih (base.overlay item)

-- Nothing of what was said before the run is left.
theorem laid_of_run {before : List Item} {first : ConfigurationItem} {later : List ConfigurationItem}
    (cut : ∀ d, before.getLast? = some d → d.configuration? = none) :
    laid overlay withoutDeleted none (before ++ (first :: later).map configuration) =
      some (configuration (first.grown later)) := by
  have opened : laidOne overlay withoutDeleted (laid overlay withoutDeleted none before) (configuration first) =
      some (configuration first.withoutDeleted) := by
    cases ends : before.getLast? with
    | none =>
        rw [List.getLast?_eq_none_iff.mp ends]
        rfl
    | some d =>
        rw [laid_of_other ends (cut d ends)]
        exact congrArg some (overlay_of_other (.inl (cut d ends)))
  have onwards : laid overlay withoutDeleted none (before ++ (first :: later).map configuration) =
      laid overlay withoutDeleted (some (configuration first.withoutDeleted)) (later.map configuration) := by
    rw [← opened]
    unfold laid
    rw [List.foldl_append]
    rfl
  rw [onwards, laid_some, foldl_overlay_configuration]
  rfl

end Item

namespace Profile

-- What is said of an item, profile by profile.
def declarations (order : List Profile) (id : ItemId) : List Item :=
  (order.flatMap (·.items)).filter (·.id = id)

structure Merged (order : List Profile) (p : Profile) : Prop where
  once : (p.items.map Item.id).Nodup
  arranged : p.items.map Item.id = ((order.flatMap (·.items)).map Item.id).eraseDups
  replaced : ∀ id d, (declarations order id).getLast? = some d → d.configuration? = none → p.item? id = some d
  -- The last declarations that are configurations, back to the first one that is none, make up the item.
  grown : ∀ id last, (declarations order id).getLast? = some (.configuration last) →
    ∃ before first later, declarations order id = before ++ (first :: later).map .configuration ∧
      (∀ d, before.getLast? = some d → d.configuration? = none) ∧
      p.item? id = some (.configuration (first.grown later)) ∧
      ConfigurationItem.Grown first later (first.grown later)
  attributes : ∀ k, p.attributes.get? k = Attributes.undeleted (lastMention k (order.map (·.attributes)))

theorem foldl_overlay (order : List Profile) (base : Profile) :
    order.foldl overlay base = { base with
      items := (order.flatMap (·.items)).foldl overlayItem base.items
      attributes := (order.map (·.attributes)).foldl .merge base.attributes } := by
  induction order generalizing base with
  | nil => rfl
  | cons p rest ih => rw [List.foldl_cons, ih, List.flatMap_cons, List.foldl_append, List.map_cons, List.foldl_cons]; rfl

theorem items_merge (identity : ProfileId) (version : Version) (order : List Profile) :
    (merge identity version order).items = gather Item.id Item.overlay Item.withoutDeleted [] (order.flatMap (·.items)) := by
  rw [merge, foldl_overlay]
  rfl

theorem item?_merge (identity : ProfileId) (version : Version) (order : List Profile) (id : ItemId) :
    (merge identity version order).item? id =
      laid Item.overlay Item.withoutDeleted none (declarations order id) := by
  rw [item?, items_merge]
  exact find?_gather Item.overlay_id Item.withoutDeleted_id [] _ id

theorem ids_merge (identity : ProfileId) (version : Version) (order : List Profile) :
    (merge identity version order).items.map Item.id = ((order.flatMap (·.items)).map Item.id).eraseDups := by
  rw [items_merge, keys_gather Item.overlay_id Item.withoutDeleted_id]
  simp

theorem merge_pointwise (identity : ProfileId) (version : Version) (order : List Profile) :
    Merged order (merge identity version order) where
  once := by
    rw [ids_merge]
    exact nodup_eraseDups _
  arranged := ids_merge identity version order
  replaced := fun id d ends other => by rw [item?_merge, Item.laid_of_other ends other]
  grown := fun id last ends => by
    obtain ⟨before, first, later, parts, cut⟩ := Item.run_of_configuration ends
    refine ⟨before, first, later, parts, cut, ?_, ConfigurationItem.grown_grown first later⟩
    rw [item?_merge, parts, Item.laid_of_run cut]
  attributes := fun k => by
    rw [merge, foldl_overlay]
    have nothing : (∅ : Attributes).get? k = Attributes.undeleted (lastMention k []) := rfl
    exact Attributes.get?_foldl_merge nothing (order.map (·.attributes))

end Profile
end ContainerProfiles
