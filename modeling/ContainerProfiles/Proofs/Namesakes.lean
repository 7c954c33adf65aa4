import ContainerProfiles.Proofs.Checks
import ContainerProfiles.Proofs.Merging

namespace ContainerProfiles

-- Configurations of one name in one item. An overlay meets the first of them only; the others, which the first
-- declaration of an item may repeat, stay as they were declared.

section Namesakes

variable {α κ : Type} [DecidableEq κ] {key : α → κ} {change : α → α → α} {keep : α → α}

theorem filter_eq_find?_append_tail (p : α → Bool) (l : List α) :
    l.filter p = (l.find? p).toList ++ (l.filter p).tail := by
  rw [← List.head?_filter]
  cases l.filter p <;> rfl

variable (changed : ∀ x y, key x = key y → key (change x y) = key y) (kept : ∀ x, key (keep x) = key x)
include changed kept

-- The first element of a key has everything laid over it, and the others of that key are left alone.
theorem filter_gather (l later : List α) (k : κ) :
    (gather key change keep l later).filter (key · = k) =
      (laid change keep (l.find? (key · = k)) (later.filter (key · = k))).toList ++
        (l.filter (key · = k)).tail := by
  induction later generalizing l with
  | nil => exact filter_eq_find?_append_tail _ l
  | cons x rest ih =>
      refine (ih (gatherOne key change keep l x)).trans ?_
      rw [find?_gatherOne changed kept, filter_gatherOne changed kept, List.filter_cons]
      by_cases asked : key x = k
      · simp [asked, laid, laidOne]
      · simp [asked]

end Namesakes

theorem lastMention_append (k : String) (before after : List Attributes) :
    lastMention k (before ++ after) = (lastMention k after).or (lastMention k before) := by
  unfold lastMention
  rw [List.filterMap_append, List.getLast?_append]

theorem mentioned_of_lastMention {k x : String} {said : List Attributes} (last : lastMention k said = some x) :
    ∃ a ∈ said, a.get? k = some x :=
  List.mem_filterMap.mp (List.mem_of_getLast? last)

theorem lastMention_of_agreed {k w : String} {said : List Attributes} (mentioned : ∃ a ∈ said, a.contains k)
    (agreed : ∀ a ∈ said, ∀ x, a.get? k = some x → x = w) : lastMention k said = some w := by
  obtain ⟨a, member, present⟩ := mentioned
  obtain ⟨x, found⟩ := Dict.contains_iff.mp present
  have listed : x ∈ said.filterMap (·.get? k) := List.mem_filterMap.mpr ⟨a, member, found⟩
  cases last : lastMention k said with
  | none =>
      rw [List.getLast?_eq_none_iff.mp last] at listed
      cases listed
  | some y =>
      obtain ⟨b, there, held⟩ := mentioned_of_lastMention last
      exact congrArg some (agreed b there y held)

namespace Attributes

theorem get?_withoutDeleted (a : Attributes) (k : String) : a.withoutDeleted.get? k = undeleted (a.get? k) :=
  Dict.get?_filter a _ k

theorem undeleted_eq_some {mention : Option String} {x : String} :
    undeleted mention = some x ↔ mention = some x ∧ x ≠ deleted := by
  rw [Option.filter_eq_some_iff, decide_eq_true_eq]

end Attributes

namespace Configuration

-- As the last word on the key has it: nothing where it deletes, else that and nothing else.
structure Obey (said : List Configuration) (k w : String) : Prop where
  gone : w = Attributes.deleted → ∀ c ∈ said, c.attributes.get? k = none
  held : w ≠ Attributes.deleted → (∃ c ∈ said, c.attributes.contains k) ∧
    ∀ c ∈ said, ∀ x, c.attributes.get? k = some x → x = w

variable {said : List Configuration} {k w : String}

theorem get?_withoutDeleted {c : Configuration} {x : String} :
    c.withoutDeleted.attributes.get? k = some x ↔ c.attributes.get? k = some x ∧ x ≠ Attributes.deleted := by
  rw [← Attributes.undeleted_eq_some, ← Attributes.get?_withoutDeleted]
  rfl

theorem obey_of_agreed (present : w ≠ Attributes.deleted → ∃ c ∈ said, c.attributes.contains k)
    (agreed : ∀ c ∈ said, ∀ x, c.attributes.get? k = some x → x = w ∧ w ≠ Attributes.deleted) :
    Obey said k w where
  gone := by
    intro deletes c member
    cases found : c.attributes.get? k with
    | none => rfl
    | some x => exact absurd deletes (agreed c member x found).2
  held := by
    intro holds
    exact ⟨present holds, fun c member x found => (agreed c member x found).1⟩

-- Where the declarations agree with the word or delete, they obey it once the deleted keys are out.
theorem agreed_withoutDeleted {c : Configuration} {x : String}
    (agreed : ∀ x, c.attributes.get? k = some x → x = Attributes.deleted ∨ x = w)
    (found : c.withoutDeleted.attributes.get? k = some x) : x = w ∧ w ≠ Attributes.deleted := by
  obtain ⟨declared, kept⟩ := get?_withoutDeleted.mp found
  have same : x = w := (agreed x declared).resolve_left kept
  exact ⟨same, same ▸ kept⟩

theorem obey_declared (mentioned : ∃ c ∈ said, c.attributes.contains k)
    (agreed : ∀ c ∈ said, ∀ x, c.attributes.get? k = some x → x = w) :
    Obey (said.map (·.withoutDeleted)) k w := by
  apply obey_of_agreed
  · intro holds
    obtain ⟨c, member, present⟩ := mentioned
    obtain ⟨x, found⟩ := Dict.contains_iff.mp present
    have kept : x ≠ Attributes.deleted := by
      rw [agreed c member x found]
      exact holds
    exact ⟨c.withoutDeleted, List.mem_map_of_mem member,
      Dict.contains_iff.mpr ⟨x, get?_withoutDeleted.mpr ⟨found, kept⟩⟩⟩
  · intro c member x found
    obtain ⟨d, declared, rfl⟩ := List.mem_map.mp member
    exact agreed_withoutDeleted (fun y mention => .inr (agreed d declared y mention)) found

-- With the word laid over the first of a name, all depends on its repeats.
theorem obey_overlaid_iff {c : Configuration} (settled : c.attributes.get? k = Attributes.undeleted (some w)) :
    Obey (c :: said.map (·.withoutDeleted)) k w ↔
      ∀ d ∈ said, ∀ x, d.attributes.get? k = some x → x = Attributes.deleted ∨ x = w := by
  constructor
  · intro obeys d member x found
    by_cases deletes : x = Attributes.deleted
    · exact .inl deletes
    · have remains : d.withoutDeleted.attributes.get? k = some x := get?_withoutDeleted.mpr ⟨found, deletes⟩
      have there : d.withoutDeleted ∈ c :: said.map (·.withoutDeleted) := .tail _ (List.mem_map_of_mem member)
      by_cases gone : w = Attributes.deleted
      · rw [obeys.gone gone _ there] at remains
        cases remains
      · exact .inr ((obeys.held gone).2 _ there x remains)
  · intro agreed
    apply obey_of_agreed
    · intro holds
      have found : c.attributes.get? k = some w := settled.trans (Attributes.undeleted_eq_some.mpr ⟨rfl, holds⟩)
      exact ⟨c, List.mem_cons_self, Dict.contains_iff.mpr ⟨w, found⟩⟩
    · intro e member x found
      rcases List.mem_cons.mp member with rfl | other
      · rw [settled] at found
        obtain ⟨same, kept⟩ := Attributes.undeleted_eq_some.mp found
        cases same
        exact ⟨rfl, kept⟩
      · obtain ⟨d, declared, rfl⟩ := List.mem_map.mp other
        exact agreed_withoutDeleted (agreed d declared) found

end Configuration

namespace ConfigurationItem

-- The configurations of a name. An overlay meets the first one, and never its repeats.
def named (item : ConfigurationItem) (name : String) : List Configuration :=
  item.configurations.filter (·.name = name)

def repeats (item : ConfigurationItem) (name : String) : List Configuration := (item.named name).tail

theorem named_withoutDeleted (item : ConfigurationItem) (name : String) :
    item.withoutDeleted.named name = (item.named name).map (·.withoutDeleted) := List.filter_map

theorem named_grown (first : ConfigurationItem) (later : List ConfigurationItem) (name : String) :
    (first.grown later).named name =
      ((first.grown later).configuration? name).toList ++ (first.repeats name).map (·.withoutDeleted) := by
  have found : (first.grown later).configuration? name =
      laid Configuration.overlay Configuration.withoutDeleted (first.withoutDeleted.configuration? name)
        ((later.flatMap (·.configurations)).filter (·.name = name)) := by
    rw [grown, foldl_overlay]
    exact find?_gathered _ _ name
  have untouched : first.withoutDeleted.repeats name = (first.repeats name).map (·.withoutDeleted) := by
    rw [repeats, named_withoutDeleted, repeats, List.map_tail]
  rw [found, ← untouched, grown, foldl_overlay]
  exact filter_gather Configuration.overlay_name Configuration.withoutDeleted_name _ _ name

end ConfigurationItem

namespace Item

-- The list ends in these declarations, which grow together: before them stands none that is a configuration.
def EndsIn (said : List Item) (first : ConfigurationItem) (later : List ConfigurationItem) : Prop :=
  ∃ before, said = before ++ (first :: later).map configuration ∧
    ∀ d, before.getLast? = some d → d.configuration? = none

variable {said : List Item} {first last : ConfigurationItem} {later : List ConfigurationItem}

theorem EndsIn.laid (ends : EndsIn said first later) :
    laid overlay withoutDeleted none said = some (configuration (first.grown later)) := by
  obtain ⟨before, parts, cut⟩ := ends
  rw [parts]
  exact laid_of_run cut

theorem endsIn_of_getLast? (ends : said.getLast? = some (configuration last)) :
    ∃ first later, EndsIn said first later := by
  obtain ⟨before, first, later, parts, cut⟩ := run_of_configuration ends
  exact ⟨first, later, before, parts, cut⟩

-- The last declaration is the only one of the run, or was laid over the others.
theorem EndsIn.last_cases (ends : EndsIn said first later) (closing : said.getLast? = some (configuration last)) :
    (later = [] ∧ first = last) ∨ ∃ between, later = between ++ [last] := by
  obtain ⟨before, parts, _⟩ := ends
  rcases List.eq_nil_or_concat later with rfl | ⟨between, d, rfl⟩
  · rw [parts, List.map_singleton, List.getLast?_concat] at closing
    cases closing
    exact .inl ⟨rfl, rfl⟩
  · rw [parts, List.concat_eq_append, ← List.cons_append, List.map_append, ← List.append_assoc, List.map_singleton,
      List.getLast?_concat] at closing
    cases closing
    exact .inr ⟨between, List.concat_eq_append⟩

end Item

namespace ConfigurationItem

variable {first last : ConfigurationItem} {later : List ConfigurationItem} {name k w : String}

-- Laid over earlier declarations, what the last one agrees on is what the first of the name holds.
theorem overlaid_word (first : ConfigurationItem) (between : List ConfigurationItem)
    (mentioned : ∃ c ∈ last.named name, c.attributes.contains k)
    (agreed : ∀ c ∈ last.named name, ∀ x, c.attributes.get? k = some x → x = w) :
    ∃ c, (first.grown (between ++ [last])).configuration? name = some c ∧
      c.attributes.get? k = Attributes.undeleted (some w) := by
  have parts : mentions first (between ++ [last]) name = mentions first between name ++ last.named name := by
    simp [mentions, named]
  have said := Configuration.laid_settled (mentions first (between ++ [last]) name)
  rw [← configuration?_grown] at said
  cases found : (first.grown (between ++ [last])).configuration? name with
  | none =>
      rw [found, parts] at said
      obtain ⟨c, member, _⟩ := mentioned
      rw [(List.append_eq_nil_iff.mp said).2] at member
      cases member
  | some c =>
      rw [found] at said
      refine ⟨c, rfl, ?_⟩
      have word : lastMention k ((last.named name).map (·.attributes)) = some w := by
        apply lastMention_of_agreed
        · obtain ⟨d, member, present⟩ := mentioned
          exact ⟨d.attributes, List.mem_map_of_mem member, present⟩
        · intro a member x declared
          obtain ⟨d, there, rfl⟩ := List.mem_map.mp member
          exact agreed d there x declared
      rw [said.attributes, parts, List.map_append, lastMention_append, word]
      rfl

theorem obey_grown_iff (ends : (later = [] ∧ first = last) ∨ ∃ between, later = between ++ [last])
    (mentioned : ∃ c ∈ last.named name, c.attributes.contains k)
    (agreed : ∀ c ∈ last.named name, ∀ x, c.attributes.get? k = some x → x = w) :
    Configuration.Obey ((first.grown later).named name) k w ↔
      ∀ d ∈ first.repeats name, ∀ x, d.attributes.get? k = some x → x = Attributes.deleted ∨ x = w := by
  rcases ends with ⟨rfl, rfl⟩ | ⟨between, rfl⟩
  · -- Nothing was inherited: all that is held is what the last profile declares itself.
    have declared : (first.grown []).named name = (first.named name).map (·.withoutDeleted) :=
      named_withoutDeleted first name
    rw [declared]
    refine iff_of_true (Configuration.obey_declared mentioned agreed) fun d member x found => ?_
    exact .inr (agreed d (List.mem_of_mem_tail member) x found)
  · obtain ⟨c, found, settled⟩ := overlaid_word first between mentioned agreed
    rw [named_grown, found]
    exact Configuration.obey_overlaid_iff settled

end ConfigurationItem

namespace Profile

-- A profile that passes its own checks declares each of its items once.
theorem declarations_concat (earlier : List Profile) {last : Profile} {item : Item} (valid : last.validate = .ok ())
    (declared : item ∈ last.items) :
    declarations (earlier ++ [last]) item.id = declarations earlier item.id ++ [item] := by
  unfold declarations
  rw [List.flatMap_append, List.flatMap_singleton, List.filter_append]
  exact congrArg _ (filter_key_of_nodup (validate_eq_ok.mp valid).2.2.2 declared)

theorem items_named_merge (identity : ProfileId) (version : Version) (order : List Profile) (id : ItemId) :
    (merge identity version order).items.filter (·.id = id) =
      (laid Item.overlay Item.withoutDeleted none (declarations order id)).toList := by
  rw [items_merge, filter_gather Item.overlay_id Item.withoutDeleted_id]
  exact List.append_nil _

-- The item as it is merged, and what its configurations of a name say of the key that the last word is on.
structure LastWord (order : List Profile) (p : Profile) (id : ItemId) (name k w : String)
    (first : ConfigurationItem) (later : List ConfigurationItem) : Prop where
  run : Item.EndsIn (declarations order id) first later
  item : p.items.filter (·.id = id) = [.configuration (first.grown later)]
  -- Laid over what was inherited, it is heard by the first configuration of the name and by no other.
  overlaid : later ≠ [] → ∃ c, c.attributes.get? k = Attributes.undeleted (some w) ∧
    (first.grown later).named name = c :: (first.repeats name).map (·.withoutDeleted)
  -- It is final exactly if none of the others holds on to something else.
  final : Configuration.Obey ((first.grown later).named name) k w ↔
    ∀ d ∈ first.repeats name, ∀ x, d.attributes.get? k = some x → x = Attributes.deleted ∨ x = w

theorem merge_last_word (identity : ProfileId) (version : Version) (earlier : List Profile) {last : Profile}
    {item : ConfigurationItem} {name k w : String} (valid : last.validate = .ok ())
    (declared : .configuration item ∈ last.items) (mentioned : ∃ c ∈ item.named name, c.attributes.contains k)
    (agreed : ∀ c ∈ item.named name, ∀ x, c.attributes.get? k = some x → x = w) :
    ∃ first later, LastWord (earlier ++ [last]) (merge identity version (earlier ++ [last])) item.id name k w
      first later := by
  have said : declarations (earlier ++ [last]) item.id = declarations earlier item.id ++ [.configuration item] :=
    declarations_concat earlier valid declared
  have closing : (declarations (earlier ++ [last]) item.id).getLast? = some (.configuration item) := by
    rw [said]
    exact List.getLast?_concat
  obtain ⟨first, later, ends⟩ := Item.endsIn_of_getLast? closing
  have run := ends.last_cases closing
  refine ⟨first, later, ends, ?_, fun inherited => ?_, ConfigurationItem.obey_grown_iff run mentioned agreed⟩
  · rw [items_named_merge, ends.laid]
    rfl
  · rcases run with ⟨alone, _⟩ | ⟨between, rfl⟩
    · exact absurd alone inherited
    · obtain ⟨c, found, settled⟩ := ConfigurationItem.overlaid_word first between mentioned agreed
      refine ⟨c, settled, ?_⟩
      rw [ConfigurationItem.named_grown, found]
      rfl

-- A first declaration with two configurations of the default name, and one that takes a key of the second away.
def twofold : Profile where
  identity := "base"
  version := .first
  items := [.configuration { id := "web", configurations := [
    { name := "default", directives := .ofList [(Directives.includeKey, "karaf")] },
    { name := "default", attributes := .ofList [("port", "8181")] }] }]

def withdrawal : ConfigurationItem where
  id := "web"
  configurations := [{ name := "default", attributes := .ofList [("port", Attributes.deleted)] }]

def withdrawing : Profile where
  identity := "site"
  version := .first
  parents := ["base"]
  items := [.configuration withdrawal]

theorem withdrawal_mentions : ∃ c ∈ withdrawal.named "default", c.attributes.contains "port" := by
  decide +kernel

theorem withdrawal_agrees : ∀ c ∈ withdrawal.named "default", ∀ x, c.attributes.get? "port" = some x →
    x = Attributes.deleted := by
  intro c member x found
  cases List.mem_singleton.mp (List.mem_of_mem_filter member)
  exact (Option.some.inj found).symm

theorem merge_last_word_withdrawn :
    withdrawing.validate = .ok () ∧ Item.configuration withdrawal ∈ withdrawing.items ∧
    (∃ c ∈ withdrawal.named "default", c.attributes.contains "port") ∧
    (∀ c ∈ withdrawal.named "default", ∀ x, c.attributes.get? "port" = some x → x = Attributes.deleted) ∧
    ∃ first later, LastWord [twofold, withdrawing] (merge "effective#site" .first [twofold, withdrawing]) "web"
      "default" "port" Attributes.deleted first later := by
  have valid : withdrawing.validate = .ok () := by decide +kernel
  have declared : Item.configuration withdrawal ∈ withdrawing.items := List.mem_singleton_self _
  refine ⟨valid, declared, withdrawal_mentions, withdrawal_agrees, ?_⟩
  exact merge_last_word "effective#site" .first [twofold] valid declared withdrawal_mentions withdrawal_agrees

-- All profiles pass their checks, the last one deletes the key wherever it mentions it, and it is still there.
theorem deleted_key_outlives :
    (∀ p ∈ [twofold, withdrawing], p.validate = .ok ()) ∧ Item.configuration withdrawal ∈ withdrawing.items ∧
    (∃ c ∈ withdrawal.named "default", c.attributes.contains "port") ∧
    (∀ c ∈ withdrawal.named "default", ∀ x, c.attributes.get? "port" = some x → x = Attributes.deleted) ∧
    ∃ merged, Item.configuration merged ∈ (merge "effective#site" .first [twofold, withdrawing]).items ∧
      merged.id = withdrawal.id ∧ ∃ c ∈ merged.named "default", c.attributes.get? "port" = some "8181" := by
  refine ⟨by decide +kernel, List.mem_singleton_self _, withdrawal_mentions, withdrawal_agrees, ?_⟩
  refine ⟨_, List.mem_singleton_self _, rfl, ?_⟩
  decide +kernel

end Profile
end ContainerProfiles
