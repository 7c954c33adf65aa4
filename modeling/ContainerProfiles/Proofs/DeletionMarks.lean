import ContainerProfiles.Proofs.Namesakes

namespace ContainerProfiles

-- The deletion mark in a merged profile. No attribute holds it there, neither of the profile nor of a
-- configuration. Directives are laid over one another whatever they say, so under them the mark stays wherever it
-- was said last.

namespace Attributes

def Marked (a : Attributes) : Prop := deleted ∈ a.values

instance (a : Attributes) : Decidable a.Marked := inferInstanceAs (Decidable (deleted ∈ a.values))

theorem marked_iff {a : Attributes} : a.Marked ↔ ∃ k, a.get? k = some deleted := Dict.mem_values

theorem unmarked_of_undeleted {a : Attributes} {said : String → Option String}
    (settled : ∀ k, a.get? k = undeleted (said k)) : ¬ a.Marked := by
  intro marked
  obtain ⟨k, found⟩ := marked_iff.mp marked
  rw [settled] at found
  exact (undeleted_eq_some.mp found).2 rfl

end Attributes

namespace ConfigurationItem

variable {first : ConfigurationItem} {later : List ConfigurationItem} {name : String}

theorem mem_named {item : ConfigurationItem} {c : Configuration} :
    c ∈ item.named name ↔ c ∈ item.configurations ∧ c.name = name := by
  rw [named, List.mem_filter, decide_eq_true_eq]

theorem settled_of_configuration? {c : Configuration} (found : (first.grown later).configuration? name = some c) :
    c.Settled (mentions first later name) := by
  have settled := Configuration.laid_settled (mentions first later name)
  rw [← configuration?_grown, found] at settled
  exact settled

-- Where a configuration of a grown item comes from.
theorem grown_cases {c : Configuration} (member : c ∈ (first.grown later).configurations) :
    c.Settled (mentions first later c.name) ∨ ∃ d ∈ first.repeats c.name, c = d.withoutDeleted := by
  have named : c ∈ (first.grown later).named c.name := mem_named.mpr ⟨member, rfl⟩
  rw [named_grown] at named
  rcases List.mem_append.mp named with opening | repeated
  · exact .inl (settled_of_configuration? (Option.mem_toList.mp opening))
  · obtain ⟨d, declared, same⟩ := List.mem_map.mp repeated
    exact .inr ⟨d, declared, same.symm⟩

theorem grown_unmarked {c : Configuration} (member : c ∈ (first.grown later).configurations) :
    ¬ c.attributes.Marked := by
  rcases grown_cases member with settled | ⟨d, _, rfl⟩
  · exact Attributes.unmarked_of_undeleted settled.attributes
  · exact Attributes.unmarked_of_undeleted (Attributes.get?_withoutDeleted d.attributes)

-- The mark is the last that is said under a directive of the name, or was declared with a repeat of it.
def MarkedDirective (first : ConfigurationItem) (later : List ConfigurationItem) (name : String) : Prop :=
  (∃ k, lastMention k ((mentions first later name).map (·.directives)) = some Attributes.deleted) ∨
    ∃ d ∈ first.repeats name, d.directives.Marked

theorem markedDirective_of_mem {c : Configuration} (member : c ∈ (first.grown later).configurations)
    (marked : c.directives.Marked) : MarkedDirective first later c.name := by
  rcases grown_cases member with settled | ⟨d, declared, same⟩
  · obtain ⟨k, found⟩ := Attributes.marked_iff.mp marked
    exact .inl ⟨k, (settled.directives k).symm.trans found⟩
  · rw [same] at marked
    exact .inr ⟨d, declared, marked⟩

theorem marked_of_markedDirective (marked : MarkedDirective first later name) :
    ∃ c ∈ (first.grown later).configurations, c.directives.Marked := by
  suffices ∃ c ∈ (first.grown later).named name, c.directives.Marked by
    obtain ⟨c, member, held⟩ := this
    exact ⟨c, (mem_named.mp member).1, held⟩
  rw [named_grown]
  rcases marked with ⟨k, last⟩ | ⟨d, declared, held⟩
  · cases found : (first.grown later).configuration? name with
    | none =>
        rw [(grown_grown first later).mentioned name |>.mp found] at last
        cases last
    | some c =>
        have held : c.directives.get? k = some Attributes.deleted :=
          ((settled_of_configuration? found).directives k).trans last
        exact ⟨c, List.mem_append_left _ List.mem_cons_self, Attributes.marked_iff.mpr ⟨k, held⟩⟩
  · exact ⟨d.withoutDeleted, List.mem_append_right _ (List.mem_map_of_mem declared), held⟩

theorem declared_of_markedDirective (marked : MarkedDirective first later name) :
    ∃ item ∈ first :: later, ∃ c ∈ item.configurations, c.directives.Marked := by
  rcases marked with ⟨k, last⟩ | ⟨d, declared, held⟩
  · obtain ⟨a, member, found⟩ := mentioned_of_lastMention last
    obtain ⟨c, mentioned, rfl⟩ := List.mem_map.mp member
    have held : c.directives.Marked := Attributes.marked_iff.mpr ⟨k, found⟩
    rcases List.mem_append.mp mentioned with opening | overlaid
    · exact ⟨first, List.mem_cons_self, c, List.mem_of_find?_eq_some (Option.mem_toList.mp opening), held⟩
    · obtain ⟨item, there, configured⟩ := List.mem_flatMap.mp (List.mem_of_mem_filter overlaid)
      exact ⟨item, .tail _ there, c, configured, held⟩
  · exact ⟨first, List.mem_cons_self, d, (mem_named.mp (List.mem_of_mem_tail declared)).1, held⟩

end ConfigurationItem

namespace Profile

variable {identity : ProfileId} {version : Version} {order : List Profile} {id : ItemId}
  {first item : ConfigurationItem} {later : List ConfigurationItem}

theorem mem_configurationItems {p : Profile} : item ∈ p.configurationItems ↔ .configuration item ∈ p.items := by
  unfold configurationItems
  rw [List.mem_filterMap]
  constructor
  · rintro ⟨d, member, same⟩
    cases d <;> cases same
    exact member
  · exact fun member => ⟨_, member, rfl⟩

theorem endsIn_of_merge (member : item ∈ (merge identity version order).configurationItems) :
    ∃ first later, Item.EndsIn (declarations order item.id) first later ∧ item = first.grown later := by
  have named : Item.configuration item ∈ (merge identity version order).items.filter (·.id = item.id) :=
    List.mem_filter.mpr ⟨mem_configurationItems.mp member, decide_eq_true rfl⟩
  rw [items_named_merge, Option.mem_toList] at named
  cases ends : (declarations order item.id).getLast? with
  | none =>
      rw [List.getLast?_eq_none_iff.mp ends] at named
      cases named
  | some d =>
      cases d with
      | configuration last =>
          obtain ⟨first, later, run⟩ := Item.endsIn_of_getLast? ends
          rw [run.laid] at named
          cases named
          exact ⟨first, later, run, rfl⟩
      | resource _ =>
          rw [Item.laid_of_other ends rfl] at named
          cases named
      | requirement _ =>
          rw [Item.laid_of_other ends rfl] at named
          cases named

theorem grown_of_endsIn (run : Item.EndsIn (declarations order id) first later) :
    first.grown later ∈ (merge identity version order).configurationItems := by
  have named := items_named_merge identity version order id
  rw [run.laid] at named
  have member : Item.configuration (first.grown later) ∈ (merge identity version order).items.filter (·.id = id) := by
    rw [named]
    exact List.mem_singleton_self _
  exact mem_configurationItems.mpr (List.mem_of_mem_filter member)

theorem declared_of_endsIn (run : Item.EndsIn (declarations order id) first later) (member : item ∈ first :: later) :
    ∃ p ∈ order, item ∈ p.configurationItems := by
  obtain ⟨before, parts, _⟩ := run
  have declared : Item.configuration item ∈ declarations order id := by
    rw [parts]
    exact List.mem_append_right _ (List.mem_map_of_mem member)
  obtain ⟨p, listed, held⟩ := List.mem_flatMap.mp (List.mem_of_mem_filter declared)
  exact ⟨p, listed, mem_configurationItems.mpr held⟩

theorem attributes_merge (identity : ProfileId) (version : Version) (order : List Profile) (k : String) :
    (merge identity version order).attributes.get? k =
      Attributes.undeleted (lastMention k (order.map (·.attributes))) := by
  rw [merge, foldl_overlay]
  have nothing : (∅ : Attributes).get? k = Attributes.undeleted (lastMention k []) := rfl
  exact Attributes.get?_foldl_merge nothing (order.map (·.attributes))

structure Marks (order : List Profile) (p : Profile) : Prop where
  attributes : ¬ p.attributes.Marked
  configured : ∀ item ∈ p.configurationItems, ∀ c ∈ item.configurations, ¬ c.attributes.Marked
  directed : (∃ item ∈ p.configurationItems, ∃ c ∈ item.configurations, c.directives.Marked) ↔
    ∃ id first later name, Item.EndsIn (declarations order id) first later ∧
      ConfigurationItem.MarkedDirective first later name
  undirected : (∀ q ∈ order, ∀ item ∈ q.configurationItems, ∀ c ∈ item.configurations, ¬ c.directives.Marked) →
    ∀ item ∈ p.configurationItems, ∀ c ∈ item.configurations, ¬ c.directives.Marked

theorem markedDirective_of_merge {c : Configuration}
    (member : item ∈ (merge identity version order).configurationItems) (held : c ∈ item.configurations)
    (marked : c.directives.Marked) :
    ∃ id first later name, Item.EndsIn (declarations order id) first later ∧
      ConfigurationItem.MarkedDirective first later name := by
  obtain ⟨first, later, run, same⟩ := endsIn_of_merge member
  rw [same] at held
  exact ⟨_, first, later, c.name, run, ConfigurationItem.markedDirective_of_mem held marked⟩

theorem merge_marks (identity : ProfileId) (version : Version) (order : List Profile) :
    Marks order (merge identity version order) where
  attributes := Attributes.unmarked_of_undeleted (attributes_merge identity version order)
  configured := by
    intro item member c held
    obtain ⟨first, later, _, rfl⟩ := endsIn_of_merge member
    exact ConfigurationItem.grown_unmarked held
  directed := by
    constructor
    · rintro ⟨item, member, c, held, marked⟩
      exact markedDirective_of_merge member held marked
    · rintro ⟨id, first, later, name, run, marked⟩
      exact ⟨_, grown_of_endsIn run, ConfigurationItem.marked_of_markedDirective marked⟩
  undirected := by
    intro clean item member c held marked
    obtain ⟨id, first, later, name, run, left⟩ := markedDirective_of_merge member held marked
    obtain ⟨declared, inRun, d, configured, mark⟩ := ConfigurationItem.declared_of_markedDirective left
    obtain ⟨q, listed, there⟩ := declared_of_endsIn run inRun
    exact clean q listed declared there d configured mark

-- One runtime is asked for, and then the directive is taken back.
def narrowed : Profile where
  identity := "base"
  version := .first
  items := [.configuration { id := "web", configurations := [
    { name := "default", attributes := .ofList [("port", "8181")],
      directives := .ofList [(Directives.includeKey, "karaf")] }] }]

def widened : Profile where
  identity := "site"
  version := .first
  parents := ["base"]
  items := [.configuration { id := "web", configurations := [
    { name := "default", directives := .ofList [(Directives.includeKey, Attributes.deleted)] }] }]

-- Now the configuration applies nowhere.
theorem marked_directive_stays :
    ∃ item ∈ (merge "effective#site" .first [narrowed, widened]).configurationItems, ∃ c ∈ item.configurations,
      c.directives.Marked ∧ ∀ runtime, c.admits runtime = false := by
  refine ⟨_, List.mem_singleton_self _, _, List.mem_singleton_self _, by decide +kernel, fun runtime => ?_⟩
  cases runtime <;> decide +kernel

end Profile
end ContainerProfiles
