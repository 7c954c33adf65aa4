import ContainerProfiles.Proofs.Worklists

namespace ContainerProfiles

-- Which resource a resolution picks.

namespace Resource

-- A newer version outranks an older one and any version outranks none; without versions the later identity does.
inductive Outranks (r s : Resource) : Prop
  | newer : r.version? = some v → s.version? = some w → compare v w = .gt → Outranks r s
  | versioned : r.version? = some v → s.version? = none → Outranks r s
  | named : r.version? = none → s.version? = none → s.identity < r.identity → Outranks r s

variable {r s t : Resource}

theorem outranks_iff : r.Outranks s ↔ r.compareVersions s = .gt := by
  have later : compare r.identity s.identity = .gt ↔ s.identity < r.identity :=
    Std.OrientedCmp.gt_iff_lt.trans compareOfLessAndEq_eq_lt
  constructor
  · intro outranks
    cases outranks with
    | newer one two order => simpa only [compareVersions, one, two] using order
    | versioned one two => simp only [compareVersions, one, two]
    | named one two order => simpa only [compareVersions, one, two] using later.mpr order
  · intro order
    unfold compareVersions at order
    split at order
    · rename_i one two
      exact .newer one two order
    · rename_i one two
      exact .versioned one two
    · cases order
    · rename_i one two
      exact .named one two (later.mp order)

instance : Std.TransCmp compareVersions where
  eq_swap {r s} := by
    cases one : r.version? <;> cases two : s.version? <;> simp only [compareVersions, one, two]
    · exact Std.OrientedOrd.eq_swap
    · rfl
    · rfl
    · exact Std.OrientedOrd.eq_swap
  isLE_trans {r s t} first second := by
    cases one : r.version? <;> cases two : s.version? <;> cases three : t.version? <;>
      simp only [compareVersions, one, two, three] at first second ⊢
    all_goals first | exact Std.TransOrd.isLE_trans first second | contradiction | rfl

theorem not_outranks_iff : ¬ r.Outranks s ↔ (r.compareVersions s).isLE := by
  rw [outranks_iff, Ordering.isLE_iff_ne_gt]

theorem Outranks.asymm (outranks : r.Outranks s) : ¬ s.Outranks r := by
  have swapped : s.compareVersions r = (r.compareVersions s).swap := Std.OrientedCmp.eq_swap
  rw [outranks_iff] at outranks ⊢
  rw [swapped, outranks]
  decide

theorem not_outranks_self (r : Resource) : ¬ r.Outranks r := fun outranks => outranks.asymm outranks

theorem not_outranks_trans (first : ¬ r.Outranks s) (second : ¬ s.Outranks t) : ¬ r.Outranks t := by
  rw [not_outranks_iff] at first second ⊢
  exact Std.TransCmp.isLE_trans first second

end Resource

-- No provider before it outranks it, and it outranks every provider after it.
def Foremost (rs : List Resource) (q : Requirement) (r : Resource) : Prop :=
  ∃ before after, rs = before ++ r :: after ∧ r.provides q ∧ (∀ s ∈ before, s.provides q → ¬ s.Outranks r) ∧
    ∀ s ∈ after, s.provides q → r.Outranks s

namespace Foremost

variable {rs : List Resource} {q : Requirement} {r s : Resource}

theorem highest (foremost : Foremost rs q r) : ∀ s ∈ rs, s.provides q → ¬ s.Outranks r := by
  obtain ⟨before, after, rfl, _, early, late⟩ := foremost
  intro s there provides
  rcases List.mem_append.mp there with first | rest
  · exact early s first provides
  · rcases List.mem_cons.mp rest with rfl | last
    · exact s.not_outranks_self
    · exact (late s last provides).asymm

-- A resource added after it that does not provide the requirement, or that it outranks, changes nothing.
theorem stays (foremost : Foremost rs q r) (below : s.provides q → r.Outranks s) : Foremost (rs ++ [s]) q r := by
  obtain ⟨before, after, rfl, provides, early, late⟩ := foremost
  refine ⟨before, after ++ [s], List.append_assoc _ _ _, provides, early, fun t there provided => ?_⟩
  rcases List.mem_append.mp there with old | new
  · exact late t old provided
  · cases List.mem_singleton.mp new
    exact below provided

theorem last (provides : s.provides q) (highest : ∀ t ∈ rs, t.provides q → ¬ t.Outranks s) :
    Foremost (rs ++ [s]) q s := ⟨rs, [], rfl, provides, highest, nofun⟩

theorem unique (foremost : Foremost rs q r) (other : Foremost rs q s) : r = s := by
  obtain ⟨before, after, rfl, provides, early, late⟩ := foremost
  obtain ⟨before', after', same, provides', early', late'⟩ := other
  rcases List.append_eq_append_iff.mp same with ⟨between, rfl, rest⟩ | ⟨between, rfl, rest⟩
  · cases between with
    | nil => exact (List.cons.inj rest).1
    | cons t between =>
        obtain ⟨rfl, rfl⟩ := List.cons.inj rest
        exact (early' r (by simp) provides (late s (by simp) provides')).elim
  · cases between with
    | nil => exact (List.cons.inj rest).1.symm
    | cons t between =>
        obtain ⟨rfl, rfl⟩ := List.cons.inj rest
        exact (early s (by simp) provides' (late' r (by simp) provides)).elim

end Foremost

namespace Environment

variable {env : Environment} {asked : List Requirement} {rs : List Resource} {q : Requirement} {r : Resource}

-- The later one of the two, unless the one held outranks it.
theorem better_cases {b s : Resource} (picked : better (some b) s = some r) :
    r = b ∧ b.Outranks s ∨ r = s ∧ ¬ b.Outranks s := by
  rw [better] at picked
  split at picked
  · rename_i above
    cases picked
    exact .inl ⟨rfl, Resource.outranks_iff.mpr above⟩
  · rename_i below
    cases picked
    exact .inr ⟨rfl, Resource.outranks_iff.not.mpr below⟩

-- By induction from the end: the last provider is compared with the pick among those before it.
theorem foremost_of_fold (picked : (rs.filter (·.provides q)).foldl better none = some r) : Foremost rs q r := by
  induction rs using List.reverseRecOn generalizing r with
  | nil => cases picked
  | append_singleton rs s ih =>
      rw [List.filter_append, List.foldl_append] at picked
      by_cases provides : s.provides q
      · have alone : [s].filter (·.provides q) = [s] := List.filter_cons_of_pos provides
        rw [alone, List.foldl_cons, List.foldl_nil] at picked
        cases held : (rs.filter (·.provides q)).foldl better none with
        | none =>
            rw [held] at picked
            cases picked
            have nobody := List.filter_eq_nil_iff.mp (better_fold_none held)
            exact .last provides fun t there provided => (nobody t there provided).elim
        | some b =>
            rw [held] at picked
            rcases better_cases picked with ⟨rfl, above⟩ | ⟨rfl, below⟩
            · exact (ih held).stays fun _ => above
            · refine .last provides fun t there provided => ?_
              exact Resource.not_outranks_trans ((ih held).highest t there provided) below
      · have none : [s].filter (·.provides q) = [] := List.filter_cons_of_neg provides
        rw [none, List.foldl_nil] at picked
        exact (ih picked).stays fun provided => (provides provided).elim

-- There is one such resource wherever there is a provider, and it is the pick.
theorem best?_iff : env.best? q = some r ↔ Foremost env.resources q r := by
  refine ⟨foremost_of_fold, fun foremost => ?_⟩
  cases picked : env.best? q with
  | none =>
      obtain ⟨before, after, listed, provides, _⟩ := foremost
      have there : r ∈ env.resources := listed ▸ List.mem_append_right _ List.mem_cons_self
      exact (best?_none picked r there provides).elim
  | some s => rw [(foremost_of_fold picked).unique foremost]

-- A requirement that is due by then calls for the resource: nothing fixed or picked before provides it, and nothing
-- in the repository that does outranks the resource or, where it comes later, so much as equals it.
structure CalledFor (env : Environment) (asked : List Requirement) (earlier : List Resource) (r : Resource)
    (q : Requirement) : Prop where
  due : q ∈ closure asked (env.fixed ++ earlier)
  unmet : ∀ s ∈ env.fixed ++ earlier, ¬ s.provides q
  highest : ∀ s ∈ env.resources, s.provides q → ¬ s.Outranks r
  foremost : Foremost env.resources q r

structure Reasoned (env : Environment) (asked : List Requirement) (l : Line) : Prop where
  covers : Covers env asked l
  reasons : ∀ earlier r later, l.found.resources = earlier ++ r :: later → ∃ q, CalledFor env asked earlier r q

theorem Round.reasoned {l m : Line} (round : Round env l m) (reasoned : Reasoned env asked l) :
    Reasoned env asked m := by
  refine ⟨round.covers reasoned.covers, ?_⟩
  cases round with
  | ended => exact reasoned.reasons
  | again => exact reasoned.reasons
  | met => exact reasoned.reasons
  | unmet =>
      rw [leave_resources]
      exact reasoned.reasons
  | @chosen seen found rest q r new unprovided best =>
      -- The resource in question is the one just picked, or it was there before with all that is earlier.
      intro earlier s later listed
      rcases List.eq_nil_or_concat later with rfl | ⟨later, t, rfl⟩
      · obtain ⟨rfl, same⟩ := List.append_inj' listed rfl
        cases same
        have due := (reasoned.covers q).mp (.inr List.mem_cons_self)
        have foremost := best?_iff.mp best
        refine ⟨q, due, fun s there provides => ?_, foremost.highest, foremost⟩
        exact unprovided ((provided_iff env found q).mpr ⟨s, there, provides⟩)
      · rw [List.concat_eq_append, ← List.cons_append, ← List.append_assoc] at listed
        exact reasoned.reasons earlier s later (List.append_inj' listed rfl).1

-- A repository and fixed resources as they are put together.
inductive Assembled : Environment → Prop
  | named (name : String) : Assembled { name }
  | resource {env : Environment} (r : Resource) : Assembled env → Assembled (env.addResource r)
  | fixed {env : Environment} (r : Resource) : Assembled env → Assembled (env.addFixed r)

theorem addDistinct_nodup (once : (rs.map (·.identity)).Nodup) (r : Resource) :
    ((addDistinct rs r).map (·.identity)).Nodup := by
  unfold addDistinct
  split
  · exact once
  · rename_i free
    rw [List.map_append]
    refine once.append (List.nodup_singleton _) (List.disjoint_singleton.mpr fun taken => free ?_)
    obtain ⟨s, there, same⟩ := List.mem_map.mp taken
    exact List.any_eq_true.mpr ⟨s, there, decide_eq_true same⟩

theorem Assembled.distinct (assembled : Assembled env) : (env.resources.map (·.identity)).Nodup := by
  induction assembled with
  | named => exact List.nodup_nil
  | resource r _ ih => exact addDistinct_nodup ih r
  | fixed _ _ ih => exact ih

structure Choices (env : Environment) (asked : List Requirement) (picked : List Resource) : Prop where
  stored : picked ⊆ env.resources
  distinct : (picked.map (·.identity)).Nodup
  reasons : ∀ earlier r later, picked = earlier ++ r :: later → ∃ q, CalledFor env asked earlier r q

theorem resolve_choices (assembled : Assembled env) (asked : List Requirement) :
    Choices env asked (env.resolve asked).resources := by
  obtain ⟨stored, different⟩ := env.resolve_drawn asked
  have start : Reasoned env asked (env.opening asked) := by
    refine ⟨covers_opening env asked, fun earlier r later listed => ?_⟩
    cases List.append_ne_nil_of_right_ne_nil earlier (List.cons_ne_nil r later) listed.symm
  obtain ⟨_, reasoned⟩ := resolve_keeps (fun _ _ round reasoned => round.reasoned reasoned) start
  refine ⟨stored, different.map_on fun r here s there same => ?_, reasoned.reasons⟩
  exact List.inj_on_of_nodup_map assembled.distinct (stored here) (stored there) same

-- Two versions of one resource and one whose version cannot be read.
def releases : Environment :=
  [.named "log" "1.10.0", .named "log" "1.9.0", .named "log" "beta"].foldl addResource { name := "repository" }

theorem resolve_choices_releases : Assembled releases ∧
    Choices releases [⟨"identity", "log", false⟩] (releases.resolve [⟨"identity", "log", false⟩]).resources ∧
    releases.resolve [⟨"identity", "log", false⟩] = ⟨[.named "log" "1.10.0"], []⟩ := by
  have assembled : Assembled releases := .resource _ (.resource _ (.resource _ (.named "repository")))
  have best : releases.best? ⟨"identity", "log", false⟩ = some (.named "log" "1.10.0") := rfl
  exact ⟨assembled, resolve_choices assembled _, settle_of_settles (.chosen List.not_mem_nil (by decide) best .done)⟩

end Environment
end ContainerProfiles
