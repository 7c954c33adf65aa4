import ContainerProfiles.Proofs.Agendas
import ContainerProfiles.Proofs.Settling

namespace ContainerProfiles

-- What a resolution settles. Every requirement that comes into its line is left to what is fixed or chosen, or is
-- counted as unsatisfied, or was optional.

-- Everything in the list that is not optional is provided by one of the resources.
def Meets (rs : List Resource) (qs : List Requirement) : Prop :=
  ∀ q ∈ qs, q.optional = false → ∃ r ∈ rs, r.provides q

-- The resources provide what is asked for and what they need themselves.
structure SelfContained (asked : List Requirement) (rs : List Resource) : Prop where
  asked : Meets rs asked
  needed : ∀ r ∈ rs, Meets rs r.requirements

theorem SelfContained.congr {asked : List Requirement} {rs ss : List Resource} (contained : SelfContained asked rs)
    (same : ∀ r, r ∈ rs ↔ r ∈ ss) : SelfContained asked ss := by
  have meets : ∀ qs, Meets rs qs → Meets ss qs := by
    intro qs met q member mandatory
    obtain ⟨r, there, provides⟩ := met q member mandatory
    exact ⟨r, (same r).mp there, provides⟩
  exact ⟨meets _ contained.asked, fun r there => meets _ (contained.needed r ((same r).mpr there))⟩

namespace Environment

-- Either it is provided, or it counts as unsatisfied, or it did not matter.
def Settled (env : Environment) (found : Resolution) (q : Requirement) : Prop :=
  q.optional ∨ q ∈ found.unsatisfied ∨ env.provided found q

variable {env : Environment} {seen queue asked : List Requirement} {found last : Resolution} {q : Requirement}

theorem Settled.choose (settled : Settled env found q) (r : Resource) : Settled env (found.choose r) q := by
  refine settled.imp_right (Or.imp_right fun provided => ?_)
  obtain ⟨s, there, provides⟩ := List.any_eq_true.mp provided
  refine List.any_eq_true.mpr ⟨s, ?_, provides⟩
  rw [Resolution.choose, ← List.append_assoc]
  exact List.mem_append_left _ there

theorem Settled.leave (settled : Settled env found q) (other : Requirement) : Settled env (found.leave other) q := by
  unfold Resolution.leave
  split
  · exact settled
  · exact settled.imp_right (Or.imp_left (List.mem_append_left _))

theorem settled_leave (env : Environment) (found : Resolution) (q : Requirement) : Settled env (found.leave q) q := by
  unfold Resolution.leave
  split
  · rename_i optional
    exact .inl optional
  · exact .inr (.inl (List.mem_append_right _ (List.mem_singleton_self q)))

-- What came up before is settled, and what the chosen resources need has come up or is in line.
structure Underway (env : Environment) (seen : List Requirement) (found : Resolution) (queue : List Requirement) :
    Prop where
  settled : ∀ q ∈ seen, Settled env found q
  needed : ∀ r ∈ found.resources, ∀ q ∈ r.requirements, q ∈ seen ∨ q ∈ queue

theorem Underway.next {rest : List Requirement} {after : Resolution} (underway : Underway env seen found (q :: rest))
    (kept : ∀ p, Settled env found p → Settled env after p) (now : Settled env after q) (later : rest ⊆ queue)
    (joined : ∀ r ∈ after.resources, r ∈ found.resources ∨ r.requirements ⊆ queue) :
    Underway env (q :: seen) after queue := by
  refine ⟨fun p member => ?_, fun r there p needs => ?_⟩
  · rcases List.mem_cons.mp member with rfl | old
    · exact now
    · exact kept p (underway.settled p old)
  · rcases joined r there with old | new
    · rcases underway.needed r old p needs with up | line
      · exact .inl (.tail _ up)
      · rcases List.mem_cons.mp line with rfl | line
        · exact .inl List.mem_cons_self
        · exact .inr (later line)
    · exact .inr (new needs)

theorem leave_resources (found : Resolution) (q : Requirement) : (found.leave q).resources = found.resources := by
  unfold Resolution.leave
  split <;> rfl

theorem Settles.ends (run : Settles env seen found queue last) (underway : Underway env seen found queue) :
    ∃ whole, seen ⊆ whole ∧ queue ⊆ whole ∧ Underway env whole last [] := by
  induction run with
  | done => exact ⟨_, List.Subset.refl _, List.nil_subset _, underway⟩
  | @again seen found rest last q old _ ih =>
      have ready : Underway env seen found rest := by
        refine ⟨underway.settled, fun r there p needs => ?_⟩
        rcases underway.needed r there p needs with up | line
        · exact .inl up
        · rcases List.mem_cons.mp line with rfl | line
          · exact .inl old
          · exact .inr line
      obtain ⟨whole, up, line, ended⟩ := ih ready
      exact ⟨whole, up, List.cons_subset.mpr ⟨up old, line⟩, ended⟩
  | met _ provided _ ih =>
      have ready := underway.next (fun _ => id) (.inr (.inr provided)) (List.Subset.refl _) fun _ => .inl
      obtain ⟨whole, up, line, ended⟩ := ih ready
      obtain ⟨first, up⟩ := List.cons_subset.mp up
      exact ⟨whole, up, List.cons_subset.mpr ⟨first, line⟩, ended⟩
  | @chosen seen found rest last q r _ _ best _ ih =>
      have now : Settled env (found.choose r) q := by
        refine .inr (.inr (List.any_eq_true.mpr ⟨r, ?_, (best?_mem best).2⟩))
        exact List.mem_append_right _ (List.mem_append_right _ (List.mem_singleton_self r))
      have joined : ∀ s ∈ (found.choose r).resources,
          s ∈ found.resources ∨ s.requirements ⊆ rest ++ r.requirements := by
        intro s there
        refine (List.mem_append.mp there).imp_right fun last => ?_
        rw [List.mem_singleton.mp last]
        exact List.subset_append_right _ _
      have ready := underway.next (fun _ settled => settled.choose r) now (List.subset_append_left _ _) joined
      obtain ⟨whole, up, line, ended⟩ := ih ready
      obtain ⟨first, up⟩ := List.cons_subset.mp up
      exact ⟨whole, up, List.cons_subset.mpr ⟨first, (List.append_subset.mp line).1⟩, ended⟩
  | @unmet seen found rest last q _ _ _ _ ih =>
      have ready := underway.next (fun _ settled => settled.leave q) (settled_leave env found q)
        (List.Subset.refl _) fun r there => .inl (leave_resources found q ▸ there)
      obtain ⟨whole, up, line, ended⟩ := ih ready
      obtain ⟨first, up⟩ := List.cons_subset.mp up
      exact ⟨whole, up, List.cons_subset.mpr ⟨first, line⟩, ended⟩

-- What was asked for and what anything fixed or chosen needs.
theorem resolve_settled (env : Environment) (asked : List Requirement) :
    (∀ q ∈ asked, Settled env (env.resolve asked) q) ∧
      ∀ r ∈ env.fixed ++ (env.resolve asked).resources, ∀ q ∈ r.requirements, Settled env (env.resolve asked) q := by
  obtain ⟨whole, _, line, ended⟩ :=
    (settles_settle env [] {} (asked ++ env.fixed.flatMap (·.requirements))).ends ⟨nofun, nofun⟩
  obtain ⟨first, fixed⟩ := List.append_subset.mp line
  refine ⟨fun q member => ended.settled q (first member), fun r there q needs => ended.settled q ?_⟩
  rcases List.mem_append.mp there with standing | chosen
  · exact fixed (List.mem_flatMap.mpr ⟨r, standing, needs⟩)
  · exact (ended.needed r chosen q needs).resolve_right List.not_mem_nil

theorem resolve_selfContained (resolved : (env.resolve asked).satisfied) :
    SelfContained asked (env.fixed ++ (env.resolve asked).resources) := by
  have provided : ∀ q, Settled env (env.resolve asked) q → q.optional = false →
      ∃ r ∈ env.fixed ++ (env.resolve asked).resources, r.provides q := by
    rintro q (optional | missed | provided) mandatory
    · cases mandatory.symm.trans optional
    · rw [List.isEmpty_iff.mp resolved] at missed
      cases missed
    · exact List.any_eq_true.mp provided
  obtain ⟨first, later⟩ := env.resolve_settled asked
  exact ⟨fun q member => provided q (first q member), fun r there q needs => provided q (later r there q needs)⟩

end Environment

-- Of several fixed resources of one identity the first is kept.
theorem fixed_addAll (env : Environment) (rs : List Resource) :
    (rs.foldl Environment.addFixed env).fixed = rs.foldl addDistinct env.fixed := by
  induction rs generalizing env with
  | nil => rfl
  | cons r rest ih => exact ih (env.addFixed r)

theorem mem_addDistinct {fixed : List Resource} {r s : Resource} (there : r ∈ addDistinct fixed s) :
    r ∈ fixed ∨ r = s := by
  unfold addDistinct at there
  split at there
  · exact .inl there
  · exact (List.mem_append.mp there).imp_right List.mem_singleton.mp

theorem subset_addDistinct (fixed : List Resource) (s : Resource) : fixed ⊆ addDistinct fixed s := by
  unfold addDistinct
  split
  · exact List.Subset.refl _
  · exact List.subset_append_left _ _

theorem identity_addDistinct (fixed : List Resource) (s : Resource) :
    ∃ r ∈ addDistinct fixed s, r.identity = s.identity := by
  unfold addDistinct
  split
  · rename_i taken
    obtain ⟨r, there, same⟩ := List.any_eq_true.mp taken
    exact ⟨r, there, of_decide_eq_true same⟩
  · exact ⟨s, List.mem_append_right _ (List.mem_singleton_self s), rfl⟩

theorem mem_addAllDistinct {fixed rs : List Resource} {r : Resource} (there : r ∈ rs.foldl addDistinct fixed) :
    r ∈ fixed ∨ r ∈ rs := by
  induction rs generalizing fixed with
  | nil => exact .inl there
  | cons s rest ih =>
      rcases ih there with old | later
      · exact (mem_addDistinct old).imp_right fun same => List.mem_cons.mpr (.inl same)
      · exact .inr (.tail _ later)

theorem subset_addAllDistinct (fixed rs : List Resource) : fixed ⊆ rs.foldl addDistinct fixed := by
  induction rs generalizing fixed with
  | nil => exact List.Subset.refl _
  | cons s rest ih => exact List.Subset.trans (subset_addDistinct fixed s) (ih _)

theorem identity_addAllDistinct {fixed rs : List Resource} {s : Resource} (given : s ∈ rs) :
    ∃ r ∈ rs.foldl addDistinct fixed, r.identity = s.identity := by
  induction rs generalizing fixed with
  | nil => cases given
  | cons r rest ih =>
      rcases List.mem_cons.mp given with rfl | later
      · obtain ⟨r, there, same⟩ := identity_addDistinct fixed s
        exact ⟨r, subset_addAllDistinct _ rest there, same⟩
      · exact ih later

namespace Profile

variable {p : Profile} {env : Environment} {r : Resource}

theorem resources_wanted (p : Profile) (env : Environment) : (p.wanted env).map (·.resource) =
    ((p.environment env).resolve p.requirements).resources ++ p.explicitItems.map (·.resource) := by
  simp [wanted, Function.comp_def]

-- All that is fixed, found or declared under one identity is one resource.
def Unambiguous (p : Profile) (env : Environment) : Prop :=
  ∀ r ∈ env.fixed ++ (p.wanted env).map (·.resource), ∀ s ∈ env.fixed ++ (p.wanted env).map (·.resource),
    r.identity = s.identity → r = s

theorem mem_fixed (there : r ∈ (p.environment env).fixed) : r ∈ env.fixed ∨ r ∈ p.explicitItems.map (·.resource) := by
  unfold environment at there
  rw [fixed_addAll] at there
  exact mem_addAllDistinct there

theorem fixed_subset (p : Profile) (env : Environment) : env.fixed ⊆ (p.environment env).fixed := by
  unfold environment
  rw [fixed_addAll]
  exact subset_addAllDistinct _ _

theorem fixed_identity (explicit : r ∈ p.explicitItems.map (·.resource)) :
    ∃ s ∈ (p.environment env).fixed, s.identity = r.identity := by
  unfold environment
  rw [fixed_addAll]
  exact identity_addAllDistinct explicit

end Profile

namespace Provisioner

variable {p : Provisioner} {effective : Profile} {env : Environment} {plan : List Wanted} {w : Wanted} {r : Resource}
  {runtime : RuntimeType} {installed : List Installed}

theorem Planned.wanted (planned : Planned effective env plan) (member : w ∈ plan) : w ∈ effective.wanted env :=
  List.mem_of_mem_filter (List.mem_of_getLast? (planned.last member))

theorem Planned.covers (planned : Planned effective env plan) (asked : w ∈ effective.wanted env) :
    ∃ v ∈ plan, v.resource.identity = w.resource.identity := by
  have known : w.resource.identity ∈ wantedIds plan := by
    rw [planned.ids, List.mem_eraseDups, ← Profile.wantedIds_wanted]
    exact List.mem_map_of_mem asked
  exact List.mem_map.mp known

-- So the plan holds what was resolved and what was fixed for the profile.
theorem Planned.resources (planned : Planned effective env plan) (unambiguous : effective.Unambiguous env) :
    r ∈ (effective.environment env).fixed ++ ((effective.environment env).resolve effective.requirements).resources ↔
      r ∈ env.fixed ++ plan.map (·.resource) := by
  have kept : r ∈ (effective.wanted env).map (·.resource) → r ∈ plan.map (·.resource) := by
    intro asked
    obtain ⟨w, member, rfl⟩ := List.mem_map.mp asked
    obtain ⟨v, there, same⟩ := planned.covers member
    refine List.mem_map.mpr ⟨v, there, ?_⟩
    refine unambiguous _ (List.mem_append_right _ ?_) _ (List.mem_append_right _ asked) same
    exact List.mem_map_of_mem (planned.wanted there)
  have given : r ∈ plan.map (·.resource) → r ∈ (effective.wanted env).map (·.resource) := by
    intro there
    obtain ⟨w, member, rfl⟩ := List.mem_map.mp there
    exact List.mem_map_of_mem (planned.wanted member)
  rw [Profile.resources_wanted] at kept given
  rw [List.mem_append, List.mem_append]
  constructor
  · rintro (standing | found)
    · exact (Profile.mem_fixed standing).imp_right fun explicit => kept (List.mem_append_right _ explicit)
    · exact .inr (kept (List.mem_append_left _ found))
  · rintro (standing | there)
    · exact .inl (effective.fixed_subset env standing)
    · rcases List.mem_append.mp (given there) with found | explicit
      · exact .inr found
      · obtain ⟨s, fixed, same⟩ : ∃ s ∈ (effective.environment env).fixed, s.identity = r.identity :=
          Profile.fixed_identity explicit
        have listed : ∀ x, x ∈ env.fixed ∨ x ∈ effective.explicitItems.map (·.resource) →
            x ∈ env.fixed ++ (effective.wanted env).map (·.resource) := by
          intro x either
          rw [Profile.resources_wanted]
          exact List.mem_append.mpr (either.imp_right (List.mem_append_right _))
        rw [← unambiguous s (listed s (Profile.mem_fixed fixed)) r (listed r (.inr explicit)) same]
        exact .inl fixed

theorem planned_of_done (done : (p.reconcile runtime effective installed).outcome = .ok ()) :
    ∃ plan, Planned effective p.repository.environment plan := by
  refine p.reconcile_elim runtime effective installed
    (P := fun pass => pass.outcome = .ok () → ∃ plan, Planned effective p.repository.environment plan)
    (fun _ _ _ => nofun) (fun _ _ _ _ => nofun) ?_ ?_ done
  · intro e _ _ _ _ _ _ failed done
    cases failed.symm.trans done
  · exact fun _ plan _ _ planned _ _ _ => ⟨plan, planned_of_plan planned⟩

-- What a pass that succeeds was checked for, and what it has installed in the end.
structure Closed (env : Environment) (effective : Profile) (left : List Installed) (plan : List Wanted) : Prop where
  planned : Planned effective env plan
  installed : ∀ id, id ∈ resourceIds left ↔ id ∈ wantedIds plan
  checked : SelfContained effective.requirements ((effective.environment env).fixed ++
    ((effective.environment env).resolve effective.requirements).resources)
  desired : effective.Unambiguous env → SelfContained effective.requirements (env.fixed ++ plan.map (·.resource))

theorem reconcile_closed (done : (p.reconcile runtime effective installed).outcome = .ok ()) :
    ∃ plan, Closed p.repository.environment effective (p.reconcile runtime effective installed).installed plan := by
  obtain ⟨plan, planned⟩ := planned_of_done done
  have checked := Environment.resolve_selfContained planned.resolved
  refine ⟨plan, planned, fun id => ?_, checked, fun unambiguous => checked.congr fun r => planned.resources unambiguous⟩
  rw [reconcile_ids done, planned.ids, List.mem_eraseDups]

end Provisioner

def needy (items : List Item) : Profile :=
  { identity := "site", version := .first, items := items ++ [.requirement { id := "log", requirement := logging }] }

theorem needy_found : ((needy []).environment loggers).resolve (needy []).requirements = ⟨[logger], []⟩ :=
  Environment.settle_of_settles (.chosen List.not_mem_nil (by decide) rfl .done)

namespace Provisioner

theorem reconcile_closed_logger :
    (reconcile { repository := { environment := loggers } } .other (needy []) []).outcome = .ok () ∧
      (needy []).Unambiguous loggers ∧
      ∃ plan, Closed loggers (needy [])
        (reconcile { repository := { environment := loggers } } .other (needy []) []).installed plan := by
  have done : (reconcile { repository := { environment := loggers } } .other (needy []) []).outcome = .ok () := by
    have planned := plan_of_found (p := { repository := { environment := loggers } }) needy_found rfl
    have once : (resourceIds []).Nodup := List.nodup_nil
    rw [reconcile_follows once rfl planned]
    rfl
  refine ⟨done, ?_, reconcile_closed done⟩
  have one : (needy []).wanted loggers = [⟨logger, false⟩] := by
    rw [Profile.wanted, needy_found]
    rfl
  unfold Profile.Unambiguous
  rw [one]
  intro r there s here _
  rw [List.mem_singleton.mp there, List.mem_singleton.mp here]

end Provisioner

namespace Deployment

-- It declares a resource of its own under the identity of the one in the repository.
def replacing : Profile := needy [.resource { id := "own", resource := { identity := "log:1.0.0" } }]

-- That resource takes the place of the one that was found for what it provides.
theorem replaced_provider_passes :
    ∃ s c effective plan, build {} (staged [replacing] loggers).store
        { repository := { environment := loggers, failing := [] } } {} "" = .ok s ∧
      let before := s.turns staging
      let t := before.modify "a" fun _ => c
      before.prepareStart "main" "a" = .ok c ∧ t.containers.live.get? "a" = some c ∧
      t.effectiveFor "main" .first c.profiles = .ok effective ∧ (t.passOf c effective).outcome = .ok () ∧
      t.provisioner.plan effective = .ok plan ∧
      ¬ SelfContained effective.requirements (plan.map (·.resource)) := by
  let t := ((staged [replacing] loggers).turns staging).modify "a" fun _ => createdStarted
  let effective := Profile.merge (Profile.effectiveIdentityFor .first ["site"]) .first [replacing]
  have computed : t.effectiveFor "main" .first ["site"] = .ok effective :=
    effectiveFor_of_walk rfl rfl (.fresh List.not_mem_nil List.not_mem_nil rfl .done .done)
  have found : (effective.environment t.provisioner.repository.environment).resolve effective.requirements =
      ⟨[logger], []⟩ := Environment.settle_of_settles (.chosen List.not_mem_nil (by decide) rfl .done)
  have planned := Provisioner.plan_of_found found rfl
  refine ⟨_, createdStarted, effective, _, build_staged _ _, rfl, rfl, computed, ?_, planned, fun contained => ?_⟩
  · have once : (Provisioner.resourceIds createdStarted.installed).Nodup := List.nodup_nil
    rw [passOf, Provisioner.reconcile_follows once rfl planned]
    rfl
  · obtain ⟨r, there, provides⟩ := contained.asked logging List.mem_cons_self rfl
    cases List.mem_singleton.mp there
    cases provides

end Deployment
end ContainerProfiles
