import ContainerProfiles.Proofs.Merging
import ContainerProfiles.Proofs.Reconciling

namespace ContainerProfiles

-- What a pass sets out to do. Its plan names everything the profile asks for once, at its first place and as it
-- was declared last.

abbrev wantedIds (plan : List Wanted) : List ResourceId := plan.map (·.resource.identity)

namespace Profile

-- With all repetitions: first what the requirements resolve to, then the profile's own resources.
def wanted (p : Profile) (env : Environment) : List Wanted :=
  ((p.environment env).resolve p.requirements).resources.map (fun r => ⟨r, false⟩) ++
    p.explicitItems.map (fun i => ⟨i.resource, i.shared⟩)

-- How the profile has a resource installed. What it only requires is never shared.
def sharedMode (p : Profile) (id : ResourceId) : Bool :=
  ((p.explicitItems.filter (·.resource.identity = id)).getLast?.map (·.shared)).getD false

theorem wantedIds_wanted (p : Profile) (env : Environment) : wantedIds (p.wanted env) = p.desired env := by
  unfold wantedIds wanted desired
  rw [List.map_append, List.map_map, List.map_map]
  rfl

theorem getLast?_wanted (p : Profile) (env : Environment) (id : ResourceId) :
    ((p.wanted env).filter (·.resource.identity = id)).getLast? =
      ((p.explicitItems.filter (·.resource.identity = id)).getLast?.map fun i => ⟨i.resource, i.shared⟩).or
        (((((p.environment env).resolve p.requirements).resources.filter (·.identity = id)).getLast?).map
          fun r => ⟨r, false⟩) := by
  unfold wanted
  rw [List.filter_append, List.filter_map, List.filter_map, List.getLast?_append, List.getLast?_map,
    List.getLast?_map]
  rfl

theorem shared_of_last {p : Profile} {env : Environment} {id : ResourceId} {w : Wanted}
    (last : ((p.wanted env).filter (·.resource.identity = id)).getLast? = some w) : w.shared = p.sharedMode id := by
  rw [getLast?_wanted] at last
  unfold sharedMode
  cases explicit : (p.explicitItems.filter (·.resource.identity = id)).getLast? with
  | some item =>
      rw [explicit] at last
      cases last
      rfl
  | none =>
      rw [explicit, Option.map_none, Option.none_or] at last
      obtain ⟨r, _, rfl⟩ := Option.map_eq_some_iff.mp last
      rfl

end Profile

namespace Provisioner

variable {p q : Provisioner} {effective : Profile} {plan wanted : List Wanted} {installed kept : List Installed}

theorem laid_last (found : Option Wanted) (later : List Wanted) :
    laid (fun _ w => w) (fun w => w) found later = later.getLast?.or found := by
  induction later using List.reverseRecOn with
  | nil => rfl
  | append_singleton later w ih =>
      unfold laid at ih ⊢
      rw [List.foldl_concat, ih, List.getLast?_concat]
      cases later.getLast?.or found <;> rfl

structure Planned (effective : Profile) (env : Environment) (plan : List Wanted) : Prop where
  resolved : ((effective.environment env).resolve effective.requirements).satisfied
  ids : wantedIds plan = (effective.desired env).eraseDups
  declared : ∀ id, plan.find? (·.resource.identity = id) =
    ((effective.wanted env).filter (·.resource.identity = id)).getLast?

theorem planned_of_plan (made : p.plan effective = .ok plan) :
    Planned effective p.repository.environment plan := by
  unfold Provisioner.plan at made
  dsimp only at made
  split at made
  · rename_i resolved
    cases made
    refine ⟨resolved, ?_, fun id => ?_⟩
    · refine (keys_gather (fun _ _ _ => rfl) (fun _ => rfl) [] (effective.wanted p.repository.environment)).trans ?_
      rw [← Profile.wantedIds_wanted]
      simp
    · refine (find?_gather (fun _ _ _ => rfl) (fun _ => rfl) [] (effective.wanted p.repository.environment) id).trans ?_
      exact (laid_last none _).trans Option.or_none
  · cases made

theorem plan_of_found {found : Resolution}
    (resolved : (effective.environment p.repository.environment).resolve effective.requirements = found)
    (all : found.unsatisfied = []) : p.plan effective = .ok ((found.resources.map (fun r => Wanted.mk r false) ++
      effective.explicitItems.map fun i => Wanted.mk i.resource i.shared).foldl addWanted []) := by
  unfold Provisioner.plan Resolution.satisfied
  dsimp only
  rw [resolved, all]
  rfl

-- Where nothing is required, not by the profile's own resources either, they are all there is to the plan.
theorem plan_unrequiring (bare : effective.requirements ++
      (effective.environment p.repository.environment).fixed.flatMap (·.requirements) = []) :
    p.plan effective = .ok ((effective.explicitItems.map fun i => ⟨i.resource, i.shared⟩).foldl addWanted []) := by
  have nothing : (effective.environment p.repository.environment).resolve effective.requirements = {} := by
    unfold Environment.resolve
    rw [bare]
    exact Environment.settle.eq_1 ..
  exact plan_of_found nothing rfl

namespace Planned

variable {env : Environment}

theorem once (planned : Planned effective env plan) : (wantedIds plan).Nodup := planned.ids ▸ nodup_eraseDups _

theorem last (planned : Planned effective env plan) {w : Wanted} (member : w ∈ plan) :
    ((effective.wanted env).filter (·.resource.identity = w.resource.identity)).getLast? = some w := by
  rw [← planned.declared, ← List.head?_filter, filter_key_of_nodup planned.once member]
  rfl

theorem mode (planned : Planned effective env plan) {w : Wanted} (member : w ∈ plan) :
    w.shared = effective.sharedMode w.resource.identity := Profile.shared_of_last (planned.last member)

end Planned

end Provisioner

inductive PassStep where
  | release (i : Installed)
  | install (w : Wanted)

namespace PassStep

def identity : PassStep → ResourceId
  | release i => i.identity
  | install w => w.resource.identity

end PassStep

def agenda (installed : List Installed) (plan : List Wanted) : List PassStep :=
  (installed.reverse.filter (fun i => i.identity ∉ wantedIds plan)).map .release ++
    (plan.filter (fun w => w.resource.identity ∉ Provisioner.resourceIds installed)).map .install

namespace Provisioner

variable {p q : Provisioner} {effective : Profile} {plan wanted : List Wanted} {installed kept held : List Installed}
  {step : PassStep} {steps more : List PassStep}

-- What is installed on the container is part of the state.
def take (p : Provisioner) (held : List Installed) : PassStep → Except ProvisionError (Provisioner × List Installed)
  | .release i => do return (← p.release i, held.erase i)
  | .install w => do
      let (i, p) ← p.put w.resource w.shared
      return (p, held ++ [i])

def follow (p : Provisioner) (held : List Installed) : List PassStep → Pass
  | [] => ⟨.ok (), p, held⟩
  | step :: rest =>
      match p.take held step with
      | .error e => ⟨.error e, p, held⟩
      | .ok (q, left) => q.follow left rest

theorem follow_cons (taken : p.take held step = .ok (q, kept)) :
    p.follow held (step :: steps) = q.follow kept steps := by
  rw [follow, taken]

theorem follow_failed (failed : p.take held step = .error e) : p.follow held (step :: steps) = ⟨.error e, p, held⟩ := by
  rw [follow, failed]

theorem follow_append (p : Provisioner) (held : List Installed) (steps more : List PassStep) :
    p.follow held (steps ++ more) =
      match (p.follow held steps).outcome with
      | .error _ => p.follow held steps
      | .ok () => (p.follow held steps).provisioner.follow (p.follow held steps).installed more := by
  induction steps generalizing p held with
  | nil => rfl
  | cons step rest ih =>
      rw [List.cons_append]
      cases taken : p.take held step with
      | error e => rw [follow_failed taken, follow_failed taken]
      | ok next =>
          rw [follow_cons taken, follow_cons taken]
          exact ih next.1 next.2

theorem any_wanted (plan : List Wanted) (id : ResourceId) :
    plan.any (fun w => w.resource.identity = id) = decide (id ∈ wantedIds plan) := by
  rw [Bool.eq_iff_iff]
  simp

theorem any_installed (installed : List Installed) (id : ResourceId) :
    installed.any (fun i => i.identity = id) = decide (id ∈ resourceIds installed) := by
  rw [Bool.eq_iff_iff]
  simp

theorem releaseFrom_follows {stays : ResourceId → Bool} {rest kept : List Installed}
    (once : (rest.reverse ++ kept).Nodup) : p.releaseFrom stays kept rest =
      p.follow (rest.reverse ++ kept) ((rest.filter (fun i => !stays i.identity)).map .release) := by
  induction rest generalizing p kept with
  | nil => rfl
  | cons r rest ih =>
      have order : (r :: rest).reverse ++ kept = rest.reverse ++ r :: kept := by
        rw [List.reverse_cons, List.append_assoc]
        rfl
      rw [order] at once ⊢
      unfold releaseFrom
      by_cases stay : stays r.identity
      · rw [if_pos stay, List.filter_cons_of_neg (by simp [stay])]
        exact ih once
      · rw [if_neg stay, List.filter_cons_of_pos (by simp [stay]), List.map_cons]
        obtain ⟨fresh, without⟩ := List.nodup_cons.mp (List.nodup_middle.mp once)
        have erased : (rest.reverse ++ r :: kept).erase r = rest.reverse ++ kept := by
          rw [List.erase_append_right _ fun old => fresh (List.mem_append_left _ old), List.erase_cons_head]
        cases released : p.release r with
        | error e => rw [follow_failed (by rw [take, released]; rfl)]
        | ok q =>
            have taken : p.take (rest.reverse ++ r :: kept) (.release r) = .ok (q, rest.reverse ++ kept) := by
              rw [take, released, erased]
              rfl
            rw [follow_cons taken]
            exact ih without

theorem installMissing_follows {wanted : List Wanted} (once : (wantedIds wanted).Nodup) :
    p.installMissing installed wanted = p.follow installed
      ((wanted.filter (fun w => w.resource.identity ∉ resourceIds installed)).map .install) := by
  induction wanted generalizing p installed with
  | nil => rfl
  | cons w rest ih =>
      obtain ⟨new, others⟩ := List.nodup_cons.mp once
      unfold installMissing
      rw [any_installed]
      by_cases present : w.resource.identity ∈ resourceIds installed
      · rw [if_pos (decide_eq_true present), List.filter_cons_of_neg (by simpa using present)]
        exact ih others
      · rw [if_neg (by simpa using present), List.filter_cons_of_pos (by simpa using present), List.map_cons]
        cases done : p.put w.resource w.shared with
        | error e => rw [follow_failed (by rw [take, done]; rfl)]
        | ok next =>
            obtain ⟨i, q⟩ := next
            have taken : p.take installed (.install w) = .ok (q, installed ++ [i]) := by
              rw [take, done]
              rfl
            have same : rest.filter (fun v => v.resource.identity ∉ resourceIds (installed ++ [i])) =
                rest.filter (fun v => v.resource.identity ∉ resourceIds installed) := by
              refine List.filter_congr fun v later => ?_
              have apart : v.resource.identity ≠ i.identity := by
                rw [put_identity done]
                exact fun same => new (List.mem_map.mpr ⟨v, later, same⟩)
              simp [apart]
            rw [follow_cons taken, ← same]
            exact ih others

theorem releaseUnwanted_follows (once : (resourceIds installed).Nodup) (plan : List Wanted) :
    p.releaseUnwanted (fun id => plan.any (fun w => w.resource.identity = id)) installed =
      p.follow installed ((installed.reverse.filter (fun i => i.identity ∉ wantedIds plan)).map .release) := by
  have apart : (installed.reverse.reverse ++ []).Nodup := by
    rw [List.append_nil, List.reverse_reverse]
    exact once.of_map
  have same : installed.reverse.filter (fun i => !plan.any (fun w => w.resource.identity = i.identity)) =
      installed.reverse.filter (fun i => i.identity ∉ wantedIds plan) := by
    refine List.filter_congr fun i _ => ?_
    rw [any_wanted, decide_not]
  rw [releaseUnwanted, releaseFrom_follows apart, List.append_nil, List.reverse_reverse, same]

-- A wanted resource is missing before the releases exactly if it is missing after them.
theorem missing_cleared (plan : List Wanted) (installed : List Installed) :
    plan.filter (fun w => w.resource.identity ∉
        resourceIds (installed.filter fun i => plan.any (fun w => w.resource.identity = i.identity))) =
      plan.filter (fun w => w.resource.identity ∉ resourceIds installed) := by
  refine List.filter_congr fun w member => decide_eq_decide.mpr (not_congr ⟨?_, ?_⟩)
  · intro known
    obtain ⟨i, there, same⟩ := List.mem_map.mp known
    exact List.mem_map.mpr ⟨i, List.mem_of_mem_filter there, same⟩
  · intro known
    obtain ⟨i, there, same⟩ := List.mem_map.mp known
    refine List.mem_map.mpr ⟨i, List.mem_filter.mpr ⟨there, ?_⟩, same⟩
    rw [any_wanted, same]
    exact decide_eq_true (List.mem_map_of_mem member)

theorem reconcile_follows {runtime : RuntimeType} (once : (resourceIds installed).Nodup)
    (configured : p.applyConfigurations runtime effective.configurationItems = (.ok (), q))
    (made : q.plan effective = .ok plan) :
    p.reconcile runtime effective installed = q.follow installed (agenda installed plan) := by
  unfold reconcile agenda
  rw [configured]
  dsimp only
  rw [made, follow_append, ← releaseUnwanted_follows once plan]
  dsimp only
  cases cleared : (q.releaseUnwanted (fun id => plan.any (fun w => w.resource.identity = id)) installed).outcome with
  | error e => rfl
  | ok _ =>
      dsimp only
      rw [installMissing_follows (planned_of_plan made).once, releaseUnwanted_installed cleared, missing_cleared]

end Provisioner
end ContainerProfiles
