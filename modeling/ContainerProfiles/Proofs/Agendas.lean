import ContainerProfiles.Proofs.PassHistory
import ContainerProfiles.Proofs.Plans

namespace ContainerProfiles

-- How far a pass gets.

namespace PassStep

def released? : PassStep → Option Installed
  | release i => some i
  | install _ => none

def wanted? : PassStep → Option Wanted
  | release _ => none
  | install w => some w

-- What the journal says of a step; nothing where the resource is in use elsewhere.
def record? (inUse : ResourceId → Bool) : PassStep → Option InstallRecord
  | release i => if i.shared && inUse i.identity then none else some ⟨.uninstall, i.identity⟩
  | install w =>
      if w.shared && inUse w.resource.identity then none else some ⟨.install, w.resource.identity⟩

end PassStep

namespace Provisioner

inductive Takes : Provisioner → List Installed → List PassStep → Provisioner → List Installed → Prop
  | done : Takes p held [] p held
  | next {p q r : Provisioner} {held kept last : List Installed} {step : PassStep} {steps : List PassStep} :
      p.take held step = .ok (q, kept) → Takes q kept steps r last → Takes p held (step :: steps) r last

-- Each resource comes up once, is installed if it is released and is not if it is installed.
structure Fits (held : List Installed) (steps : List PassStep) : Prop where
  once : (steps.map PassStep.identity).Nodup
  there : ∀ i, .release i ∈ steps → i ∈ held
  missing : ∀ w, .install w ∈ steps → w.resource.identity ∉ resourceIds held

variable {p q r : Provisioner} {installed held kept last others : List Installed} {plan : List Wanted}
  {step : PassStep} {steps more : List PassStep}

theorem take_eq_ok (taken : p.take held step = .ok (q, kept)) :
    (∃ i, step = .release i ∧ p.release i = .ok q ∧ kept = held.erase i) ∨
      ∃ w i, step = .install w ∧ p.put w.resource w.shared = .ok (i, q) ∧ kept = held ++ [i] := by
  cases step with
  | release i =>
      simp only [take, bind_eq_ok, pure_eq_ok, Prod.mk.injEq] at taken
      obtain ⟨_, released, rfl, rfl⟩ := taken
      exact .inl ⟨i, rfl, released, rfl⟩
  | install w =>
      simp only [take, bind_eq_ok, pure_eq_ok, Prod.mk.injEq] at taken
      obtain ⟨⟨i, _⟩, done, rfl, rfl⟩ := taken
      exact .inr ⟨w, i, rfl, done, rfl⟩

theorem follow_progress (p : Provisioner) (held : List Installed) (steps : List PassStep) :
    ∃ performed rest, steps = performed ++ rest ∧
      Takes p held performed (p.follow held steps).provisioner (p.follow held steps).installed ∧
      ((p.follow held steps).outcome = .ok () ↔ rest = []) := by
  induction steps generalizing p held with
  | nil => exact ⟨[], [], rfl, .done, ⟨fun _ => rfl, fun _ => rfl⟩⟩
  | cons step rest ih =>
      cases taken : p.take held step with
      | error e =>
          rw [follow_failed taken]
          exact ⟨[], step :: rest, rfl, .done, ⟨nofun, nofun⟩⟩
      | ok next =>
          rw [follow_cons taken]
          obtain ⟨performed, left, parted, takes, whole⟩ := ih next.1 next.2
          exact ⟨step :: performed, left, congrArg _ parted, .next taken takes, whole⟩

theorem release_mem_agenda {i : Installed} :
    .release i ∈ agenda installed plan ↔ i ∈ installed ∧ i.identity ∉ wantedIds plan := by
  simp [agenda]

theorem install_mem_agenda {w : Wanted} :
    .install w ∈ agenda installed plan ↔ w ∈ plan ∧ w.resource.identity ∉ resourceIds installed := by
  simp [agenda]

theorem agenda_fits (once : (resourceIds installed).Nodup) (distinct : (wantedIds plan).Nodup) :
    Fits installed (agenda installed plan) := by
  refine ⟨?_, fun i member => (release_mem_agenda.mp member).1, fun w member => (install_mem_agenda.mp member).2⟩
  have reversed : (resourceIds installed.reverse).Nodup := by
    rw [resourceIds, List.map_reverse]
    exact List.nodup_reverse.mpr once
  rw [agenda, List.map_append, List.map_map, List.map_map]
  refine List.Nodup.append ((List.filter_sublist.map _).nodup reversed) ((List.filter_sublist.map _).nodup distinct) ?_
  intro id released wanted
  obtain ⟨i, left, rfl⟩ := List.mem_map.mp released
  obtain ⟨w, asked, same⟩ := List.mem_map.mp wanted
  refine of_decide_eq_true (List.mem_filter.mp left).2 ?_
  exact List.mem_map.mpr ⟨w, List.mem_of_mem_filter asked, same⟩

theorem Fits.first (fits : Fits held (steps ++ more)) : Fits held steps := by
  refine ⟨?_, fun i member => fits.there i (List.mem_append_left _ member),
    fun w member => fits.missing w (List.mem_append_left _ member)⟩
  have once := fits.once
  rw [List.map_append] at once
  exact once.of_append_left

theorem Fits.next (fits : Fits held (step :: steps)) (taken : p.take held step = .ok (q, kept)) :
    Fits kept steps := by
  obtain ⟨new, others⟩ := List.nodup_cons.mp fits.once
  rcases take_eq_ok taken with ⟨i, rfl, _, rfl⟩ | ⟨w, i, rfl, done, rfl⟩
  · refine ⟨others, fun j later => ?_, fun w later => ?_⟩
    · have other : j ≠ i := by
        rintro rfl
        exact new (List.mem_map_of_mem later)
      exact (List.mem_erase_of_ne other).mpr (fits.there j (.tail _ later))
    · exact fun known => fits.missing w (.tail _ later) ((List.erase_sublist.map _).subset known)
  · refine ⟨others, fun j later => List.mem_append_left _ (fits.there j (.tail _ later)), fun v later => ?_⟩
    rw [resourceIds_append, put_identity done, List.mem_append, List.mem_singleton]
    rintro (known | same)
    · exact fits.missing v (.tail _ later) known
    · exact new (List.mem_map.mpr ⟨_, later, same⟩)

abbrev released (steps : List PassStep) : List Installed := steps.filterMap PassStep.released?

theorem mem_released {i : Installed} : i ∈ released steps ↔ .release i ∈ steps := by
  refine List.mem_filterMap.trans ⟨?_, fun member => ⟨_, member, rfl⟩⟩
  rintro ⟨step, member, same⟩
  cases step with
  | release j =>
      cases same
      exact member
  | install w => cases same

theorem mem_wanted {w : Wanted} : w ∈ steps.filterMap PassStep.wanted? ↔ .install w ∈ steps := by
  refine List.mem_filterMap.trans ⟨?_, fun member => ⟨_, member, rfl⟩⟩
  rintro ⟨step, member, same⟩
  cases step with
  | release i => cases same
  | install v =>
      cases same
      exact member

theorem put_mode {i : Installed} (done : p.put resource common = .ok (i, q)) : i.shared = common := by
  simp only [put_eq, bind_eq_ok, Except.ok.injEq, Prod.mk.injEq] at done
  obtain ⟨_, _, rfl, _⟩ := done
  rfl

-- What was not released stays where it was, and what was installed follows in the order of its installs.
theorem Takes.tracked (takes : Takes p held steps q kept) (fits : Fits held steps) (once : held.Nodup) :
    ∃ new, kept = held.filter (· ∉ released steps) ++ new ∧
      new.map (fun i => (i.identity, i.shared)) =
        (steps.filterMap PassStep.wanted?).map fun w => (w.resource.identity, w.shared) := by
  induction takes with
  | done => exact ⟨[], by simp, rfl⟩
  | @next p q r held kept last step steps taken takes ih =>
      have later := fits.next taken
      rcases take_eq_ok taken with ⟨i, rfl, _, rfl⟩ | ⟨w, i, rfl, done, rfl⟩
      · obtain ⟨new, same, order⟩ := ih later (once.erase i)
        refine ⟨new, ?_, order⟩
        have gone : released (.release i :: steps) = i :: released steps := rfl
        rw [same, once.erase_eq_filter, List.filter_filter, gone]
        refine congrArg (· ++ new) (List.filter_congr fun j _ => Bool.eq_iff_iff.mpr ?_)
        simp [and_comm]
      · have fresh : i ∉ held := fun old => fits.missing w List.mem_cons_self
          (List.mem_map.mpr ⟨i, old, put_identity done⟩)
        have stays : i ∉ released steps := fun gone => fresh (fits.there i (.tail _ (mem_released.mp gone)))
        obtain ⟨new, same, order⟩ := ih later (once.append (List.nodup_singleton i) (by simpa using fresh))
        refine ⟨i :: new, ?_, ?_⟩
        · have none : released (.install w :: steps) = released steps := rfl
          rw [same, List.filter_append, List.filter_cons_of_pos (by simpa using stays), List.append_assoc, none]
          rfl
        · have first : (PassStep.install w :: steps).filterMap PassStep.wanted? =
              w :: steps.filterMap PassStep.wanted? := rfl
          rw [first, List.map_cons, List.map_cons, order, put_identity done, put_mode done]

-- Another container has the resource and shares it.
abbrev inUse (others : List Installed) (id : ResourceId) : Bool :=
  others.any (fun i => i.identity = id && i.shared)

theorem inUse_iff {id : ResourceId} :
    inUse others id = true ↔ 0 < others.countP (fun i => i.identity = id && i.shared) := by
  rw [List.countP_pos_iff, List.any_eq_true]

theorem countP_absent {id : ResourceId} (absent : id ∉ resourceIds held) :
    held.countP (fun i => i.identity = id && i.shared) = 0 := by
  refine List.countP_eq_zero.mpr fun i member both => absent (List.mem_map.mpr ⟨i, member, ?_⟩)
  exact of_decide_eq_true (Bool.and_eq_true_iff.mp both).1

theorem install_journal (done : p.install resource = .ok (handle, q)) :
    q.repository.journal = p.repository.journal ++ [⟨.install, resource.identity⟩] := by
  simp only [install, bind_eq_ok, pure_eq_ok, Prod.mk.injEq] at done
  obtain ⟨⟨_, next⟩, installed, _, rfl⟩ := done
  obtain ⟨_, rfl, rfl⟩ := Repository.install_eq_ok.mp installed
  rfl

theorem uninstall_journal (done : p.uninstall handle = .ok q) :
    q.repository.journal = p.repository.journal ++ [⟨.uninstall, handle.resource.identity⟩] := by
  simp only [uninstall, guard_eq_ok, bind_eq_ok, pure_eq_ok] at done
  obtain ⟨_, next, uninstalled, rfl⟩ := done
  obtain ⟨_, rfl⟩ := Repository.uninstall_eq_ok.mp uninstalled
  rfl

theorem put_journal {i : Installed} (balanced : p.forgiving.Balanced held)
    (done : p.put resource common = .ok (i, q)) : q.repository.journal = p.repository.journal ++
      if common ∧ 0 < p.sharedUsers resource.identity then [] else [⟨.install, resource.identity⟩] := by
  simp only [put_eq, bind_eq_ok, Except.ok.injEq, Prod.mk.injEq] at done
  obtain ⟨⟨handle, next⟩, installed, _, rfl⟩ := done
  cases common with
  | false =>
      rw [if_neg (fun both => Bool.false_ne_true both.1)]
      exact install_journal installed
  | true =>
      rw [if_pos rfl] at installed
      unfold installShared at installed
      cases found : p.shared.get? resource.identity with
      | some use =>
          rw [found] at installed
          cases installed
          have used : 0 < p.sharedUsers resource.identity := by
            rw [sharedUsers_of_found found]
            exact (balanced.common _ _ found).2
          rw [if_pos ⟨rfl, used⟩, List.append_nil]
      | none =>
          rw [found] at installed
          simp only [bind_eq_ok, pure_eq_ok, Prod.mk.injEq] at installed
          obtain ⟨⟨_, last⟩, fresh, _, rfl⟩ := installed
          rw [if_neg (by simp [sharedUsers, found])]
          have grown := install_journal fresh
          exact grown

theorem release_journal {i : Installed} (balanced : p.forgiving.Balanced (i :: held)) (done : p.release i = .ok q) :
    q.repository.journal = p.repository.journal ++
      if i.shared ∧ 1 < p.sharedUsers i.identity then [] else [⟨.uninstall, i.identity⟩] := by
  unfold release at done
  cases shared : i.shared with
  | false =>
      rw [if_neg (by simp [shared])] at done
      rw [if_neg (fun both => Bool.false_ne_true both.1), uninstall_journal done,
        balanced.alone i List.mem_cons_self shared]
  | true =>
      have users : p.sharedUsers i.identity = _ := balanced.users i.identity
      rw [if_pos shared] at done
      unfold releaseShared at done
      cases found : p.shared.get? i.identity with
      | none => simp [sharedUsers, found, shared] at users
      | some use =>
          rw [found] at done
          dsimp only at done
          rw [sharedUsers_of_found found]
          split at done
          · rename_i several
            cases done
            rw [if_pos ⟨rfl, several⟩, List.append_nil]
          · rename_i single
            simp only [bind_eq_ok, pure_eq_ok] at done
            obtain ⟨last, gone, rfl⟩ := done
            have grown := uninstall_journal gone
            rw [(balanced.common _ _ found).1] at grown
            rw [if_neg fun both => single both.2]
            exact grown

theorem take_balanced (balanced : p.forgiving.Balanced (held ++ others)) (fits : Fits held (step :: steps))
    (taken : p.take held step = .ok (q, kept)) : q.forgiving.Balanced (kept ++ others) := by
  rcases take_eq_ok taken with ⟨i, rfl, released, rfl⟩ | ⟨w, i, rfl, done, rfl⟩
  · have first := (List.perm_cons_erase (fits.there i List.mem_cons_self)).append_right others
    obtain ⟨_, again, after⟩ := release_balanced (balanced.perm first)
    cases (release_forgiving released).symm.trans again
    exact after
  · obtain ⟨_, after⟩ := put_balanced balanced (put_forgiving done)
    refine after.perm ?_
    rw [List.append_assoc]
    exact List.perm_middle.symm

theorem take_once (fits : Fits held (step :: steps)) (once : (resourceIds held).Nodup)
    (taken : p.take held step = .ok (q, kept)) : (resourceIds kept).Nodup := by
  rcases take_eq_ok taken with ⟨i, rfl, _, rfl⟩ | ⟨w, i, rfl, done, rfl⟩
  · exact (List.erase_sublist.map _).nodup once
  · rw [resourceIds_append, put_identity done]
    exact once.append (List.nodup_singleton _) (by simpa using fits.missing w List.mem_cons_self)

theorem take_journal (balanced : p.forgiving.Balanced (held ++ others)) (fits : Fits held (step :: steps))
    (once : (resourceIds held).Nodup) (taken : p.take held step = .ok (q, kept)) :
    q.repository.journal = p.repository.journal ++ (step.record? (inUse others)).toList := by
  rcases take_eq_ok taken with ⟨i, rfl, released, rfl⟩ | ⟨w, i, rfl, done, rfl⟩
  · have first := List.perm_cons_erase (fits.there i List.mem_cons_self)
    have alone : i.identity ∉ resourceIds (held.erase i) :=
      (List.nodup_cons.mp ((first.map _).nodup once)).1
    have ready := balanced.perm (first.append_right others)
    have users : p.sharedUsers i.identity = _ := ready.users i.identity
    rw [List.cons_append, List.countP_cons, List.countP_append, countP_absent alone] at users
    have same : (i.shared ∧ 1 < p.sharedUsers i.identity) ↔ (i.shared && inUse others i.identity) = true := by
      rw [Bool.and_eq_true, inUse_iff]
      refine and_congr_right fun shared => ?_
      simp only [shared, decide_true, Bool.and_self, if_true] at users
      omega
    rw [release_journal ready released, PassStep.record?, if_congr same rfl rfl]
    split <;> rfl
  · have users : p.sharedUsers w.resource.identity = _ := balanced.users w.resource.identity
    rw [List.countP_append, countP_absent (fits.missing w List.mem_cons_self)] at users
    have same : (w.shared ∧ 0 < p.sharedUsers w.resource.identity) ↔
        (w.shared && inUse others w.resource.identity) = true := by
      rw [Bool.and_eq_true, inUse_iff, users, Nat.zero_add]
    rw [put_journal balanced done, PassStep.record?, if_congr same rfl rfl]
    split <;> rfl

theorem Takes.journal (takes : Takes p held steps q kept) (fits : Fits held steps)
    (once : (resourceIds held).Nodup) (balanced : p.forgiving.Balanced (held ++ others)) :
    q.repository.journal = p.repository.journal ++ steps.filterMap (PassStep.record? (inUse others)) := by
  induction takes with
  | done => simp
  | next taken takes ih =>
      rw [ih (fits.next taken) (take_once fits once taken) (take_balanced balanced fits taken),
        take_journal balanced fits once taken, List.append_assoc, List.filterMap_cons]
      cases PassStep.record? (inUse others) _ <;> rfl

-- Nothing is released and nothing installed.
structure Idle (p : Provisioner) (installed : List Installed) (pass : Pass) : Prop where
  refused : ∃ e, pass.outcome = .error e
  installed : pass.installed = installed
  repository : pass.provisioner.repository = p.repository
  shared : pass.provisioner.shared = p.shared

-- The steps that are taken are the first ones of the agenda, and all of them exactly if the pass succeeds.
structure Progress (p : Provisioner) (installed : List Installed) (inUse : ResourceId → Bool)
    (steps : List PassStep) (pass : Pass) (performed rest : List PassStep) : Prop where
  parted : steps = performed ++ rest
  whole : pass.outcome = .ok () ↔ rest = []
  taken : ∃ targets, Takes { p with targets } installed performed pass.provisioner pass.installed
  tracked : ∃ new, pass.installed = installed.filter (· ∉ released performed) ++ new ∧
    new.map (fun i => (i.identity, i.shared)) =
      (performed.filterMap PassStep.wanted?).map fun w => (w.resource.identity, w.shared)
  journal : pass.provisioner.repository.journal =
    p.repository.journal ++ performed.filterMap (PassStep.record? inUse)

structure Orderly (p : Provisioner) (runtime : RuntimeType) (effective : Profile) (installed : List Installed)
    (inUse : ResourceId → Bool) (pass : Pass) : Prop where
  misconfigured : ∀ e, (p.applyConfigurations runtime effective.configurationItems).1 = .error e →
    pass.outcome = .error e ∧ p.Idle installed pass
  unresolved :
    ((effective.environment p.repository.environment).resolve effective.requirements).unsatisfied ≠ [] →
      p.Idle installed pass
  followed : (p.applyConfigurations runtime effective.configurationItems).1 = .ok () →
    ((effective.environment p.repository.environment).resolve effective.requirements).unsatisfied = [] →
      ∃ plan performed rest, Planned effective p.repository.environment plan ∧
        p.Progress installed inUse (agenda installed plan) pass performed rest

section Given

variable {runtime : RuntimeType} {effective : Profile} {targets : Targets} {e : ProvisionError}

theorem reconcile_misconfigured
    (configured : p.applyConfigurations runtime effective.configurationItems = (.error e, q)) :
    p.reconcile runtime effective installed = ⟨.error e, q, installed⟩ := by
  unfold reconcile
  rw [configured]

theorem reconcile_unplanned (configured : p.applyConfigurations runtime effective.configurationItems = (.ok (), q))
    (unmade : q.plan effective = .error e) :
    p.reconcile runtime effective installed = ⟨.error e, q, installed⟩ := by
  unfold reconcile
  rw [configured]
  dsimp only
  rw [unmade]

theorem plan_cases (p : Provisioner) (effective : Profile) :
    (((effective.environment p.repository.environment).resolve effective.requirements).unsatisfied = [] ∧
        ∃ plan, p.plan effective = .ok plan) ∨
      (((effective.environment p.repository.environment).resolve effective.requirements).unsatisfied ≠ [] ∧
        ∃ e, p.plan effective = .error e) := by
  unfold Provisioner.plan Resolution.satisfied
  dsimp only
  split
  · rename_i resolved
    exact .inl ⟨List.isEmpty_iff.mp resolved, _, rfl⟩
  · rename_i left
    exact .inr ⟨fun none => left (List.isEmpty_iff.mpr none), _, rfl⟩

theorem reconcile_orderly (once : (resourceIds installed).Nodup)
    (balanced : p.forgiving.Balanced (installed ++ others)) (runtime : RuntimeType) (effective : Profile) :
    p.Orderly runtime effective installed (inUse others) (p.reconcile runtime effective installed) := by
  obtain ⟨targets, same⟩ := p.applyConfigurations_eq runtime effective.configurationItems
  rcases configured : p.applyConfigurations runtime effective.configurationItems with ⟨outcome, q⟩
  rw [configured] at same
  cases same
  cases outcome with
  | error e =>
      have idle : p.Idle installed (p.reconcile runtime effective installed) := by
        rw [reconcile_misconfigured configured]
        exact ⟨⟨e, rfl⟩, rfl, rfl, rfl⟩
      refine ⟨fun cause failed => ⟨?_, idle⟩, fun _ => idle, fun done => ?_⟩
      · rw [configured] at failed
        cases failed
        rw [reconcile_misconfigured configured]
      · rw [configured] at done
        cases done
  | ok _ =>
      have fine : ∀ e, (p.applyConfigurations runtime effective.configurationItems).1 ≠ .error e := by
        intro e failed
        rw [configured] at failed
        cases failed
      rcases ({ p with targets } : Provisioner).plan_cases effective with
        ⟨resolved, plan, made⟩ | ⟨unresolved, e, unmade⟩
      · refine ⟨fun e failed => (fine e failed).elim, fun left => (left resolved).elim, fun _ _ => ?_⟩
        have planned := planned_of_plan made
        have ready : ({ p with targets } : Provisioner).forgiving.Balanced (installed ++ others) :=
          balanced.retarget targets
        rw [reconcile_follows once configured made]
        obtain ⟨performed, rest, parted, takes, whole⟩ :=
          follow_progress { p with targets } installed (agenda installed plan)
        have fits : Fits installed performed := (parted ▸ agenda_fits once planned.once).first
        exact ⟨plan, performed, rest, planned, parted, whole, ⟨targets, takes⟩, takes.tracked fits once.of_map,
          takes.journal fits once ready⟩
      · refine ⟨fun e failed => (fine e failed).elim, fun _ => ?_, fun _ resolved => (unresolved resolved).elim⟩
        rw [reconcile_unplanned configured unmade]
        exact ⟨⟨e, rfl⟩, rfl, rfl, rfl⟩

end Given

end Provisioner

namespace Deployment

variable {s t : Deployment} {last : ContainerId → Option LastPass}

-- Another container that is alive shares the resource.
def sharedElsewhere (s : Deployment) (id : ContainerId) (r : ResourceId) : Bool :=
  (s.containers.live.erase id).values.any (·.tracks r true)

theorem inUse_heldByOthers (s : Deployment) (id : ContainerId) :
    Provisioner.inUse (s.containers.heldByOthers id) = s.sharedElsewhere id := by
  funext r
  unfold Provisioner.inUse sharedElsewhere ContainerRegistry.heldByOthers Container.tracks
  rw [List.any_flatMap]
  simp

theorem Ledger.orderly (ledger : t.forgiving.Ledger) {id : ContainerId} {c : Container}
    (live : t.containers.live.get? id = some c) (effective : Profile) :
    t.provisioner.Orderly t.settings.runtime effective c.installed (t.sharedElsewhere id) (t.passOf c effective) := by
  have once : c.installedIds.Nodup := ledger.once id c live
  have balanced : t.provisioner.forgiving.Balanced (c.installed ++ t.containers.heldByOthers id) := ledger.split live
  rw [← inUse_heldByOthers]
  exact Provisioner.reconcile_orderly once balanced t.settings.runtime effective

theorem passes_orderly {supplied : Environment} {failing : List ResourceId}
    (built : build chosen stored { repository := { environment := supplied, failing } } heard time = .ok s)
    (history : s.History t last) {id : ContainerId} {c : Container} (live : t.containers.live.get? id = some c)
    (effective : Profile) :
    t.provisioner.Orderly t.settings.runtime effective c.installed (t.sharedElsewhere id) (t.passOf c effective) :=
  (history.ledger (build_forgiving built)).orderly live effective

-- One resource, for whoever has the profile alone or for all of them.
def declaring (id : ProfileId) (shared : Bool) : Profile :=
  { identity := id, version := .first
    items := [.resource { id := "app", resource := { identity := "app:1.0.0" }, shared }] }

-- The container is to be brought in line with its profile for the first time.
def unprovisionedOver (profiles : List Profile) : Deployment :=
  ((staged profiles { name := "repository" }).turns staging).modify "a" fun _ => createdStarted

def siteMerged (shared : Bool) : Profile :=
  Profile.merge (Profile.effectiveIdentityFor .first ["site"]) .first [declaring "site" shared]

theorem plan_siteMerged {p : Provisioner} (bare : p.repository.environment = { name := "repository" })
    (shared : Bool) : p.plan (siteMerged shared) = .ok [⟨{ identity := "app:1.0.0" }, shared⟩] := by
  refine Provisioner.plan_unrequiring ?_
  rw [bare]
  rfl

-- The site has the resource for itself, another profile shares it.
def mixed : List Profile := [declaring "site" false, declaring "web" true]

def alone : Installed := ⟨"app:1.0.0", ⟨0, { identity := "app:1.0.0" }⟩, false⟩

def provisionedMixed : Deployment :=
  { unprovisionedOver mixed with
    provisioner.repository.journal := [⟨.install, "app:1.0.0"⟩]
    provisioner.repository.issued := 1
    containers.live := Dict.insert ∅ "a" { createdStarted with installed := [alone] } }

theorem turns_provisionedMixed : (staged mixed { name := "repository" }).turns
    (staging ++ [.action (.perform "main" none (.startContainer "a"))]) = provisionedMixed := by
  have computed : (unprovisionedOver mixed).effectiveFor "main" .first ["site"] = .ok (siteMerged false) :=
    effectiveFor_of_walk rfl rfl (.fresh List.not_mem_nil List.not_mem_nil rfl .done .done)
  have there : (unprovisionedOver mixed).containers.live.get? "a" = some createdStarted := rfl
  have begun : (unprovisionedOver mixed).provision "main" none "a" =
      (unprovisionedOver mixed).reconcile none createdStarted (siteMerged false) :=
    (unprovisionedOver mixed).provision_passes "main" none there rfl rfl computed
  have once : (Provisioner.resourceIds createdStarted.installed).Nodup := List.nodup_nil
  have passed : (unprovisionedOver mixed).provisioner.reconcile (unprovisionedOver mixed).settings.runtime
      (siteMerged false) createdStarted.installed = _ :=
    Provisioner.reconcile_follows once rfl (plan_siteMerged rfl false)
  have performed : (staged mixed { name := "repository" }).turns
      (staging ++ [.action (.perform "main" none (.startContainer "a"))]) =
        (((staged mixed { name := "repository" }).turns staging).changeAndProvision "main" none createdStarted).2 := rfl
  rw [performed, changeAndProvision_snd]
  refine (congrArg Prod.snd begun).trans ?_
  unfold reconcile announce
  dsimp only
  rw [passed]
  rfl

-- Another resource in the place of that one.
def changing : Profile :=
  { identity := "site", version := .first
    items := [.resource { id := "web", resource := { identity := "web:1.0.0" } }] }

-- What the container has for itself goes, and the other resource comes.
theorem passes_orderly_changed :
    ∃ s t last c, build {} (staged mixed { name := "repository" }).store
        { repository := { environment := { name := "repository" }, failing := [] } } {} "" = .ok s ∧
      s.History t last ∧ t.containers.live.get? "a" = some c ∧ c.installedIds = ["app:1.0.0"] ∧
      (t.passOf c changing).outcome = .ok () ∧
      (t.passOf c changing).installed.map (·.identity) = ["web:1.0.0"] ∧
      (t.passOf c changing).provisioner.repository.journal =
        [⟨.install, "app:1.0.0"⟩, ⟨.uninstall, "app:1.0.0"⟩, ⟨.install, "web:1.0.0"⟩] ∧
      t.provisioner.Orderly t.settings.runtime changing c.installed (t.sharedElsewhere "a") (t.passOf c changing) := by
  have built := build_staged mixed { name := "repository" }
  obtain ⟨last, history⟩ :=
    History.turns (build_forgiving built) (staging ++ [.action (.perform "main" none (.startContainer "a"))])
  rw [turns_provisionedMixed] at history
  have live : provisionedMixed.containers.live.get? "a" = some { createdStarted with installed := [alone] } := rfl
  have once : (Provisioner.resourceIds [alone]).Nodup := List.nodup_singleton _
  have passed : provisionedMixed.passOf { createdStarted with installed := [alone] } changing = _ :=
    Provisioner.reconcile_follows once rfl (Provisioner.plan_unrequiring rfl)
  refine ⟨_, _, last, _, built, history, live, rfl, ?_, ?_, ?_, passes_orderly built history live changing⟩
  all_goals
    rw [passed]
    rfl

-- Nothing but a configuration.
def configuring : Profile :=
  { identity := "site", version := .first
    items := [.configuration { id := "web", configurations := [{ name := "default" }] }] }

-- Where its target refuses there is no step that could be left out, and still the first pass fails.
theorem refused_target_fails_pass :
    ∃ s c effective plan, build {} (staged [configuring] { name := "repository" }).store
        { repository := { environment := { name := "repository" }, failing := [] } } {} "" = .ok s ∧
      let before := s.turns (staging ++ [.action (.refuse (.target "web"))])
      let t := before.modify "a" fun _ => c
      before.prepareStart "main" "a" = .ok c ∧ t.containers.live.get? "a" = some c ∧
      t.effectiveFor "main" .first c.profiles = .ok effective ∧ t.provisioner.plan effective = .ok plan ∧
      (t.passOf c effective).outcome = .error (.targetRefused "web") ∧
      ∀ performed rest, agenda c.installed plan = performed ++ rest →
        ¬ ((t.passOf c effective).outcome = .ok () ↔ rest = []) := by
  let before := (staged [configuring] { name := "repository" }).turns (staging ++ [.action (.refuse (.target "web"))])
  let t := before.modify "a" fun _ => createdStarted
  have computed : t.effectiveFor "main" .first ["site"] =
      .ok (Profile.merge (Profile.effectiveIdentityFor .first ["site"]) .first [configuring]) :=
    effectiveFor_of_walk rfl rfl (.fresh List.not_mem_nil List.not_mem_nil rfl .done .done)
  refine ⟨_, createdStarted, _, [], build_staged _ _, rfl, rfl, computed,
    Provisioner.plan_unrequiring rfl, rfl, ?_⟩
  intro performed rest parted whole
  cases whole.mpr (List.append_eq_nil_iff.mp parted.symm).2

end Deployment
end ContainerProfiles
