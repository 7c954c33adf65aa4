import ContainerProfiles.Proofs.Handles

namespace ContainerProfiles

-- One pass over a container. Whatever step ends it, what the pass leaves installed is balanced against what the
-- repository and the shared resources record, nothing is installed twice, and no uninstall fails.

-- Failures of an uninstall, as opposed to everything else that can go wrong.
def ProvisionError.OfUninstall : ProvisionError → Prop
  | .alreadyUninstalled _ | .uninstallRefused _ => True
  | _ => False

-- What the profile asks for: what its requirements resolve to, and its explicit items.
def Profile.desired (p : Profile) (env : Environment) : List ResourceId :=
  ((p.environment env).resolve p.requirements).resources.map (·.identity) ++
    p.explicitItems.map (·.resource.identity)

namespace Provisioner

variable {p : Provisioner} {installed held others : List Installed}

abbrev resourceIds (installed : List Installed) : List ResourceId := installed.map (·.identity)

theorem resourceIds_append (installed : List Installed) (i : Installed) :
    resourceIds (installed ++ [i]) = resourceIds installed ++ [i.identity] := List.map_append

theorem configure_eq_ok {target : String} {attributes : Attributes}
    (done : p.configure target attributes = .ok q) : ∃ targets, q = { p with targets } := by
  simp only [configure, guard_eq_ok, bind_eq_ok, pure_eq_ok] at done
  obtain ⟨_, ⟨_, targets⟩, _, rfl⟩ := done
  exact ⟨targets, rfl⟩

theorem configure_error {target : String} {attributes : Attributes}
    (failed : p.configure target attributes = .error e) : ¬ e.OfUninstall := by
  unfold configure at failed
  split at failed
  · cases failed
    exact id
  · simp only [bind_eq_error, pure_eq_error, and_false, exists_false, or_false] at failed
    unfold Targets.apply at failed
    split at failed
    · cases failed
      exact id
    · split at failed <;> cases failed

theorem applyConfigurations_eq (p : Provisioner) (runtime : RuntimeType) (items : List ConfigurationItem) :
    ∃ targets, (p.applyConfigurations runtime items).2 = { p with targets } := by
  induction items generalizing p with
  | nil => exact ⟨p.targets, rfl⟩
  | cons item rest ih =>
      unfold applyConfigurations
      split
      · exact ih p
      · split
        · exact ⟨p.targets, rfl⟩
        · rename_i q done
          obtain ⟨targets, rfl⟩ := configure_eq_ok done
          exact ih _

theorem applyConfigurations_error {runtime : RuntimeType} {items : List ConfigurationItem}
    (failed : (p.applyConfigurations runtime items).1 = .error e) : ¬ e.OfUninstall := by
  induction items generalizing p with
  | nil => cases failed
  | cons item rest ih =>
      unfold applyConfigurations at failed
      split at failed
      · exact ih failed
      · split at failed
        · rename_i cause refused
          cases failed
          exact configure_error refused
        · exact ih failed

theorem plan_error {effective : Profile} (failed : p.plan effective = .error e) : ¬ e.OfUninstall := by
  unfold plan at failed
  dsimp only at failed
  split at failed
  · cases failed
  · cases failed
    exact id

theorem mem_addWanted {plan : List Wanted} {w : Wanted} {id : ResourceId} :
    id ∈ (addWanted plan w).map (·.resource.identity) ↔
      id ∈ plan.map (·.resource.identity) ∨ id = w.resource.identity := by
  unfold addWanted
  induction plan with
  | nil => simp [alterFirst]
  | cons v rest ih =>
      unfold alterFirst
      split
      · rename_i same
        have same : v.resource.identity = w.resource.identity := of_decide_eq_true same
        simp only [List.map_cons, List.mem_cons, same]
        constructor
        · exact .inl
        · rintro (known | new)
          · exact known
          · exact .inl new
      · rw [List.map_cons, List.mem_cons, ih, List.map_cons, List.mem_cons, or_assoc]

theorem mem_addAllWanted {plan wanted : List Wanted} {id : ResourceId} :
    id ∈ (wanted.foldl addWanted plan).map (·.resource.identity) ↔
      id ∈ plan.map (·.resource.identity) ∨ id ∈ wanted.map (·.resource.identity) := by
  induction wanted generalizing plan with
  | nil => simp
  | cons w rest ih => rw [List.foldl_cons, ih, mem_addWanted, List.map_cons, List.mem_cons, or_assoc]

theorem mem_plan {effective : Profile} {plan : List Wanted} {id : ResourceId}
    (planned : p.plan effective = .ok plan) :
    id ∈ plan.map (·.resource.identity) ↔ id ∈ effective.desired p.repository.environment := by
  unfold Provisioner.plan at planned
  dsimp only at planned
  split at planned
  · cases planned
    rw [mem_addAllWanted]
    simp [Profile.desired, Function.comp_def]
  · cases planned

theorem releaseFrom_balanced {stays : ResourceId → Bool} {rest kept : List Installed}
    (balanced : p.Balanced (rest ++ kept ++ others)) :
    (p.releaseFrom stays kept rest).outcome = .ok () ∧
      (p.releaseFrom stays kept rest).provisioner.Balanced
        ((p.releaseFrom stays kept rest).installed ++ others) := by
  induction rest generalizing p kept with
  | nil => exact ⟨rfl, balanced⟩
  | cons r rest ih =>
      unfold releaseFrom
      split
      · refine ih (balanced.perm ?_)
        exact List.Perm.append_right _ List.perm_middle.symm
      · obtain ⟨q, released, after⟩ := release_balanced balanced
        rw [released]
        exact ih after

-- What stays keeps its order.
theorem releaseFrom_installed {stays : ResourceId → Bool} {rest kept : List Installed}
    (done : (p.releaseFrom stays kept rest).outcome = .ok ()) :
    (p.releaseFrom stays kept rest).installed =
      (rest.filter (fun i => stays i.identity)).reverse ++ kept := by
  induction rest generalizing p kept with
  | nil => rfl
  | cons r rest ih =>
      unfold releaseFrom at done ⊢
      split at done
      · rename_i staying
        have first : (r :: rest).filter (fun i => stays i.identity) =
            r :: rest.filter (fun i => stays i.identity) := List.filter_cons_of_pos staying
        rw [if_pos staying, ih done, first, List.reverse_cons, List.append_assoc]
        rfl
      · rename_i leaving
        have first : (r :: rest).filter (fun i => stays i.identity) =
            rest.filter (fun i => stays i.identity) := List.filter_cons_of_neg leaving
        rw [if_neg leaving, first]
        split at done
        · cases done
        · exact ih done

theorem releaseFrom_subset (p : Provisioner) (stays : ResourceId → Bool) (kept rest : List Installed) :
    (p.releaseFrom stays kept rest).installed.Sublist (rest.reverse ++ kept) := by
  induction rest generalizing p kept with
  | nil => exact .refl _
  | cons r rest ih =>
      rw [List.reverse_cons, List.append_assoc]
      unfold releaseFrom
      split
      · exact ih p (r :: kept)
      · split
        · exact .refl _
        · exact (ih _ kept).trans (List.Sublist.append_left (List.sublist_cons_self r kept) _)

theorem releaseUnwanted_balanced (stays : ResourceId → Bool)
    (balanced : p.Balanced (installed ++ others)) :
    (p.releaseUnwanted stays installed).outcome = .ok () ∧
      (p.releaseUnwanted stays installed).provisioner.Balanced
        ((p.releaseUnwanted stays installed).installed ++ others) := by
  refine releaseFrom_balanced (balanced.perm (List.Perm.append_right _ ?_))
  rw [List.append_nil]
  exact (List.reverse_perm installed).symm

theorem releaseUnwanted_installed {stays : ResourceId → Bool}
    (done : (p.releaseUnwanted stays installed).outcome = .ok ()) :
    (p.releaseUnwanted stays installed).installed = installed.filter (fun i => stays i.identity) := by
  unfold releaseUnwanted at done ⊢
  rw [releaseFrom_installed done, List.append_nil, List.filter_reverse, List.reverse_reverse]

theorem releaseUnwanted_sublist (p : Provisioner) (stays : ResourceId → Bool) (installed : List Installed) :
    (p.releaseUnwanted stays installed).installed.Sublist installed := by
  have kept := p.releaseFrom_subset stays [] installed.reverse
  rwa [List.reverse_reverse, List.append_nil] at kept

theorem installMissing_balanced {wanted : List Wanted} (balanced : p.Balanced (installed ++ others)) :
    (p.installMissing installed wanted).provisioner.Balanced
        ((p.installMissing installed wanted).installed ++ others) ∧
      ∀ e, (p.installMissing installed wanted).outcome = .error e → ¬ e.OfUninstall := by
  induction wanted generalizing p installed with
  | nil => exact ⟨balanced, fun e none => by cases none⟩
  | cons w rest ih =>
      unfold installMissing
      split
      · exact ih balanced
      · split
        · rename_i cause refused
          refine ⟨balanced, fun e same => ?_⟩
          cases same
          rw [put_error refused]
          exact id
        · rename_i i q done
          obtain ⟨_, after⟩ := put_balanced balanced done
          refine ih (after.perm ?_)
          rw [List.append_assoc]
          exact List.perm_middle.symm

theorem put_identity (done : p.put r common = .ok (i, q)) : i.identity = r.identity := by
  simp only [put_eq, bind_eq_ok, Except.ok.injEq, Prod.mk.injEq] at done
  obtain ⟨_, _, rfl, _⟩ := done
  rfl

theorem installMissing_nodup {wanted : List Wanted} (distinct : (resourceIds installed).Nodup) :
    (resourceIds (p.installMissing installed wanted).installed).Nodup := by
  induction wanted generalizing p installed with
  | nil => exact distinct
  | cons w rest ih =>
      unfold installMissing
      split
      · exact ih distinct
      · rename_i missing
        split
        · exact distinct
        · rename_i i q done
          refine ih ?_
          rw [resourceIds_append, put_identity done]
          refine List.nodup_append.mpr ⟨distinct, List.pairwise_singleton _ _, ?_⟩
          intro id old other last same
          obtain ⟨j, member, here⟩ := List.mem_map.mp old
          rw [List.mem_singleton.mp last] at same
          exact missing (List.any_eq_true.mpr ⟨j, member, by simp [here, same]⟩)

theorem installMissing_ids {wanted : List Wanted} {id : ResourceId}
    (done : (p.installMissing installed wanted).outcome = .ok ()) :
    id ∈ resourceIds (p.installMissing installed wanted).installed ↔
      id ∈ resourceIds installed ∨ id ∈ wanted.map (·.resource.identity) := by
  induction wanted generalizing p installed with
  | nil => exact ⟨.inl, fun known => known.resolve_right (by simp)⟩
  | cons w rest ih =>
      unfold installMissing at done ⊢
      rw [List.map_cons, List.mem_cons]
      split at done
      · rename_i present
        obtain ⟨j, member, here⟩ := List.any_eq_true.mp present
        have known : w.resource.identity ∈ resourceIds installed :=
          List.mem_map.mpr ⟨j, member, by simpa using here⟩
        rw [if_pos present, ih done]
        constructor
        · rintro (old | later)
          · exact .inl old
          · exact .inr (.inr later)
        · rintro (old | rfl | later)
          · exact .inl old
          · exact .inl known
          · exact .inr later
      · rename_i missing
        rw [if_neg missing]
        split at done
        · cases done
        · rename_i i q put
          rw [ih done, resourceIds_append, put_identity put, List.mem_append, List.mem_singleton, or_assoc]

-- Only the journal with its handles and the shared resources have changed.
def Acts (p q : Provisioner) : Prop := ∃ journal issued spent shared,
  q = { p with repository := { p.repository with journal, issued, spent }, shared }

theorem Acts.refl (p : Provisioner) : Acts p p := ⟨_, _, _, _, rfl⟩

theorem Acts.trans {r : Provisioner} (first : Acts p q) (second : Acts q r) : Acts p r := by
  obtain ⟨_, _, _, _, rfl⟩ := first
  obtain ⟨_, _, _, _, rfl⟩ := second
  exact ⟨_, _, _, _, rfl⟩

theorem install_acts (done : p.install r = .ok (handle, q)) : Acts p q := by
  simp only [install, bind_eq_ok, pure_eq_ok, Prod.mk.injEq] at done
  obtain ⟨⟨_, next⟩, installed, _, rfl⟩ := done
  obtain ⟨_, rfl, rfl⟩ := Repository.install_eq_ok.mp installed
  exact ⟨_, _, _, _, rfl⟩

theorem put_acts (done : p.put r common = .ok (i, q)) : Acts p q := by
  simp only [put_eq, bind_eq_ok, Except.ok.injEq, Prod.mk.injEq] at done
  obtain ⟨⟨handle, next⟩, installed, _, rfl⟩ := done
  split at installed
  · unfold installShared at installed
    split at installed
    · cases installed
      exact ⟨_, _, _, _, rfl⟩
    · simp only [bind_eq_ok, pure_eq_ok, Prod.mk.injEq] at installed
      obtain ⟨⟨_, last⟩, fresh, _, rfl⟩ := installed
      exact (install_acts fresh).trans ⟨_, _, _, _, rfl⟩
  · exact install_acts installed

theorem uninstall_acts (done : p.uninstall handle = .ok q) : Acts p q := by
  simp only [uninstall, guard_eq_ok, bind_eq_ok, pure_eq_ok] at done
  obtain ⟨_, next, uninstalled, rfl⟩ := done
  obtain ⟨_, rfl⟩ := Repository.uninstall_eq_ok.mp uninstalled
  exact ⟨_, _, _, _, rfl⟩

theorem release_acts (done : p.release i = .ok q) : Acts p q := by
  unfold release at done
  split at done
  · unfold releaseShared at done
    split at done
    · cases done
      exact .refl p
    · split at done
      · cases done
        exact ⟨_, _, _, _, rfl⟩
      · simp only [bind_eq_ok, pure_eq_ok] at done
        obtain ⟨last, gone, rfl⟩ := done
        exact (uninstall_acts gone).trans ⟨_, _, _, _, rfl⟩
  · exact uninstall_acts done

theorem releaseFrom_acts (p : Provisioner) (stays : ResourceId → Bool) (kept rest : List Installed) :
    Acts p (p.releaseFrom stays kept rest).provisioner := by
  induction rest generalizing p kept with
  | nil => exact .refl p
  | cons r rest ih =>
      unfold releaseFrom
      split
      · exact ih p (r :: kept)
      · split
        · exact .refl p
        · rename_i q released
          exact (release_acts released).trans (ih q kept)

theorem installMissing_acts (p : Provisioner) (installed : List Installed) (wanted : List Wanted) :
    Acts p (p.installMissing installed wanted).provisioner := by
  induction wanted generalizing p installed with
  | nil => exact .refl p
  | cons w rest ih =>
      unfold installMissing
      split
      · exact ih p installed
      · split
        · exact .refl p
        · rename_i i q done
          exact (put_acts done).trans (ih q _)

-- What is refused, what the repository offers, and which installs fail.
def terms (p : Provisioner) : Refusals × Environment × List ResourceId :=
  (p.refusals, p.repository.environment, p.repository.failing)

theorem Acts.terms (acts : Acts p q) : q.terms = p.terms := by
  obtain ⟨_, _, _, _, rfl⟩ := acts
  rfl

theorem releaseFrom_terms (p : Provisioner) (stays : ResourceId → Bool) (kept rest : List Installed) :
    (p.releaseFrom stays kept rest).provisioner.terms = p.terms := (p.releaseFrom_acts stays kept rest).terms

theorem installMissing_terms (p : Provisioner) (installed : List Installed) (wanted : List Wanted) :
    (p.installMissing installed wanted).provisioner.terms = p.terms := (p.installMissing_acts installed wanted).terms

-- Configurations do not enter the balance.
theorem Balanced.retarget (balanced : p.Balanced held) (targets : Targets) :
    ({ p with targets } : Provisioner).Balanced held :=
  ⟨balanced.willing, balanced.tracks, balanced.alone, balanced.common, balanced.users⟩

-- The four ends of a pass: a target says no, nothing can be planned, something does not go, or all is gone that has to.
theorem reconcile_elim {P : Pass → Prop} (p : Provisioner) (runtime : RuntimeType) (effective : Profile)
    (installed : List Installed)
    (misconfigured : ∀ e targets,
      p.applyConfigurations runtime effective.configurationItems = (.error e, { p with targets }) →
      P ⟨.error e, { p with targets }, installed⟩)
    (unplanned : ∀ e targets,
      p.applyConfigurations runtime effective.configurationItems = (.ok (), { p with targets }) →
      ({ p with targets } : Provisioner).plan effective = .error e → P ⟨.error e, { p with targets }, installed⟩)
    (stuck : ∀ e targets plan (cleared : Pass),
      p.applyConfigurations runtime effective.configurationItems = (.ok (), { p with targets }) →
      ({ p with targets } : Provisioner).plan effective = .ok plan →
      cleared = ({ p with targets } : Provisioner).releaseUnwanted
        (fun id => plan.any (fun w => w.resource.identity = id)) installed →
      cleared.outcome = .error e → P cleared)
    (goesOn : ∀ targets plan (cleared : Pass),
      p.applyConfigurations runtime effective.configurationItems = (.ok (), { p with targets }) →
      ({ p with targets } : Provisioner).plan effective = .ok plan →
      cleared = ({ p with targets } : Provisioner).releaseUnwanted
        (fun id => plan.any (fun w => w.resource.identity = id)) installed →
      cleared.outcome = .ok () → P (cleared.provisioner.installMissing cleared.installed plan)) :
    P (p.reconcile runtime effective installed) := by
  obtain ⟨targets, same⟩ := p.applyConfigurations_eq runtime effective.configurationItems
  unfold reconcile
  rcases configured : p.applyConfigurations runtime effective.configurationItems with ⟨outcome, q⟩
  rw [configured] at same
  cases same
  cases outcome with
  | error e => exact misconfigured e targets configured
  | ok _ =>
      dsimp only
      cases planned : ({ p with targets } : Provisioner).plan effective with
      | error e => exact unplanned e targets configured planned
      | ok plan =>
          dsimp only
          split
          · rename_i e failed
            exact stuck e targets plan _ configured planned rfl failed
          · rename_i gone
            exact goesOn targets plan _ configured planned rfl gone

theorem reconcile_balanced (runtime : RuntimeType) (effective : Profile)
    (balanced : p.Balanced (installed ++ others)) :
    (p.reconcile runtime effective installed).provisioner.Balanced
        ((p.reconcile runtime effective installed).installed ++ others) ∧
      ∀ e, (p.reconcile runtime effective installed).outcome = .error e → ¬ e.OfUninstall := by
  refine p.reconcile_elim runtime effective installed
    (P := fun pass => pass.provisioner.Balanced (pass.installed ++ others) ∧
      ∀ e, pass.outcome = .error e → ¬ e.OfUninstall) ?_ ?_ ?_ ?_
  · intro cause targets configured
    refine ⟨balanced.retarget targets, fun e same => ?_⟩
    cases same
    exact applyConfigurations_error (congrArg Prod.fst configured)
  · intro cause targets _ unmade
    refine ⟨balanced.retarget targets, fun e same => ?_⟩
    cases same
    exact plan_error unmade
  · rintro e targets plan _ _ _ rfl failed
    cases (releaseUnwanted_balanced _ (balanced.retarget targets)).1.symm.trans failed
  · rintro targets plan _ _ _ rfl _
    exact installMissing_balanced (releaseUnwanted_balanced _ (balanced.retarget targets)).2

theorem reconcile_nodup (p : Provisioner) (runtime : RuntimeType) (effective : Profile)
    (distinct : (resourceIds installed).Nodup) :
    (resourceIds (p.reconcile runtime effective installed).installed).Nodup := by
  have kept : ∀ q : Provisioner, ∀ stays, (resourceIds (q.releaseUnwanted stays installed).installed).Nodup :=
    fun q stays => ((q.releaseUnwanted_sublist stays installed).map _).nodup distinct
  refine p.reconcile_elim runtime effective installed (P := fun pass => (resourceIds pass.installed).Nodup)
    (fun _ _ _ => distinct) (fun _ _ _ _ => distinct) ?_ ?_
  · rintro _ _ _ _ _ _ rfl _
    exact kept _ _
  · rintro _ _ _ _ _ rfl _
    exact installMissing_nodup (kept _ _)

theorem reconcile_terms (p : Provisioner) (runtime : RuntimeType) (effective : Profile)
    (installed : List Installed) :
    (p.reconcile runtime effective installed).provisioner.terms = p.terms := by
  refine p.reconcile_elim runtime effective installed (P := fun pass => pass.provisioner.terms = p.terms)
    (fun _ _ _ => rfl) (fun _ _ _ _ => rfl) ?_ ?_
  · rintro _ targets _ _ _ _ rfl _
    exact releaseFrom_terms _ _ [] installed.reverse
  · rintro targets plan _ _ _ rfl _
    exact (installMissing_terms _ _ plan).trans (releaseFrom_terms _ _ [] installed.reverse)

theorem reconcile_environment (p : Provisioner) (runtime : RuntimeType) (effective : Profile)
    (installed : List Installed) :
    (p.reconcile runtime effective installed).provisioner.repository.environment =
      p.repository.environment :=
  congrArg (·.2.1) (p.reconcile_terms runtime effective installed)

-- Of what is no longer wanted nothing stays, and of what is wanted nothing is missing.
theorem reconcile_ids {runtime : RuntimeType} {effective : Profile} {id : ResourceId}
    (done : (p.reconcile runtime effective installed).outcome = .ok ()) :
    id ∈ resourceIds (p.reconcile runtime effective installed).installed ↔
      id ∈ effective.desired p.repository.environment := by
  refine p.reconcile_elim runtime effective installed
    (P := fun pass => pass.outcome = .ok () →
      (id ∈ resourceIds pass.installed ↔ id ∈ effective.desired p.repository.environment))
    (fun _ _ _ => nofun) (fun _ _ _ _ => nofun) ?_ ?_ done
  · intro e _ _ _ _ _ _ failed done
    cases failed.symm.trans done
  · rintro targets plan _ _ planned rfl cleared done
    have wanted : id ∈ plan.map (·.resource.identity) ↔
        id ∈ effective.desired p.repository.environment := mem_plan planned
    rw [installMissing_ids done, releaseUnwanted_installed cleared, ← wanted]
    refine ⟨fun known => known.elim (fun old => ?_) (fun new => new), .inr⟩
    obtain ⟨i, stayed, same⟩ := List.mem_map.mp old
    obtain ⟨w, member, here⟩ := List.any_eq_true.mp (List.mem_filter.mp stayed).2
    exact List.mem_map.mpr ⟨w, member, (of_decide_eq_true here).trans same⟩

theorem releaseAll_terms (p : Provisioner) (installed : List Installed) :
    (p.releaseAll installed).provisioner.terms = p.terms :=
  p.releaseFrom_terms _ [] installed.reverse

theorem releaseAll_environment (p : Provisioner) (installed : List Installed) :
    (p.releaseAll installed).provisioner.repository.environment = p.repository.environment :=
  congrArg (·.2.1) (p.releaseAll_terms installed)

theorem releaseAll_balanced (balanced : p.Balanced (installed ++ others)) :
    (p.releaseAll installed).outcome = .ok () ∧
      (p.releaseAll installed).provisioner.Balanced ((p.releaseAll installed).installed ++ others) :=
  releaseUnwanted_balanced _ balanced

theorem releaseAll_nodup (p : Provisioner) (distinct : (resourceIds installed).Nodup) :
    (resourceIds (p.releaseAll installed).installed).Nodup :=
  ((p.releaseUnwanted_sublist _ installed).map _).nodup distinct

theorem releaseAll_installed (done : (p.releaseAll installed).outcome = .ok ()) :
    (p.releaseAll installed).installed = [] := by
  unfold releaseAll at done ⊢
  rw [releaseUnwanted_installed done]
  exact List.filter_eq_nil_iff.mpr fun _ _ => by simp

end Provisioner
end ContainerProfiles
