import ContainerProfiles.Proofs.Reconciling

namespace ContainerProfiles

-- A pass that is cut short by a refused uninstall leaves its accounts in order: what it could not give back stays
-- on the container. So the balance is one of the provisioner with such refusals set aside.

-- The same where no uninstall is refused.
def Provisioner.forgiving (p : Provisioner) : Provisioner :=
  { p with refusals := { p.refusals with uninstalls := ∅ } }

def Pass.forgiving (pass : Pass) : Pass := { pass with provisioner := pass.provisioner.forgiving }

namespace Provisioner

variable {p q : Provisioner} {installed held others : List Installed}

theorem forgiving_eq (willing : p.refusals.uninstalls = ∅) : p.forgiving = p := by
  unfold forgiving
  rw [← willing]

theorem forgiving_shared : p.forgiving.shared = p.shared := rfl

theorem uninstall_forgiving (done : p.uninstall handle = .ok q) :
    p.forgiving.uninstall handle = .ok q.forgiving := by
  simp only [uninstall, guard_eq_ok, bind_eq_ok, pure_eq_ok] at done ⊢
  obtain ⟨_, next, uninstalled, rfl⟩ := done
  exact ⟨by simp [forgiving, Dict.contains], next, uninstalled, rfl⟩

theorem release_forgiving (done : p.release i = .ok q) : p.forgiving.release i = .ok q.forgiving := by
  unfold release at done ⊢
  by_cases shared : i.shared
  · rw [if_pos shared] at done ⊢
    unfold releaseShared at done ⊢
    rw [forgiving_shared]
    cases found : p.shared.get? i.identity with
    | none =>
        rw [found] at done
        cases done
        rfl
    | some use =>
        rw [found] at done
        dsimp only at done ⊢
        by_cases several : use.users > 1
        · rw [if_pos several] at done ⊢
          cases done
          rfl
        · rw [if_neg several] at done ⊢
          simp only [bind_eq_ok, pure_eq_ok] at done ⊢
          obtain ⟨last, gone, rfl⟩ := done
          exact ⟨last.forgiving, uninstall_forgiving gone, rfl⟩
  · rw [if_neg shared] at done ⊢
    exact uninstall_forgiving done

theorem install_forgiving (done : p.install r = .ok (handle, q)) :
    p.forgiving.install r = .ok (handle, q.forgiving) := by
  simp only [install, bind_eq_ok, pure_eq_ok, Prod.mk.injEq] at done ⊢
  obtain ⟨⟨_, next⟩, installed, rfl, rfl⟩ := done
  exact ⟨(_, next), installed, rfl, rfl⟩

theorem put_forgiving (done : p.put r common = .ok (i, q)) : p.forgiving.put r common = .ok (i, q.forgiving) := by
  simp only [put_eq, bind_eq_ok, Except.ok.injEq, Prod.mk.injEq] at done ⊢
  obtain ⟨⟨handle, next⟩, installed, rfl, rfl⟩ := done
  refine ⟨(handle, next.forgiving), ?_, rfl, rfl⟩
  cases common with
  | false => exact install_forgiving installed
  | true =>
      rw [if_pos rfl] at installed ⊢
      unfold installShared at installed ⊢
      rw [forgiving_shared]
      cases found : p.shared.get? r.identity with
      | some use =>
          rw [found] at installed
          cases installed
          rfl
      | none =>
          rw [found] at installed
          simp only [bind_eq_ok, pure_eq_ok, Prod.mk.injEq] at installed ⊢
          obtain ⟨⟨fresh, last⟩, done, rfl, rfl⟩ := installed
          exact ⟨(fresh, last.forgiving), install_forgiving done, rfl, rfl⟩

theorem releaseFrom_forgiving {stays : ResourceId → Bool} {rest kept : List Installed}
    (balanced : p.forgiving.Balanced (rest ++ kept ++ others)) :
    (p.releaseFrom stays kept rest).provisioner.forgiving.Balanced
      ((p.releaseFrom stays kept rest).installed ++ others) := by
  induction rest generalizing p kept with
  | nil => exact balanced
  | cons r rest ih =>
      unfold releaseFrom
      split
      · refine ih (balanced.perm ?_)
        exact List.Perm.append_right _ List.perm_middle.symm
      · split
        · refine balanced.perm (List.Perm.append_right _ ?_)
          exact List.perm_middle.symm.trans (List.Perm.append_right _ (List.reverse_perm rest).symm)
        · rename_i q released
          obtain ⟨_, done, after⟩ := release_balanced balanced
          cases (release_forgiving released).symm.trans done
          exact ih after

theorem releaseUnwanted_forgiving (stays : ResourceId → Bool)
    (balanced : p.forgiving.Balanced (installed ++ others)) :
    (p.releaseUnwanted stays installed).provisioner.forgiving.Balanced
      ((p.releaseUnwanted stays installed).installed ++ others) := by
  refine releaseFrom_forgiving (balanced.perm (List.Perm.append_right _ ?_))
  rw [List.append_nil]
  exact (List.reverse_perm installed).symm

theorem installMissing_forgiving {wanted : List Wanted} (balanced : p.forgiving.Balanced (installed ++ others)) :
    (p.installMissing installed wanted).provisioner.forgiving.Balanced
      ((p.installMissing installed wanted).installed ++ others) := by
  induction wanted generalizing p installed with
  | nil => exact balanced
  | cons w rest ih =>
      unfold installMissing
      split
      · exact ih balanced
      · split
        · exact balanced
        · rename_i i q done
          obtain ⟨_, after⟩ := put_balanced balanced (put_forgiving done)
          refine ih (after.perm ?_)
          rw [List.append_assoc]
          exact List.perm_middle.symm

theorem reconcile_forgiving (runtime : RuntimeType) (effective : Profile)
    (balanced : p.forgiving.Balanced (installed ++ others)) :
    (p.reconcile runtime effective installed).provisioner.forgiving.Balanced
      ((p.reconcile runtime effective installed).installed ++ others) := by
  have ready : ∀ targets, ({ p with targets } : Provisioner).forgiving.Balanced (installed ++ others) :=
    fun targets => balanced.retarget targets
  refine p.reconcile_elim runtime effective installed
    (P := fun pass => pass.provisioner.forgiving.Balanced (pass.installed ++ others))
    (fun _ targets _ => ready targets) (fun _ targets _ _ => ready targets) ?_ ?_
  · rintro _ targets _ _ _ _ rfl _
    exact releaseUnwanted_forgiving _ (ready targets)
  · rintro targets plan _ _ _ rfl _
    exact installMissing_forgiving (releaseUnwanted_forgiving _ (ready targets))

end Provisioner
end ContainerProfiles
