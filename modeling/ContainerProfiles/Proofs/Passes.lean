import ContainerProfiles.Deployment.Containers
import ContainerProfiles.Proofs.Entries

namespace ContainerProfiles

-- What provisioning a container can come to, and what it leaves alone. The store stays, and of all containers only
-- the one that is provisioned gets another list of what is installed.

namespace ContainerRegistry

variable (r : ContainerRegistry)

theorem get?_modify (id : ContainerId) (change : Container → Container) (other : ContainerId) :
    (r.modify id change).live.get? other =
      if other = id then (r.live.get? id).map change else r.live.get? other := by
  unfold modify
  by_cases same : other = id
  · subst same
    cases found : r.live.get? other <;> simp [found]
  · cases found : r.live.get? id <;> simp [same]

theorem get?_remove (id other : ContainerId) :
    (r.remove id).live.get? other = if other = id then none else r.live.get? other := by
  unfold remove contains
  split
  · exact Dict.get?_erase ..
  · rename_i absent
    split
    · rename_i same
      rw [same]
      exact Dict.contains_false.mp (Bool.eq_false_iff.mpr absent)
    · rfl

end ContainerRegistry

namespace Deployment

-- Settings, store, locks and services are the same.
def Beside (s t : Deployment) : Prop :=
  ∃ containers provisioner audience log, t = { s with containers, provisioner, audience, log }

theorem Beside.refl (s : Deployment) : Beside s s := ⟨s.containers, s.provisioner, s.audience, s.log, rfl⟩

theorem Beside.symm {s t : Deployment} (beside : Beside s t) : Beside t s := by
  obtain ⟨_, _, _, _, rfl⟩ := beside
  exact ⟨s.containers, s.provisioner, s.audience, s.log, rfl⟩

theorem Beside.trans {s t u : Deployment} (one : Beside s t) (two : Beside t u) : Beside s u := by
  obtain ⟨_, _, _, _, rfl⟩ := one
  obtain ⟨containers, provisioner, audience, log, rfl⟩ := two
  exact ⟨containers, provisioner, audience, log, rfl⟩

theorem Beside.same {s t : Deployment} (beside : Beside s t) (look : Deployment → α)
    (blind : ∀ containers provisioner audience log,
      look { s with containers, provisioner, audience, log } = look s) : look t = look s := by
  obtain ⟨containers, provisioner, audience, log, rfl⟩ := beside
  exact blind containers provisioner audience log

theorem Beside.store {s t : Deployment} (beside : Beside s t) : t.store = s.store :=
  beside.same (·.store) fun _ _ _ _ => rfl

variable (s : Deployment) (me : Thread) (caller : Option String)

def passOf (c : Container) (effective : Profile) : Pass :=
  s.provisioner.reconcile s.settings.runtime effective c.installed

theorem reconcile_beside (c : Container) (effective : Profile) : Beside s (s.reconcile caller c effective).2 := by
  unfold reconcile
  dsimp only
  split <;> exact ⟨_, _, _, _, rfl⟩

theorem reconcile_containers (c : Container) (effective : Profile) :
    (s.reconcile caller c effective).2.containers = s.containers.modify c.identity
      (fun d => { d with installed := (s.passOf c effective).installed }) := by
  unfold reconcile
  dsimp only
  split <;> rfl

theorem reconcile_provisioner (c : Container) (effective : Profile) :
    (s.reconcile caller c effective).2.provisioner = (s.passOf c effective).provisioner := by
  unfold reconcile
  dsimp only
  split <;> rfl

theorem reconcile_outcome (c : Container) (effective : Profile) :
    (s.reconcile caller c effective).1 = (s.passOf c effective).outcome.mapError .provision := by
  unfold reconcile passOf
  dsimp only
  split
  · rename_i done
    exact done ▸ rfl
  · rename_i e failed
    exact failed ▸ rfl

-- The three ends of an attempt to provision: nothing to do, no effective profile, or a pass.
theorem provision_elim {P : Outcome Unit → Prop} (id : ContainerId)
    (idle : (∀ c, s.containers.live.get? id = some c → c.state = .started → c.version = none) →
      P (.ok (), s))
    (unread : ∀ c v e, s.containers.live.get? id = some c → c.state = .started → c.version = some v →
      s.effectiveFor me v c.profiles = .error e →
      P (.error e, s.announce caller { container := id, stage := .error, error := some e.message }))
    (pass : ∀ c v merged, s.containers.live.get? id = some c → c.state = .started → c.version = some v →
      s.effectiveFor me v c.profiles = .ok merged → P (s.reconcile caller c merged)) :
    P (s.provision me caller id) := by
  unfold provision
  split
  · rename_i absent
    exact idle fun c live => by rw [absent] at live; cases live
  · rename_i c live
    split
    · rename_i v started version
      have running : c.state = .started := by simpa [Container.isStarted] using started
      split
      · rename_i e failed
        exact unread c v e live running version failed
      · rename_i merged computed
        exact pass c v merged live running version computed
    · rename_i other
      refine idle fun d live' running => ?_
      cases live.symm.trans live'
      cases version : c.version with
      | none => rfl
      | some v => exact (other v (by simp [Container.isStarted, running]) version).elim

theorem provision_passes {id : ContainerId} {c : Container} {v : Version} {effective : Profile}
    (live : s.containers.live.get? id = some c) (running : c.state = .started) (version : c.version = some v)
    (computed : s.effectiveFor me v c.profiles = .ok effective) :
    s.provision me caller id = s.reconcile caller c effective := by
  unfold provision Container.isStarted
  simp [live, running, version, computed]

theorem provision_beside (id : ContainerId) : Beside s (s.provision me caller id).2 :=
  s.provision_elim me caller (P := fun out => Beside s out.2) id (fun _ => .refl s)
    (fun _ _ _ _ _ _ _ => ⟨_, _, _, _, rfl⟩) fun c _ merged _ _ _ _ => s.reconcile_beside caller c merged

theorem modify_there {s : Deployment} {changed : Container} (live : s.containers.live.get? changed.identity = some c) :
    (s.modify changed.identity fun _ => changed).containers.live.get? changed.identity = some changed := by
  refine (s.containers.get?_modify ..).trans ?_
  rw [if_pos rfl, live]
  rfl

theorem changeAndProvision_snd (changed : Container) :
    (s.changeAndProvision me caller changed).2 =
      ((s.modify changed.identity (fun _ => changed)).provision me caller changed.identity).2 := by
  unfold changeAndProvision
  split
  · rename_i failed
    exact (congrArg Prod.snd failed).symm
  · rename_i done
    exact (congrArg Prod.snd done).symm

theorem changeAndProvision_beside (changed : Container) :
    Beside s (s.changeAndProvision me caller changed).2 := by
  rw [changeAndProvision_snd]
  have modified : Beside s (s.modify changed.identity fun _ => changed) := ⟨_, _, _, _, rfl⟩
  exact modified.trans (provision_beside _ me caller changed.identity)

theorem reprovision_cases (updated : Profile) (id : ContainerId) :
    s.reprovision me caller updated id = s ∨
      s.reprovision me caller updated id = (s.provision me caller id).2 := by
  unfold reprovision
  split
  · exact .inr rfl
  · exact .inl rfl

theorem reprovision_beside (updated : Profile) (id : ContainerId) :
    Beside s (s.reprovision me caller updated id) := by
  rcases s.reprovision_cases me caller updated id with same | passed
  · rw [same]
    exact .refl s
  · rw [passed]
    exact s.provision_beside me caller id

-- What every attempt to provision keeps is kept when several containers are looked through.
theorem reprovisions_keep {P : Deployment → Prop} {s : Deployment} {me : Thread} {caller : Option String}
    (start : P s) (step : ∀ t id, P t → P (t.provision me caller id).2) (updated : Profile)
    (ids : List ContainerId) : P (ids.foldl (fun t id => t.reprovision me caller updated id) s) := by
  induction ids generalizing s with
  | nil => exact start
  | cons id rest ih =>
      refine ih ?_
      dsimp only
      rcases s.reprovision_cases me caller updated id with same | passed
      · rw [same]
        exact start
      · rw [passed]
        exact step s id start

theorem reprovisions_beside (updated : Profile) (ids : List ContainerId) :
    Beside s (ids.foldl (fun t id => t.reprovision me caller updated id) s) :=
  reprovisions_keep (.refl s) (fun t id kept => kept.trans (t.provision_beside me caller id)) updated ids

end Deployment
end ContainerProfiles
