import ContainerProfiles.Proofs.CheckErrors
import ContainerProfiles.Proofs.RefusedUninstalls
import ContainerProfiles.Proofs.Runs

namespace ContainerProfiles

-- Three records kept in step: what every live container has installed, how often a shared resource is used, and
-- the journal of the repository.

namespace ContainerRegistry

variable {r : ContainerRegistry} {id : ContainerId} {c : Container}

-- Everything installed on live containers, and the same without one of them.
def held (r : ContainerRegistry) : List Installed := r.list.flatMap (·.installed)

def heldByOthers (r : ContainerRegistry) (id : ContainerId) : List Installed :=
  (r.live.erase id).values.flatMap (·.installed)

theorem held_of_live (live : r.live.get? id = some c) : r.held.Perm (c.installed ++ r.heldByOthers id) := by
  have parted := (Dict.values_erase live).flatMap_right (·.installed)
  rwa [List.flatMap_cons] at parted

theorem held_insert (r : ContainerRegistry) (id : ContainerId) (c : Container)
    (destroyed : KeySet ContainerId) :
    held { live := r.live.insert id c, destroyed } |>.Perm (c.installed ++ r.heldByOthers id) := by
  have joined := (Dict.values_insert r.live id c).flatMap_right (·.installed)
  rwa [List.flatMap_cons] at joined

theorem held_modify (live : r.live.get? id = some c) (change : Container → Container) :
    (r.modify id change).held.Perm ((change c).installed ++ r.heldByOthers id) := by
  unfold modify
  rw [live]
  exact r.held_insert id (change c) r.destroyed

theorem held_retouch (r : ContainerRegistry) (id : ContainerId) {change : Container → Container}
    (kept : ∀ c, r.live.get? id = some c → (change c).installed = c.installed) :
    (r.modify id change).held.Perm r.held := by
  cases live : r.live.get? id with
  | none =>
      unfold modify
      rw [live]
  | some c =>
      have after := held_modify live change
      rw [kept c live] at after
      exact after.trans (held_of_live live).symm

theorem held_remove (live : r.live.get? id = some c) : (r.remove id).held = r.heldByOthers id := by
  unfold remove contains
  rw [if_pos (Dict.contains_iff.mpr ⟨c, live⟩)]
  rfl

theorem heldByOthers_modify (r : ContainerRegistry) (id : ContainerId) (change : Container → Container) :
    (r.modify id change).heldByOthers id = r.heldByOthers id := by
  unfold modify heldByOthers
  split
  · rw [Dict.erase_insert]
  · rfl

end ContainerRegistry

namespace Deployment

structure Ledger (s : Deployment) : Prop where
  balanced : s.provisioner.Balanced s.containers.held
  named : ∀ id c, s.containers.live.get? id = some c → c.identity = id
  once : ∀ id c, s.containers.live.get? id = some c → c.installedIds.Nodup

variable {s t : Deployment} {me : Thread}

namespace Ledger

-- Other fields of the deployment are of no account.
theorem frame (ledger : s.Ledger) (provisioner : t.provisioner = s.provisioner)
    (containers : t.containers = s.containers) : t.Ledger := by
  obtain ⟨balanced, named, once⟩ := ledger
  rw [← containers] at balanced named once
  rw [← provisioner] at balanced
  exact ⟨balanced, named, once⟩

theorem split (ledger : s.Ledger) {id : ContainerId} {c : Container}
    (live : s.containers.live.get? id = some c) :
    s.provisioner.Balanced (c.installed ++ s.containers.heldByOthers id) :=
  ledger.balanced.perm (ContainerRegistry.held_of_live live)

theorem retouch (ledger : s.Ledger) (id : ContainerId) {change : Container → Container}
    (kept : ∀ c, s.containers.live.get? id = some c →
      (change c).identity = c.identity ∧ (change c).installed = c.installed) :
    (s.modify id change).Ledger := by
  have held := s.containers.held_retouch id fun c live => (kept c live).2
  refine ⟨ledger.balanced.perm held.symm, ?_, ?_⟩
  · intro other c live
    rw [Deployment.modify, ContainerRegistry.get?_modify] at live
    split at live
    · rename_i same
      obtain ⟨before, live', rfl⟩ := Option.map_eq_some_iff.mp live
      exact (kept before live').1.trans ((ledger.named id before live').trans same.symm)
    · exact ledger.named other c live
  · intro other c live
    rw [Deployment.modify, ContainerRegistry.get?_modify] at live
    split at live
    · obtain ⟨before, live', rfl⟩ := Option.map_eq_some_iff.mp live
      rw [Container.installedIds, (kept before live').2]
      exact ledger.once id before live'
    · exact ledger.once other c live

theorem finishPass (ledger : s.Ledger) {id : ContainerId} {c : Container} {pass : Pass}
    (live : s.containers.live.get? id = some c)
    (balanced : pass.provisioner.Balanced (pass.installed ++ s.containers.heldByOthers id))
    (distinct : (Provisioner.resourceIds pass.installed).Nodup) : (s.finishPass id pass).Ledger := by
  have after := ContainerRegistry.held_modify live (fun d => { d with installed := pass.installed })
  refine ⟨balanced.perm after.symm, ?_, ?_⟩
  · intro other d live'
    rw [Deployment.finishPass, Deployment.modify, ContainerRegistry.get?_modify] at live'
    split at live'
    · rename_i same
      obtain ⟨before, live'', rfl⟩ := Option.map_eq_some_iff.mp live'
      exact (ledger.named id before live'').trans same.symm
    · exact ledger.named other d live'
  · intro other d live'
    rw [Deployment.finishPass, Deployment.modify, ContainerRegistry.get?_modify] at live'
    split at live'
    · obtain ⟨before, _, rfl⟩ := Option.map_eq_some_iff.mp live'
      exact distinct
    · exact ledger.once other d live'

theorem reconcile (ledger : s.Ledger) (caller : Option String) {c : Container} (merged : Profile)
    (live : s.containers.live.get? c.identity = some c) :
    (s.reconcile caller c merged).2.Ledger ∧
      ∀ e, (s.reconcile caller c merged).1 = .error (.provision e) → ¬ e.OfUninstall := by
  obtain ⟨balanced, outcome⟩ :=
    Provisioner.reconcile_balanced s.settings.runtime merged (ledger.split live)
  have distinct := s.provisioner.reconcile_nodup s.settings.runtime merged (ledger.once _ c live)
  refine ⟨(ledger.finishPass live balanced distinct).frame (s.reconcile_provisioner caller c merged)
    (s.reconcile_containers caller c merged), fun e failed => ?_⟩
  rw [s.reconcile_outcome caller c merged] at failed
  cases result : (s.passOf c merged).outcome with
  | ok _ => rw [result] at failed; cases failed
  | error cause =>
      rw [result] at failed
      cases failed
      exact outcome e result

theorem provision (ledger : s.Ledger) (me : Thread) (caller : Option String) (id : ContainerId) :
    (s.provision me caller id).2.Ledger ∧
      ∀ e, (s.provision me caller id).1 = .error (.provision e) → ¬ e.OfUninstall := by
  refine s.provision_elim me caller id
    (P := fun out => out.2.Ledger ∧ ∀ e, out.1 = .error (.provision e) → ¬ e.OfUninstall) ?_ ?_ ?_
  · exact fun _ => ⟨ledger, nofun⟩
  · intro c v e _ _ _ failed
    refine ⟨ledger.frame rfl rfl, fun cause same => ?_⟩
    cases same
    have harmless : Harmless (s.effectiveFor me v c.profiles) := s.effectiveFor_never me v c.profiles
    exact absurd ⟨cause, rfl⟩ (harmless _ failed)
  · intro c v merged live _ _ _
    exact ledger.reconcile caller merged (ledger.named id c live ▸ live)

-- A container joins with nothing installed.
theorem join (ledger : s.Ledger) {id : ContainerId} {c : Container}
    (absent : s.containers.live.get? id = none) (named : c.identity = id) (bare : c.installed = [])
    (destroyed : KeySet ContainerId) :
    Ledger { s with containers := { live := s.containers.live.insert id c, destroyed } } := by
  refine ⟨ledger.balanced.perm ?_, ?_, ?_⟩
  · have joined := s.containers.held_insert id c destroyed
    rw [bare, List.nil_append, ContainerRegistry.heldByOthers, Dict.erase_of_absent absent] at joined
    exact joined.symm
  · intro other d live
    rw [Dict.get?_insert] at live
    split at live
    · rename_i same
      cases live
      exact named.trans same.symm
    · exact ledger.named other d live
  · intro other d live
    rw [Dict.get?_insert] at live
    split at live
    · cases live
      rw [Container.installedIds, bare]
      exact List.nodup_nil
    · exact ledger.once other d live

-- And one that has nothing installed any more leaves.
theorem leave (ledger : s.Ledger) {id : ContainerId} {c : Container}
    (live : s.containers.live.get? id = some c) (bare : c.installed = []) :
    Ledger { s with containers := s.containers.remove id } := by
  refine ⟨ledger.balanced.perm ?_, ?_, ?_⟩
  · have parted := ContainerRegistry.held_of_live live
    rw [bare, List.nil_append] at parted
    rw [ContainerRegistry.held_remove live]
    exact parted
  · intro other d live'
    rw [ContainerRegistry.get?_remove] at live'
    split at live'
    · cases live'
    · exact ledger.named other d live'
  · intro other d live'
    rw [ContainerRegistry.get?_remove] at live'
    split at live'
    · cases live'
    · exact ledger.once other d live'

theorem create (ledger : s.Ledger) {c : Container} (absent : s.containers.live.get? c.identity = none)
    (bare : c.installed = []) (destroyed : KeySet ContainerId) (parent : Option ContainerId) :
    Ledger { s with
      containers := linkChild { live := s.containers.live.insert c.identity c, destroyed } c.identity parent } := by
  have joined := ledger.join absent rfl bare destroyed
  unfold linkChild
  split
  · exact joined
  · exact joined.retouch _ fun _ _ => ⟨rfl, rfl⟩

section Given

variable {id : ContainerId} {c : Container} {pass : Pass} (ledger : s.Ledger)
  (live : s.containers.live.get? id = some c)
  (balanced : pass.provisioner.Balanced (pass.installed ++ s.containers.heldByOthers id))

include ledger live balanced

theorem unrelease {changed : Container}
    (unmoved : changed.identity = c.identity ∧ changed.installed = c.installed)
    (distinct : (Provisioner.resourceIds pass.installed).Nodup) :
    ((s.modify id (fun _ => changed)).finishPass id pass).Ledger := by
  have stopped : (s.modify id (fun _ => changed)).Ledger := ledger.retouch id fun d live' => by
    cases live.symm.trans live'
    exact unmoved
  have here : (s.containers.modify id (fun _ => changed)).live.get? id = some changed := by
    rw [ContainerRegistry.get?_modify, if_pos rfl, live]
    rfl
  rw [← s.containers.heldByOthers_modify id (fun _ => changed)] at balanced
  exact stopped.finishPass here balanced distinct

theorem release (bare : pass.installed = []) (parent : Option ContainerId) :
    Ledger { s.finishPass id pass with
      containers := unlinkChild ((s.finishPass id pass).containers.remove id) id parent } := by
  have emptied : (s.finishPass id pass).Ledger := ledger.finishPass live balanced (bare ▸ List.nodup_nil)
  have here : (s.finishPass id pass).containers.live.get? id = some { c with installed := [] } := by
    change (s.containers.modify id _).live.get? id = _
    rw [ContainerRegistry.get?_modify, if_pos rfl, live, bare]
    rfl
  have gone := emptied.leave here rfl
  unfold unlinkChild
  split
  · exact gone
  · exact gone.retouch _ fun _ _ => ⟨rfl, rfl⟩

end Given

end Ledger

-- The records agree as they would where no uninstall is refused.
def forgiving (s : Deployment) : Deployment := { s with provisioner := s.provisioner.forgiving }

theorem forgiving_eq (willing : s.provisioner.refusals.uninstalls = ∅) : s.forgiving = s := by
  unfold forgiving
  rw [Provisioner.forgiving_eq willing]

theorem reconcile_forgiving (ledger : s.forgiving.Ledger) (caller : Option String) {c : Container}
    (merged : Profile) (live : s.containers.live.get? c.identity = some c) :
    (s.reconcile caller c merged).2.forgiving.Ledger := by
  have balanced := Provisioner.reconcile_forgiving s.settings.runtime merged (ledger.split live)
  have distinct := s.provisioner.reconcile_nodup s.settings.runtime merged (ledger.once _ c live)
  have finished : (s.forgiving.finishPass c.identity (s.passOf c merged).forgiving).Ledger :=
    ledger.finishPass live balanced distinct
  exact finished.frame (congrArg Provisioner.forgiving (s.reconcile_provisioner caller c merged))
    (s.reconcile_containers caller c merged)

theorem provision_forgiving (ledger : s.forgiving.Ledger) (me : Thread) (caller : Option String)
    (id : ContainerId) : (s.provision me caller id).2.forgiving.Ledger := by
  refine s.provision_elim me caller (P := fun out => out.2.forgiving.Ledger) id ?_ ?_ ?_
  · exact fun _ => ledger
  · exact fun _ _ _ _ _ _ _ => ledger.frame rfl rfl
  · intro c _ merged live _ _ _
    exact reconcile_forgiving ledger caller merged (ledger.named id c live ▸ live)

theorem Ledger.reassign (ledger : s.Ledger) {id : ContainerId} {c changed : Container}
    (live : s.containers.live.get? id = some c)
    (unmoved : changed.identity = c.identity ∧ changed.installed = c.installed) :
    (s.modify changed.identity (fun _ => changed)).Ledger := by
  refine ledger.retouch _ fun d live' => ?_
  rw [unmoved.1, ledger.named id c live] at live'
  cases live.symm.trans live'
  exact unmoved

theorem Replaced.forgiving (replaced : Replaced s me p t) (ledger : s.forgiving.Ledger) :
    t.forgiving.Ledger := by
  obtain ⟨_, _, _, _⟩ := replaced
  exact ledger.frame rfl rfl

theorem Change.forgiving (change : Change s t) (ledger : s.forgiving.Ledger) : t.forgiving.Ledger := by
  cases change with
  | switched _ _ _ => exact ledger.frame rfl rfl
  | told _ _ => exact ledger.frame rfl rfl
  | stored _ => exact ledger.frame rfl rfl
  | @created r me absent _ => exact ledger.create (c := s.newContainer r) absent rfl _ r.parent
  | retouched live retouched =>
      refine ledger.retouch _ fun c live' => ?_
      cases live.symm.trans live'
      exact retouched.unmoved
  | @reassigned c me changed id caller live reassigned =>
      rw [changeAndProvision_snd]
      have ready : (s.modify changed.identity fun _ => changed).forgiving.Ledger :=
        ledger.reassign live reassigned.unmoved
      exact provision_forgiving ready me caller _
  | @unreleased c changed id caller text live same =>
      have unmoved : changed.identity = c.identity ∧ changed.installed = c.installed := by
        rw [same]
        split <;> exact ⟨rfl, rfl⟩
      have balanced := Provisioner.releaseUnwanted_forgiving (fun _ => false) (ledger.split live)
      have distinct := s.provisioner.releaseAll_nodup (ledger.once id c live)
      have kept : ((s.forgiving.modify id fun _ => changed).finishPass id
          (s.provisioner.releaseAll c.installed).forgiving).Ledger :=
        ledger.unrelease live balanced unmoved distinct
      exact kept.frame rfl rfl
  | @destroyed c id caller live done =>
      have balanced := Provisioner.releaseUnwanted_forgiving (fun _ => false) (ledger.split live)
      have bare : (s.provisioner.releaseAll c.installed).forgiving.installed = [] :=
        Provisioner.releaseAll_installed done
      exact (ledger.release live balanced bare c.parent).frame rfl rfl
  | updated caller replaced =>
      exact reprovisions_keep (P := fun u => u.forgiving.Ledger) (replaced.forgiving ledger)
        (fun _ id ledger => provision_forgiving ledger _ caller id) _ _

theorem perform_forgiving (ledger : s.forgiving.Ledger) (me : Thread) (caller : Option String)
    (op : Operation) : (s.perform me caller op).2.forgiving.Ledger :=
  perform_keeps (P := fun u => u.forgiving.Ledger) ledger (fun _ _ => Change.forgiving)
    (fun _ _ _ => Replaced.forgiving) me caller op

-- What the repository offers and what is refused does not enter.
theorem Ledger.reoffer (ledger : s.forgiving.Ledger) (offered : Environment) (failing : List ResourceId)
    (refusals : Refusals) :
    ({ s with provisioner := { s.provisioner with
        repository := { s.provisioner.repository with environment := offered, failing }, refusals } } :
      Deployment).forgiving.Ledger :=
  ⟨⟨rfl, ledger.balanced.tracks.frame _ _, ledger.balanced.alone, ledger.balanced.common, ledger.balanced.users⟩,
    ledger.named, ledger.once⟩

theorem act_forgiving (ledger : s.forgiving.Ledger) (a : Action) : (s.act a).forgiving.Ledger := by
  cases a with
  | perform me caller op => exact perform_forgiving ledger me caller op
  | lockContainer me id mode =>
      obtain ⟨locks, same⟩ := s.lockContainer_eq me id mode
      rw [same]
      exact ledger.frame rfl rfl
  | lockVersion me v mode =>
      obtain ⟨locks, same⟩ := s.lockVersion_eq me v mode
      rw [same]
      exact ledger.frame rfl rfl
  | addResource r => exact Ledger.reoffer ledger _ _ _
  | failInstall id => exact Ledger.reoffer ledger _ _ _
  | refuse r => exact Ledger.reoffer ledger _ _ _
  | allow r => exact Ledger.reoffer ledger _ _ _
  | unlock handle => exact ledger.frame rfl rfl
  | listen l => exact ledger.frame rfl rfl
  | listenProfile name => exact ledger.frame rfl rfl
  | listenLatch name l => exact ledger.frame rfl rfl

theorem turn_forgiving (ledger : s.forgiving.Ledger) (x : Turn) : (s.turn x).forgiving.Ledger := by
  cases x with
  | switch profiles containers => exact ledger.frame rfl rfl
  | action a => exact act_forgiving ledger a

theorem provision_refusals (s : Deployment) (me : Thread) (caller : Option String) (id : ContainerId) :
    (s.provision me caller id).2.provisioner.refusals = s.provisioner.refusals := by
  refine s.provision_elim me caller
    (P := fun out => out.2.provisioner.refusals = s.provisioner.refusals) id ?_ ?_ ?_
  · exact fun _ => rfl
  · exact fun _ _ _ _ _ _ _ => rfl
  · intro c _ merged _ _ _ _
    rw [reconcile_provisioner]
    exact congrArg (·.1) (s.provisioner.reconcile_terms s.settings.runtime merged c.installed)

theorem Change.refusals (change : Change s t) : t.provisioner.refusals = s.provisioner.refusals := by
  have released := fun installed => congrArg (·.1) (s.provisioner.releaseAll_terms installed)
  cases change with
  | reassigned caller _ _ =>
      rw [changeAndProvision_snd]
      exact provision_refusals _ _ caller _
  | unreleased _ _ _ _ => exact released _
  | destroyed _ _ _ => exact released _
  | @updated _ u p caller replaced =>
      have kept : u.provisioner.refusals = s.provisioner.refusals := by
        obtain ⟨_, _, _, _⟩ := replaced
        rfl
      exact reprovisions_keep (P := fun u => u.provisioner.refusals = s.provisioner.refusals) kept
        (fun v id same => (v.provision_refusals _ caller id).trans same) _ _
  | _ => rfl

theorem Change.ledger (change : Change s t) (ledger : s.Ledger) : t.Ledger := by
  have willing : s.provisioner.refusals.uninstalls = ∅ := ledger.balanced.willing
  have after := change.forgiving ((forgiving_eq willing).symm ▸ ledger)
  rwa [forgiving_eq (change.refusals ▸ willing)] at after

theorem Replaced.ledger (replaced : Replaced s me p t) (ledger : s.Ledger) : t.Ledger := by
  obtain ⟨_, _, _, _⟩ := replaced
  exact ledger.frame rfl rfl

theorem perform_ledger (ledger : s.Ledger) (me : Thread) (caller : Option String) (op : Operation) :
    (s.perform me caller op).2.Ledger :=
  perform_keeps ledger (fun _ _ => Change.ledger) (fun _ _ _ => Replaced.ledger) me caller op

theorem perform_refusals (s : Deployment) (me : Thread) (caller : Option String) (op : Operation) :
    (s.perform me caller op).2.provisioner.refusals = s.provisioner.refusals := by
  refine perform_keeps (P := fun u => u.provisioner.refusals = s.provisioner.refusals) rfl ?_ ?_ me caller op
  · exact fun _ _ change same => change.refusals.trans same
  · rintro _ _ _ ⟨_, _, _, _⟩ same
    exact same

theorem act_ledger (ledger : s.Ledger) {a : Action} (willing : ∀ id, a ≠ .refuse (.uninstall id)) :
    (s.act a).Ledger := by
  have unrefused : s.provisioner.refusals.uninstalls = ∅ := ledger.balanced.willing
  have stays : (s.act a).provisioner.refusals.uninstalls = ∅ := by
    cases a with
    | perform me caller op => exact (congrArg Refusals.uninstalls (s.perform_refusals me caller op)).trans unrefused
    | lockContainer me id mode =>
        obtain ⟨locks, same⟩ := s.lockContainer_eq me id mode
        rw [same]
        exact unrefused
    | lockVersion me v mode =>
        obtain ⟨locks, same⟩ := s.lockVersion_eq me v mode
        rw [same]
        exact unrefused
    | refuse r =>
        cases r with
        | uninstall id => exact absurd rfl (willing id)
        | target name => exact unrefused
        | update profile => exact unrefused
    | allow r =>
        cases r with
        | uninstall id =>
            change s.provisioner.refusals.uninstalls.erase id = ∅
            rw [unrefused]
            rfl
        | target name => exact unrefused
        | update profile => exact unrefused
    | _ => exact unrefused
  have after := act_forgiving ((forgiving_eq unrefused).symm ▸ ledger) a
  rwa [forgiving_eq stays] at after

end Deployment
end ContainerProfiles
