import ContainerProfiles.Proofs.Onlookers

namespace ContainerProfiles

-- Refused operations on containers. Whatever refuses one either speaks before anything was changed, or is a failed
-- pass, and that is told to the listeners. Only the exchange of a stored profile can end with an error of the
-- store.

-- The operations that change containers, and the profiles together with the containers that use them.
def Operation.OnContainers : Operation → Prop
  | .create _ | .startContainer _ | .stopContainer _ | .destroy _ | .assignVersion _ _
  | .addProfiles _ _ | .removeProfiles _ _ | .addEndpoint _ _ | .setAttribute _ _ _
  | .updateProfile _ => True
  | _ => False

def Notice.provision? : Notice → Option ProvisionEvent
  | .heard _ (.provision e) => some e
  | _ => none

namespace Deployment

variable {s : Deployment} {me : Thread} {caller : Option String}

-- The same deployment with one listener, who has heard nothing yet.
def attended (s : Deployment) : Deployment :=
  { s with audience := { provision := [.recorder "listener"] }, log := [] }

-- The provision events an operation sends out, as whoever listens hears them.
def dispatched (s : Deployment) (me : Thread) (caller : Option String) (op : Operation) :
    List ProvisionEvent :=
  (s.attended.perform me caller op).2.log.filterMap Notice.provision?

def Listened (s : Deployment) : Prop := ∃ name, .recorder name ∈ s.audience.provision

def Told (s : Deployment) : Prop := s.log.filterMap Notice.provision? ≠ []

theorem announce_told (listened : s.Listened) (caller : Option String) (e : ProvisionEvent) :
    (s.announce caller e).Told := by
  obtain ⟨name, listening⟩ := listened
  have notice : Notice.heard name (.provision e) ∈
      s.audience.provisionNotices (s.sight e.container) caller e :=
    List.mem_flatMap.mpr ⟨.recorder name, List.mem_append_right _ listening, List.mem_singleton_self _⟩
  have heard : e ∈ (s.announce caller e).log.filterMap Notice.provision? :=
    List.mem_filterMap.mpr ⟨_, List.mem_append_right _ notice, rfl⟩
  exact List.ne_nil_of_mem heard

theorem reconcile_told (listened : s.Listened) {c : Container} {merged : Profile}
    (failed : (s.reconcile caller c merged).1 = .error e) : (s.reconcile caller c merged).2.Told := by
  unfold reconcile at failed ⊢
  dsimp only at failed ⊢
  split at failed
  · cases failed
  · rename_i refused
    simp only
    exact announce_told (s := s.announce caller _) listened caller _

theorem provision_told (listened : s.Listened) {id : ContainerId}
    (failed : (s.provision me caller id).1 = .error e) : (s.provision me caller id).2.Told := by
  revert failed
  refine s.provision_elim me caller (P := fun out => out.1 = .error e → out.2.Told) id ?_ ?_ ?_
  · intro _ failed
    cases failed
  · exact fun _ _ _ _ _ _ _ _ => announce_told listened caller _
  · exact fun _ _ _ _ _ _ _ failed => reconcile_told listened failed

theorem provision_live (s : Deployment) (me : Thread) (caller : Option String) (id other : ContainerId) :
    ((s.provision me caller id).2.containers.live.get? other).isSome =
      (s.containers.live.get? other).isSome := by
  refine s.provision_elim me caller (P := fun out => (out.2.containers.live.get? other).isSome =
    (s.containers.live.get? other).isSome) id ?_ ?_ ?_
  · exact fun _ => rfl
  · exact fun _ _ _ _ _ _ _ => rfl
  · intro c _ merged _ _ _ _
    rw [reconcile_containers, ContainerRegistry.get?_modify]
    split
    · rename_i same
      rw [Option.isSome_map, same]
    · rfl

-- What was refused left the deployment as it was, or told of a pass.
def Unmoved (s : Deployment) (out : Outcome α) : Prop := ∀ e, out.1 = .error e → out.2.Told ∨ out.2 = s

theorem unmoved_refusal (s : Deployment) (x : Except OperationError α) : s.Unmoved (x, s) :=
  fun _ _ => .inr rfl

theorem changeAndProvision_unmoved (listened : s.Listened) (changed : Container) :
    s.Unmoved (s.changeAndProvision me caller changed) := by
  intro e refused
  have live := (s.modify changed.identity (fun _ => changed)).provision_live me caller changed.identity
    changed.identity
  have told : ((s.modify changed.identity (fun _ => changed)).provision me caller changed.identity).1 = .error e →
      ((s.modify changed.identity (fun _ => changed)).provision me caller changed.identity).2.Told :=
    fun failed => provision_told (s := s.modify changed.identity (fun _ => changed)) listened failed
  unfold changeAndProvision at refused ⊢
  rcases passed : (s.modify changed.identity (fun _ => changed)).provision me caller changed.identity
    with ⟨outcome, t⟩
  rw [passed] at live told refused
  cases outcome with
  | error cause =>
      cases refused
      exact .inl (told rfl)
  | ok _ =>
      -- The pass went well, so only a container that was never there is missing now.
      change t.containers.get changed.identity = .error e at refused
      have gone : t.containers.live.get? changed.identity = none := by
        cases found : t.containers.live.get? changed.identity with
        | none => rfl
        | some c =>
            rw [get_eq_ok.mpr found] at refused
            cases refused
      rw [gone] at live
      change _ = ((s.containers.modify changed.identity fun _ => changed).live.get? _).isSome at live
      rw [ContainerRegistry.get?_modify, if_pos rfl, Option.isSome_map] at live
      have absent : s.containers.live.get? changed.identity = none := by
        simpa using live.symm
      have still : s.modify changed.identity (fun _ => changed) = s := by
        unfold Deployment.modify ContainerRegistry.modify
        rw [absent]
      right
      rw [still] at passed
      unfold provision at passed
      rw [absent] at passed
      cases passed
      rfl

theorem settle_unmoved (s : Deployment) (x : Except OperationError (α × Deployment)) :
    s.Unmoved (s.settle x) := fun _ refused => .inr (settle_error refused)

theorem Assigns.unmoved {id : ContainerId} {out : Outcome Container} (assigns : s.Assigns me caller id out)
    (listened : s.Listened) : s.Unmoved out := by
  cases assigns with
  | refused e => exact s.unmoved_refusal _
  | settled c => exact s.unmoved_refusal _
  | assigned live reassigned => exact changeAndProvision_unmoved listened _

theorem destroy_unmoved (listened : s.Listened) (id : ContainerId) :
    s.Unmoved (s.destroy me id caller) := by
  unfold destroy
  cases s.prepareDestruction me id with
  | error e => exact s.unmoved_refusal _
  | ok changed =>
      dsimp only
      cases (s.provisioner.releaseAll changed.installed).outcome with
      | ok _ =>
          intro e refused
          cases refused
      | error cause =>
          intro _ _
          exact .inl (announce_told (s := s.modify id fun _ => changed) listened caller _)

-- The store said no to a profile that was in order, and that is told as well.
def UpdateFailed (s : Deployment) (me : Thread) (p : Profile) (t : Deployment) : Prop :=
  s.prepareReplacement me p = .ok () ∧ ∃ e written, s.storeReplacement p = (.error e, written) ∧
    Alike { s with store := written } t

theorem updateProfile_refused {p : Profile} (refused : (s.updateProfile me p caller).1 = .error e) :
    (s.updateProfile me p caller).2 = s ∨ s.UpdateFailed me p (s.updateProfile me p caller).2 := by
  unfold updateProfile at refused ⊢
  cases active : s.containerService.check with
  | error cause => exact .inl rfl
  | ok _ =>
      rw [active] at refused
      dsimp only at refused ⊢
      unfold replaceProfile at refused ⊢
      cases prepared : s.prepareReplacement me p with
      | error cause => exact .inl rfl
      | ok _ =>
          rw [prepared] at refused
          dsimp only at refused ⊢
          rcases stored : s.storeReplacement p with ⟨outcome, written⟩
          rw [stored] at refused
          cases outcome with
          | error cause =>
              exact .inr ⟨prepared, cause, written, stored, announceProfile_alike _ none _⟩
          | ok _ => cases refused

theorem perform_refused (listened : s.Listened) {op : Operation} (onContainers : op.OnContainers)
    (refused : (s.perform me caller op).1 = .error e) :
    (s.perform me caller op).2.Told ∨ (s.perform me caller op).2 = s ∨
      ∃ p, op = .updateProfile p ∧ s.UpdateFailed me p (s.perform me caller op).2 := by
  have acted : ∀ {α : Type} (answer : α → Reply) {out : Outcome α}, s.Unmoved out →
      (acting answer out).1 = .error e → (acting answer out).2.Told ∨ (acting answer out).2 = s := by
    intro α answer out unmoved failed
    obtain ⟨outcome, t⟩ := out
    cases outcome with
    | error cause => exact unmoved cause rfl
    | ok a => cases failed
  have early : (s.perform me caller op).2.Told ∨ (s.perform me caller op).2 = s →
      (s.perform me caller op).2.Told ∨ (s.perform me caller op).2 = s ∨
        ∃ p, op = .updateProfile p ∧ s.UpdateFailed me p (s.perform me caller op).2 :=
    fun either => either.imp_right .inl
  cases op with
  | create r => exact early (acted _ (s.settle_unmoved _) refused)
  | startContainer id => exact early (acted _ ((s.startContainer_assigns me id caller).unmoved listened) refused)
  | stopContainer id => exact early (acted _ (s.settle_unmoved _) refused)
  | destroy id => exact early (acted _ (destroy_unmoved listened id) refused)
  | assignVersion id v => exact early (acted _ ((s.assignVersion_assigns me id v caller).unmoved listened) refused)
  | addProfiles id ids => exact early (acted _ ((s.addProfiles_assigns me id ids caller).unmoved listened) refused)
  | removeProfiles id ids => exact early (acted _ ((s.removeProfiles_assigns me id ids caller).unmoved listened) refused)
  | addEndpoint id endpoint => exact early (acted _ (s.settle_unmoved _) refused)
  | setAttribute id key value => exact early (acted _ (s.settle_unmoved _) refused)
  | updateProfile p =>
      right
      have failed : ∃ cause, (s.updateProfile me p caller).1 = .error cause := by
        cases outcome : (s.updateProfile me p caller).1 with
        | error cause => exact ⟨cause, rfl⟩
        | ok q =>
            simp only [perform, acting, outcome] at refused
            cases refused
      obtain ⟨cause, failed⟩ := failed
      rcases updateProfile_refused failed with same | failed
      · exact .inl same
      · exact .inr ⟨p, rfl, failed⟩
  | _ => exact onContainers.elim

end Deployment
end ContainerProfiles
