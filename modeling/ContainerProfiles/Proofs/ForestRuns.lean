import ContainerProfiles.Proofs.Forest

namespace ContainerProfiles

-- Every operation leaves a forest of containers, so every run does. What has descendants is never destroyed, and
-- what is created, also again after it was destroyed, has no children yet.

open Relation

namespace Deployment

variable {s : Deployment} {me : Thread} {caller : Option String}

theorem Reassigned.place {c : Container} (reassigned : Reassigned s me c changed) :
    changed.place = c.place := by
  cases reassigned <;> rfl

theorem place_retouched {c changed : Container} (retouched : c.Retouched changed) : changed.place = c.place := by
  cases retouched <;> rfl

theorem modify_forest (forest : s.containers.Forest) {id : ContainerId} {c changed : Container}
    (live : s.containers.live.get? id = some c) (place : changed.place = c.place) :
    (s.modify id (fun _ => changed)).containers.Forest := by
  refine forest.same (ContainerRegistry.samePlaces_modify fun d found => ?_)
  cases live.symm.trans found
  exact place

theorem finishPass_forest (forest : s.containers.Forest) (id : ContainerId) (pass : Pass) :
    (s.finishPass id pass).containers.Forest :=
  forest.same (ContainerRegistry.samePlaces_modify fun _ _ => rfl)

theorem provision_forest (forest : s.containers.Forest) (me : Thread) (caller : Option String)
    (id : ContainerId) : (s.provision me caller id).2.containers.Forest := by
  refine s.provision_elim me caller (P := fun out => out.2.containers.Forest) id ?_ ?_ ?_
  · exact fun _ => forest
  · exact fun _ _ _ _ _ _ _ => forest
  · intro c _ merged _ _ _ _
    rw [reconcile_containers]
    exact forest.same (ContainerRegistry.samePlaces_modify fun _ _ => rfl)

theorem Reassigned.forest {c : Container} (reassigned : Reassigned s me c changed)
    (forest : s.containers.Forest) {id : ContainerId} (live : s.containers.live.get? id = some c) :
    (s.changeAndProvision me caller changed).2.containers.Forest := by
  have own : changed.identity = id := reassigned.unmoved.1.trans (forest.keyed id c live)
  rw [changeAndProvision_snd]
  rw [← own] at live
  exact provision_forest (modify_forest forest live reassigned.place) me caller _

theorem Assigns.forest {id : ContainerId} {out : Outcome Container} (assigns : s.Assigns me caller id out)
    (forest : s.containers.Forest) : out.2.containers.Forest := by
  cases assigns with
  | refused e => exact forest
  | settled c => exact forest
  | assigned live reassigned => exact reassigned.forest forest live

theorem Touches.forest {id : ContainerId} {out : Outcome Container}
    (touches : s.Touches id Container.Retouched out) (forest : s.containers.Forest) :
    out.2.containers.Forest := by
  cases touches with
  | refused e => exact forest
  | touched live retouched => exact modify_forest forest live (place_retouched retouched)

theorem replaceProfile_containers (s : Deployment) (me : Thread) (p : Profile) (caller : Option String) :
    (s.replaceProfile me p caller).2.containers = s.containers := by
  unfold replaceProfile
  cases s.prepareReplacement me p with
  | error e => rfl
  | ok _ =>
      rcases s.storeReplacement p with ⟨outcome, store⟩
      cases outcome <;> rfl

theorem updateProfile_forest (forest : s.containers.Forest) (me : Thread) (p : Profile)
    (caller : Option String) : (s.updateProfile me p caller).2.containers.Forest := by
  have exchanged := s.replaceProfile_containers me p none
  unfold updateProfile
  cases s.containerService.check with
  | error e => exact forest
  | ok _ =>
      rcases replaced : s.replaceProfile me p none with ⟨outcome, t⟩
      rw [replaced] at exchanged
      have still : t.containers.Forest := exchanged ▸ forest
      cases outcome with
      | error e => exact still
      | ok updated =>
          exact reprovisions_keep (P := fun t => t.containers.Forest) still
            (fun _ id holds => provision_forest holds me caller id) _ _

theorem addVersion_containers (s : Deployment) (me : Thread) (listed : ProfileVersion)
    (profiles : List Profile) : (s.addVersion me listed profiles).2.containers = s.containers := by
  obtain ⟨_, same, _⟩ := s.addVersion_change me listed profiles
  rw [same]

theorem removeVersion_containers (s : Deployment) (me : Thread) (v : Version) :
    (s.removeVersion me v).2.containers = s.containers := by
  obtain ⟨_, same, _⟩ := s.removeVersion_change me v
  rw [same]

theorem addProfile_containers (s : Deployment) (me : Thread) (p : Profile) :
    (s.addProfile me p).2.containers = s.containers := by
  obtain ⟨_, same, _⟩ := s.addProfile_change me p
  rw [same]

theorem removeProfile_containers (s : Deployment) (me : Thread) (v : Version) (id : ProfileId) :
    (s.removeProfile me v id).2.containers = s.containers := by
  obtain ⟨_, same, _⟩ := s.removeProfile_change me v id
  rw [same]

theorem create_planted {r : ContainerRequest} {c : Container} {t : Deployment}
    (created : s.create me r = (.ok c, t)) :
    s.containers.live.get? c.identity = none ∧ c.identity = r.identity ∧ c.children = ∅ ∧
      (∀ p, c.parent = some p → ∃ d, s.containers.live.get? p = some d) ∧
      t.containers = s.containers.planted c := by
  rw [create_eq] at created
  cases checked : s.checkRequest me r with
  | error e =>
      rw [checked] at created
      cases created
  | ok _ =>
      rw [checked] at created
      cases created
      obtain ⟨absent, attached, _⟩ := checkRequest_ok checked
      exact ⟨absent, rfl, rfl, attached, rfl⟩

theorem create_forest (forest : s.containers.Forest) (me : Thread) (r : ContainerRequest) :
    (s.create me r).2.containers.Forest := by
  rw [create_eq]
  cases checked : s.checkRequest me r with
  | error e => exact forest
  | ok _ =>
      obtain ⟨absent, attached, _⟩ := checkRequest_ok checked
      exact forest.plant (c := s.newContainer r) absent rfl attached

theorem prepareDestruction_childless {id : ContainerId} {c : Container}
    (live : s.containers.live.get? id = some c) (prepared : s.prepareDestruction me id = .ok changed) :
    c.children = ∅ := by
  simp only [prepareDestruction, bind_eq_ok, getFor_eq_ok] at prepared
  obtain ⟨_, _, _, _, d, found, rest⟩ := prepared
  cases live.symm.trans found
  have none : c.children.isEmpty := by
    split at rest
    · simp only [bind_eq_ok, guard_eq_ok] at rest
      obtain ⟨_, _, _, _, _, _, none, _⟩ := rest
      simpa using none
    · simp only [bind_eq_ok, guard_eq_ok] at rest
      obtain ⟨_, _, _, _, none, _⟩ := rest
      simpa using none
  apply Dict.ext_get?
  intro child
  exact Dict.isEmpty_iff.mp none child

theorem destroy_forest (forest : s.containers.Forest) (me : Thread) (id : ContainerId)
    (caller : Option String) : (s.destroy me id caller).2.containers.Forest := by
  unfold destroy
  cases prepared : s.prepareDestruction me id with
  | error e => exact forest
  | ok changed =>
      obtain ⟨c, live, same⟩ := prepareDestruction_ok prepared
      have childless := prepareDestruction_childless live prepared
      have parent : changed.parent = c.parent := by rw [same]; split <;> rfl
      have own : c.identity = id := forest.keyed id c live
      subst own
      dsimp only
      cases (s.provisioner.releaseAll changed.installed).outcome with
      | error e =>
          refine finishPass_forest (s := (s.modify c.identity fun _ => changed).announce caller _) ?_ _ _
          refine modify_forest (s := s) forest live ?_
          rw [same]
          split <;> rfl
      | ok _ =>
          rw [parent]
          -- The pass ends before the container leaves, and changes what is installed on it.
          have passed := finishPass_forest
            (s := s.announce caller { container := c.identity, stage := .removed }) forest c.identity
            (s.provisioner.releaseAll changed.installed)
          refine passed.fell (c := { c with
            installed := (s.provisioner.releaseAll changed.installed).installed }) ?_ childless
          change (s.containers.modify c.identity _).live.get? c.identity = _
          rw [ContainerRegistry.get?_modify, if_pos rfl, live]
          rfl

theorem ensureVersion_forest (forest : s.containers.Forest) (me : Thread) :
    (s.ensureVersion me).2.containers.Forest := by
  unfold ensureVersion
  split
  · exact forest
  · split
    · exact forest
    · refine andThen_keeps (P := fun t => t.containers.Forest) ?_ fun _ _ holds => holds
      rw [addVersion_containers]
      exact forest

theorem ensureProfile_forest (forest : s.containers.Forest) (me : Thread) :
    (s.ensureProfile me).2.containers.Forest := by
  unfold ensureProfile
  split
  · exact forest
  · split
    · exact forest
    · split
      · exact forest
      · refine andThen_keeps (P := fun t => t.containers.Forest) ?_ fun _ _ holds => holds
        rw [addProfile_containers]
        exact forest

theorem ensureContainer_forest (forest : s.containers.Forest) (me : Thread) :
    (s.ensureContainer me).2.containers.Forest := by
  unfold ensureContainer
  refine andThen_keeps (P := fun t => t.containers.Forest) ?_ fun _ t holds => ?_
  · split
    · exact forest
    · exact andThen_keeps (P := fun t => t.containers.Forest) (create_forest forest me _) fun _ _ holds => holds
  · split
    · exact holds
    · split
      · exact holds
      · exact (t.startContainer_assigns me _ none).forest holds

theorem start_forest (forest : s.containers.Forest) (me : Thread) :
    (s.start me).2.containers.Forest := by
  refine andThen_keeps (P := fun t => t.containers.Forest) (ensureVersion_forest (by exact forest) me) fun _ t holds => ?_
  refine andThen_keeps (P := fun t => t.containers.Forest) (ensureProfile_forest holds me) fun _ t holds => ?_
  exact andThen_keeps (P := fun t => t.containers.Forest) (ensureContainer_forest holds me) fun _ _ holds => holds

theorem perform_forest (forest : s.containers.Forest) (me : Thread) (caller : Option String)
    (op : Operation) : (s.perform me caller op).2.containers.Forest := by
  cases op with
  | start => exact start_forest forest me
  | addVersion listed profiles => exact (s.addVersion_containers me listed profiles).symm ▸ forest
  | removeVersion v => exact (s.removeVersion_containers me v).symm ▸ forest
  | addProfile p => exact (s.addProfile_containers me p).symm ▸ forest
  | replaceProfile p => exact (s.replaceProfile_containers me p caller).symm ▸ forest
  | removeProfile v id => exact (s.removeProfile_containers me v id).symm ▸ forest
  | create r => exact create_forest forest me r
  | startContainer id => exact (s.startContainer_assigns me id caller).forest forest
  | stopContainer id => exact (s.stopContainer_touches me id).forest forest
  | destroy id => exact destroy_forest forest me id caller
  | assignVersion id v => exact (s.assignVersion_assigns me id v caller).forest forest
  | addProfiles id ids => exact (s.addProfiles_assigns me id ids caller).forest forest
  | removeProfiles id ids => exact (s.removeProfiles_assigns me id ids caller).forest forest
  | updateProfile p => exact updateProfile_forest forest me p caller
  | addEndpoint id endpoint => exact (s.addEndpoint_touches me id endpoint).retouched.forest forest
  | setAttribute id key value => exact (s.setAttribute_touches me id key value).retouched.forest forest
  | _ => exact forest

theorem turn_forest (forest : s.containers.Forest) (x : Turn) : (s.turn x).containers.Forest := by
  cases x with
  | switch profiles containers => exact forest
  | action a =>
      by_cases operation : ∃ me caller op, a = .perform me caller op
      · obtain ⟨me, caller, op, rfl⟩ := operation
        exact perform_forest forest me caller op
      · have aside := s.act_aside (a := a) fun me caller op same => operation ⟨me, caller, op, same⟩
        exact aside.2.symm ▸ forest

theorem destroy_of_descendant (forest : s.containers.Forest) {id descendant : ContainerId}
    (below : TransGen s.containers.ChildOf descendant id) (me : Thread) (caller : Option String) :
    ∃ e, s.destroy me id caller = (.error e, s) := by
  unfold destroy
  cases prepared : s.prepareDestruction me id with
  | error e => exact ⟨e, rfl⟩
  | ok changed =>
      obtain ⟨c, live, _⟩ := prepareDestruction_ok prepared
      obtain ⟨child, edge⟩ : ∃ child, s.containers.ChildOf child id := by
        cases below with
        | single edge => exact ⟨_, edge⟩
        | tail _ edge => exact ⟨_, edge⟩
      obtain ⟨p, found, listed⟩ := (forest.linked child id).mp edge
      cases live.symm.trans found
      rw [prepareDestruction_childless live prepared] at listed
      cases listed

theorem create_childless (forest : s.containers.Forest) {r : ContainerRequest} {c : Container}
    {t : Deployment} (created : s.create me r = (.ok c, t)) :
    t.containers.live.get? r.identity = some c ∧ c.children = ∅ ∧
      ∀ child, ¬ t.containers.ChildOf child r.identity := by
  obtain ⟨absent, own, childless, attached, planted⟩ := create_planted created
  have there := ContainerRegistry.get?_planted_self absent attached
  rw [← planted] at there
  have grown : t.containers.Forest := planted ▸ forest.plant absent childless attached
  rw [← own]
  exact ⟨there, childless, grown.not_childOf_childless there childless⟩

-- The containers are a forest, and stay one where containers are destroyed and created.
def WellPlanted (s : Deployment) : Prop :=
  s.containers.Forest ∧
  (∀ id descendant, TransGen s.containers.ChildOf descendant id →
    ∀ me caller, ∃ e, s.destroy me id caller = (.error e, s)) ∧
  ∀ me r c t, s.create me r = (.ok c, t) →
    t.containers.live.get? r.identity = some c ∧ c.children = ∅ ∧
      ∀ child, ¬ t.containers.ChildOf child r.identity

theorem turns_wellPlanted (unused : s.containers = {}) (ts : List Turn) :
    (s.turns ts).WellPlanted := by
  have start : s.containers.Forest := unused ▸ ContainerRegistry.forest_empty
  have forest : (s.turns ts).containers.Forest :=
    turns_keep (P := fun t => t.containers.Forest) start fun _ x _ holds => turn_forest holds x
  refine ⟨forest, fun id descendant below me caller => ?_, fun me r c t created => ?_⟩
  · exact destroy_of_descendant forest below me caller
  · exact create_childless forest created

theorem turns_wellPlanted_started :
    ∃ s, build {} (.memory {}) {} {} "" = .ok s ∧ s.containers = {} ∧
      (s.turns [.action (.perform "main" none .start),
        .action (.perform "main" none (.create { identity := "a", parent := some "root" })),
        .action (.perform "main" none (.destroy "a"))]).WellPlanted :=
  ⟨_, rfl, rfl, turns_wellPlanted rfl _⟩

end Deployment
end ContainerProfiles
