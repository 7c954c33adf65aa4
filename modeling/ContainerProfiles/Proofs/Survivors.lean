import ContainerProfiles.Proofs.EventProtocol
import ContainerProfiles.Proofs.Locality

namespace ContainerProfiles

-- What becomes of the live containers while anything is asked of a deployment.

-- What may end the run of a container.
def Operation.Halts : Operation → ContainerId → Prop
  | .stopContainer id, other | .destroy id, other => other = id
  | _, _ => False

def Turn.Halts : Turn → ContainerId → Prop
  | .action (.perform _ _ op), id => op.Halts id
  | _, _ => False

theorem Turn.halts_cases {x : Turn} {id : ContainerId} (halts : x.Halts id) :
    ∃ me caller, x = .action (.perform me caller (.stopContainer id)) ∨
      x = .action (.perform me caller (.destroy id)) := by
  cases x with
  | switch profiles containers => exact halts.elim
  | action a =>
      cases a with
      | perform me caller op =>
          refine ⟨me, caller, ?_⟩
          cases op with
          | stopContainer other =>
              cases halts
              exact .inl rfl
          | destroy other =>
              cases halts
              exact .inr rfl
          | _ => exact halts.elim
      | _ => exact halts.elim

namespace ContainerRegistry

-- From `r` to `q` nothing is destroyed, and of what runs only the halted ones stop.
structure Survives (halted : ContainerId → Prop) (r q : ContainerRegistry) : Prop where
  live : ∀ id c, r.live.get? id = some c →
    ∃ d, q.live.get? id = some d ∧ (¬ halted id → c.state = .started → d.state = .started)
  alive : ∀ id d, q.live.get? id = some d → d.state = .destroyed →
    ∃ c, r.live.get? id = some c ∧ c.state = .destroyed
  gone : ∀ id, q.isDestroyed id → r.isDestroyed id
  known : ∀ id, r.isDestroyed id → q.isDestroyed id ∨ q.contains id

variable {halted : ContainerId → Prop} {r q p : ContainerRegistry}

theorem Survives.refl (r : ContainerRegistry) : Survives halted r r :=
  ⟨fun _ c live => ⟨c, live, fun _ running => running⟩, fun _ d live state => ⟨d, live, state⟩,
    fun _ gone => gone, fun _ gone => .inl gone⟩

theorem Survives.contains (survives : Survives halted r q) {id : ContainerId} (present : r.contains id) :
    q.contains id := by
  obtain ⟨c, live⟩ := Dict.contains_iff.mp present
  obtain ⟨d, after, _⟩ := survives.live id c live
  exact Dict.contains_iff.mpr ⟨d, after⟩

theorem Survives.trans (one : Survives halted r q) (two : Survives halted q p) : Survives halted r p where
  live := fun id c live => by
    obtain ⟨d, between, runs⟩ := one.live id c live
    obtain ⟨e, after, goesOn⟩ := two.live id d between
    exact ⟨e, after, fun free running => goesOn free (runs free running)⟩
  alive := fun id d live state => by
    obtain ⟨c, between, state⟩ := two.alive id d live state
    exact one.alive id c between state
  gone := fun id gone => one.gone id (two.gone id gone)
  known := fun id gone => (one.known id gone).elim (two.known id) fun present => .inr (two.contains present)

theorem Survives.weaken {wider : ContainerId → Prop} (survives : Survives halted r q)
    (implied : ∀ id, halted id → wider id) : Survives wider r q where
  live := fun id c live => by
    obtain ⟨d, after, runs⟩ := survives.live id c live
    exact ⟨d, after, fun free => runs fun same => free (implied id same)⟩
  alive := survives.alive
  gone := survives.gone
  known := survives.known

-- One container is changed.
theorem survives_modify {id : ContainerId} {change : Container → Container}
    (runs : ∀ c, r.live.get? id = some c → ¬ halted id → c.state = .started → (change c).state = .started)
    (dead : ∀ c, r.live.get? id = some c → (change c).state = .destroyed → c.state = .destroyed) :
    Survives halted r (r.modify id change) := by
  have destroyed := r.modify_destroyed id change
  refine ⟨fun other c live => ?_, fun other d live state => ?_, fun other gone => ?_, fun other gone => ?_⟩
  · rw [get?_modify]
    by_cases here : other = id
    · subst here
      exact ⟨change c, by rw [if_pos rfl, live]; rfl, runs c live⟩
    · exact ⟨c, by rw [if_neg here, live], fun _ running => running⟩
  · rw [get?_modify] at live
    by_cases here : other = id
    · subst here
      rw [if_pos rfl] at live
      obtain ⟨c, before, rfl⟩ := Option.map_eq_some_iff.mp live
      exact ⟨c, before, dead c before state⟩
    · rw [if_neg here] at live
      exact ⟨d, live, state⟩
  · unfold isDestroyed at gone ⊢
    rw [← destroyed]
    exact gone
  · unfold isDestroyed at gone ⊢
    rw [destroyed]
    exact .inl gone

-- One container joins.
theorem survives_planted {c : Container} (absent : r.live.get? c.identity = none)
    (attached : ∀ p, c.parent = some p → ∃ d, r.live.get? p = some d) (state : c.state = .created) :
    Survives halted r (r.planted c) := by
  have joined := get?_planted_self absent attached
  refine ⟨fun id d live => ?_, fun id d live dead => ?_, fun id gone => ?_, fun id gone => ?_⟩
  · have other : id ≠ c.identity := by
      rintro rfl
      cases absent.symm.trans live
    rw [get?_planted_other other, live]
    exact ⟨_, rfl, fun _ running => running⟩
  · by_cases new : id = c.identity
    · subst new
      cases joined.symm.trans live
      cases state.symm.trans dead
    · rw [get?_planted_other new] at live
      obtain ⟨old, before, rfl⟩ := Option.map_eq_some_iff.mp live
      exact ⟨old, before, dead⟩
  · unfold isDestroyed at gone ⊢
    rw [planted_destroyed] at gone
    exact (Dict.contains_erase.mp gone).2
  · by_cases new : id = c.identity
    · exact .inr (Dict.contains_iff.mpr ⟨c, new ▸ joined⟩)
    · unfold isDestroyed at gone ⊢
      rw [planted_destroyed]
      exact .inl (Dict.contains_erase.mpr ⟨new, gone⟩)

end ContainerRegistry

open ContainerRegistry (Survives survives_modify survives_planted)

namespace Deployment

variable {s t : Deployment} {me : Thread} {caller : Option String} {halted : ContainerId → Prop}

-- The containers survive, and which one is the current one stays.
structure Carries (halted : ContainerId → Prop) (s t : Deployment) : Prop where
  current : t.current = s.current
  settings : t.settings = s.settings
  containers : Survives halted s.containers t.containers

theorem Carries.same (current : t.current = s.current) (settings : t.settings = s.settings)
    (containers : t.containers = s.containers) : Carries halted s t :=
  ⟨current, settings, containers ▸ .refl _⟩

theorem Carries.refl (s : Deployment) : Carries halted s s := .same rfl rfl rfl

theorem Carries.trans {u : Deployment} (one : Carries halted s t) (two : Carries halted t u) : Carries halted s u :=
  ⟨two.current.trans one.current, two.settings.trans one.settings, one.containers.trans two.containers⟩

theorem Carries.weaken {wider : ContainerId → Prop} (carries : Carries halted s t)
    (implied : ∀ id, halted id → wider id) : Carries wider s t :=
  ⟨carries.current, carries.settings, carries.containers.weaken implied⟩

theorem provision_carries (s : Deployment) (me : Thread) (caller : Option String) (id : ContainerId) :
    Carries halted s (s.provision me caller id).2 := by
  refine s.provision_elim me caller (P := fun out => Carries halted s out.2) id ?_ ?_ ?_
  · exact fun _ => .refl s
  · exact fun _ _ _ _ _ _ _ => .same rfl rfl rfl
  · intro c _ merged _ _ _ _
    have beside := s.reconcile_beside caller c merged
    refine ⟨beside.same (·.current) fun _ _ _ _ => rfl, beside.fixed.settings, ?_⟩
    rw [reconcile_containers]
    exact survives_modify (fun _ _ _ running => running) fun _ _ dead => dead

theorem Reassigned.running {c changed : Container} (reassigned : Reassigned s me c changed)
    (running : c.state = .started) : changed.state = .started := by
  cases reassigned with
  | started => rfl
  | _ => exact running

theorem Reassigned.alive {c changed : Container} (reassigned : Reassigned s me c changed)
    (dead : changed.state = .destroyed) : c.state = .destroyed := by
  cases reassigned with
  | started => cases dead
  | _ => exact dead

theorem Reassigned.carries (forest : s.containers.Forest) {id : ContainerId} {c changed : Container}
    (reassigned : Reassigned s me c changed) (live : s.containers.live.get? id = some c) (caller : Option String) :
    Carries halted s (s.changeAndProvision me caller changed).2 := by
  have own : changed.identity = id := reassigned.unmoved.1.trans (forest.keyed id c live)
  rw [changeAndProvision_snd]
  refine Carries.trans (t := s.modify changed.identity fun _ => changed) ⟨rfl, rfl, ?_⟩
    (provision_carries _ me caller _)
  refine survives_modify (fun d found _ running => ?_) fun d found dead => ?_
  · cases (own ▸ live).symm.trans found
    exact reassigned.running running
  · cases (own ▸ live).symm.trans found
    exact reassigned.alive dead

theorem Assigns.carries {id : ContainerId} {out : Outcome Container} (assigns : s.Assigns me caller id out)
    (forest : s.containers.Forest) : Carries halted s out.2 := by
  cases assigns with
  | refused e => exact .refl s
  | settled c => exact .refl s
  | assigned live reassigned => exact reassigned.carries forest live caller

-- What others read of a container has no part in its life.
theorem Touches.carries {id : ContainerId} {out : Outcome Container}
    (touches : s.Touches id Container.Dressed out) : Carries halted s out.2 := by
  cases touches with
  | refused e => exact .refl s
  | touched live dressed =>
      obtain ⟨_, _, rfl⟩ := dressed
      refine ⟨rfl, rfl, survives_modify (fun d found _ running => ?_) fun d found dead => ?_⟩
      · cases live.symm.trans found
        exact running
      · cases live.symm.trans found
        exact dead

theorem create_carries (s : Deployment) (me : Thread) (r : ContainerRequest) :
    Carries halted s (s.create me r).2 := by
  rw [create_eq]
  cases checked : s.checkRequest me r with
  | error e => exact .refl s
  | ok _ =>
      obtain ⟨absent, attached, _⟩ := checkRequest_ok checked
      exact ⟨rfl, rfl, survives_planted (c := s.newContainer r) absent attached rfl⟩

theorem Carries.written (written : ∃ store, t = { s with store } ∧ s.StoreChange store) : Carries halted s t := by
  obtain ⟨_, rfl, _⟩ := written
  exact .same rfl rfl rfl

theorem replaceProfile_carries (s : Deployment) (me : Thread) (p : Profile) (caller : Option String) :
    Carries halted s (s.replaceProfile me p caller).2 := by
  unfold replaceProfile
  cases s.prepareReplacement me p with
  | error e => exact .refl s
  | ok _ =>
      rcases s.storeReplacement p with ⟨outcome, store⟩
      cases outcome <;> exact .same rfl rfl rfl

theorem updateProfile_carries (s : Deployment) (me : Thread) (p : Profile) (caller : Option String) :
    Carries halted s (s.updateProfile me p caller).2 := by
  have exchanged : Carries halted s (s.replaceProfile me p none).2 := s.replaceProfile_carries me p none
  unfold updateProfile
  cases s.containerService.check with
  | error e => exact .refl s
  | ok _ =>
      rcases replaced : s.replaceProfile me p none with ⟨outcome, t⟩
      rw [replaced] at exchanged
      cases outcome with
      | error e => exact exchanged
      | ok updated =>
          exact reprovisions_keep (P := fun t => Carries halted s t) exchanged
            (fun t id holds => holds.trans (t.provision_carries me caller id)) _ _

theorem Touches.carries_others {id : ContainerId} {out : Outcome Container}
    (touches : s.Touches id Container.Retouched out) : Carries (· = id) s out.2 := by
  cases touches with
  | refused e => exact .refl s
  | touched live retouched =>
      refine ⟨rfl, rfl, survives_modify (fun _ _ free => absurd rfl free) fun d found dead => ?_⟩
      cases live.symm.trans found
      cases retouched with
      | dressed => exact dead
      | stopped _ => cases dead

-- The ways an attempt to destroy a container comes out.
theorem destroy_cases (s : Deployment) (me : Thread) (id : ContainerId) (caller : Option String) :
    (∃ e, (s.destroy me id caller).1 = .error e ∧ Carries (· = id) s (s.destroy me id caller).2) ∨
      ∃ c changed left, s.containers.live.get? id = some c ∧
        s.destroy me id caller = (.ok left, s.removed caller changed id) := by
  unfold destroy
  cases prepared : s.prepareDestruction me id with
  | error e => exact .inl ⟨e, rfl, .refl s⟩
  | ok changed =>
      obtain ⟨c, live, same⟩ := prepareDestruction_ok prepared
      dsimp only
      cases (s.provisioner.releaseAll changed.installed).outcome with
      | ok _ => exact .inr ⟨c, changed, _, live, rfl⟩
      | error e =>
          refine .inl ⟨_, rfl, rfl, rfl, ?_⟩
          refine .trans (q := s.containers.modify id fun _ => changed) ?_ ?_
          · refine survives_modify (fun _ _ free => absurd rfl free) fun d found dead => ?_
            cases live.symm.trans found
            subst same
            split at dead
            · cases dead
            · exact dead
          · exact survives_modify (fun _ _ free => absurd rfl free) fun _ _ dead => dead

theorem andThen_eq_ok {first : Outcome α} {second : α → Deployment → Outcome β} {y : β} :
    andThen first second = (.ok y, t) ↔ ∃ x u, first = (.ok x, u) ∧ second x u = (.ok y, t) := by
  obtain ⟨outcome, u⟩ := first
  cases outcome with
  | error e => simp [andThen]
  | ok x => exact ⟨fun done => ⟨x, u, rfl, done⟩, fun ⟨_, _, same, done⟩ => by cases same; exact done⟩

-- What is created where it was missing joins a forest.
theorem ensureCreated_kept (forest : s.containers.Forest) (me : Thread) {first : Outcome Unit}
    (creation : first = if s.containers.contains s.settings.currentContainer then (.ok (), s)
      else andThen (s.create me s.currentRequest) fun _ t => (.ok (), t)) :
    Carries halted s first.2 ∧ first.2.containers.Forest := by
  rw [creation]
  split
  · exact ⟨.refl s, forest⟩
  · exact andThen_keeps (P := fun t => Carries halted s t ∧ t.containers.Forest)
      ⟨s.create_carries me _, create_forest forest me _⟩ fun _ _ holds => holds

theorem ensureContainer_carries (forest : s.containers.Forest) (me : Thread) :
    Carries halted s (s.ensureContainer me).2 := by
  refine andThen_keeps (P := fun t => Carries halted s t ∧ t.containers.Forest) ?_ ?_ |>.1
  · exact ensureCreated_kept forest me rfl
  · intro _ t holds
    obtain ⟨carries, forest⟩ := holds
    split
    · exact ⟨carries, forest⟩
    · split
      · exact ⟨carries, forest⟩
      · have starts := t.startContainer_assigns me s.settings.currentContainer none
        exact ⟨carries.trans (starts.carries forest), starts.forest forest⟩

-- The pass that follows a change leaves the container there and its state alone.
theorem changeAndProvision_there {changed : Container} (there : s.containers.contains changed.identity) (me : Thread)
    (caller : Option String) :
    ∃ d, (s.changeAndProvision me caller changed).2.containers.live.get? changed.identity = some d ∧
      (changed.state = .started → d.state = .started) := by
  obtain ⟨before, live⟩ := Dict.contains_iff.mp there
  have modified := modify_there live
  have passed : Carries (fun _ => False) (s.modify changed.identity fun _ => changed)
      (s.changeAndProvision me caller changed).2 := by
    rw [changeAndProvision_snd]
    exact provision_carries _ me caller _
  obtain ⟨d, after, runs⟩ := passed.containers.live _ _ modified
  exact ⟨d, after, runs id⟩

theorem changeAndProvision_started {c changed : Container} (there : s.containers.contains changed.identity)
    (running : changed.state = .started) (changes : s.changeAndProvision me caller changed = (.ok c, t)) :
    t.containers.live.get? changed.identity = some c ∧ c.state = .started := by
  obtain ⟨d, after, runs⟩ := changeAndProvision_there there me caller
  rw [changes] at after
  have got : t.containers.live.get? changed.identity = some c := by
    unfold changeAndProvision at changes
    split at changes
    · cases changes
    · obtain ⟨got, rfl⟩ := Prod.mk.inj changes
      exact get_eq_ok.mp got
  cases after.symm.trans got
  exact ⟨got, runs running⟩

theorem startContainer_started (forest : s.containers.Forest) {id : ContainerId} {c : Container}
    (starts : s.startContainer me id caller = (.ok c, t)) :
    t.containers.live.get? id = some c ∧ c.state = .started := by
  unfold startContainer at starts
  cases prepared : s.prepareStart me id with
  | error e =>
      rw [prepared] at starts
      cases starts
  | ok changed =>
      rw [prepared] at starts
      simp only [prepareStart, bind_eq_ok, pure_eq_ok] at prepared
      obtain ⟨_, _, before, found, _, _, _, _, same⟩ := prepared
      have live := forChange_live found
      have own : changed.identity = id := same ▸ forest.keyed id before live
      have running : changed.state = .started := same ▸ rfl
      have ended := changeAndProvision_started (Dict.contains_iff.mpr ⟨before, own ▸ live⟩) running starts
      rw [own] at ended
      exact ended

-- The container that is answered with runs.
theorem ensureContainer_started (forest : s.containers.Forest) {c : Container}
    (ensured : s.ensureContainer me = (.ok c, t)) :
    t.containers.live.get? s.settings.currentContainer = some c ∧ c.state = .started := by
  obtain ⟨_, u, created, after⟩ := andThen_eq_ok.mp ensured
  have grown : Carries (fun _ => False) s u ∧ u.containers.Forest := ensureCreated_kept forest me created.symm
  split at after
  · cases after
  · rename_i d got
    split at after
    · rename_i running
      cases after
      simp only [getContainer, bind_eq_ok, get_eq_ok] at got
      obtain ⟨_, _, _, _, live⟩ := got
      exact ⟨live, by simpa [Container.isStarted] using running⟩
    · exact startContainer_started grown.2 after

-- A start that fails leaves the current container; one that succeeds makes it the one of the settings.
theorem start_cases (forest : s.containers.Forest) (me : Thread) :
    (∃ e, (s.start me).1 = .error e ∧ Carries halted s (s.start me).2) ∨
      ∃ c t, s.start me = (.ok c, { t with current := some s.settings.currentContainer }) ∧
        Carries halted s t ∧ t.containers.live.get? s.settings.currentContainer = some c ∧ c.state = .started := by
  obtain ⟨store, ends⟩ := s.start_filled me
  have begun : Carries halted s (s.opened store) := .same rfl rfl rfl
  rcases ends with ⟨e, failed⟩ | goes
  · rw [failed]
    exact .inl ⟨e, rfl, begun⟩
  · rw [goes]
    have ensured : Carries halted s ((s.opened store).ensureContainer me).2 :=
      begun.trans (ensureContainer_carries (by exact forest) me)
    rcases ends : (s.opened store).ensureContainer me with ⟨outcome, t⟩
    rw [ends] at ensured
    cases outcome with
    | error e => exact .inl ⟨e, rfl, ensured⟩
    | ok c =>
        obtain ⟨live, running⟩ := ensureContainer_started (by exact forest) ends
        refine .inr ⟨c, t, ?_, ensured, live, running⟩
        change (Except.ok c, { t with current := some t.settings.currentContainer }) = _
        rw [ensured.settings]

-- Whatever neither opens the deployment nor ends the life of a container carries all of them on.
theorem perform_carries (forest : s.containers.Forest) (me : Thread) (caller : Option String) {op : Operation}
    (opens : op ≠ .start) (gentle : ∀ id, ¬ op.Halts id) : Carries halted s (s.perform me caller op).2 := by
  cases op with
  | start => exact absurd rfl opens
  | stopContainer id => exact absurd rfl (gentle id)
  | destroy id => exact absurd rfl (gentle id)
  | addVersion listed profiles => exact .written (s.addVersion_change me listed profiles)
  | removeVersion v => exact .written (s.removeVersion_change me v)
  | addProfile p => exact .written (s.addProfile_change me p)
  | replaceProfile p => exact s.replaceProfile_carries me p caller
  | removeProfile v id => exact .written (s.removeProfile_change me v id)
  | create r => exact s.create_carries me r
  | startContainer id => exact (s.startContainer_assigns me id caller).carries forest
  | assignVersion id v => exact (s.assignVersion_assigns me id v caller).carries forest
  | addProfiles id ids => exact (s.addProfiles_assigns me id ids caller).carries forest
  | removeProfiles id ids => exact (s.removeProfiles_assigns me id ids caller).carries forest
  | updateProfile p => exact s.updateProfile_carries me p caller
  | addEndpoint id endpoint => exact (s.addEndpoint_touches me id endpoint).carries
  | setAttribute id key value => exact (s.setAttribute_touches me id key value).carries
  | stop => exact .same rfl rfl rfl
  | _ => exact .refl s

-- What happens around a deployment.
theorem aside_carries (s : Deployment) {x : Turn}
    (aside : ∀ me caller op, x ≠ .action (.perform me caller op)) : Carries halted s (s.turn x) := by
  cases x with
  | switch profiles containers => exact .same rfl rfl rfl
  | action a =>
      cases a with
      | perform me caller op => exact absurd rfl (aside me caller op)
      | lockContainer me id mode =>
          obtain ⟨locks, same⟩ := s.lockContainer_eq me id mode
          have aside : s.turn (.action (.lockContainer me id mode)) = { s with locks } := same
          rw [aside]
          exact .same rfl rfl rfl
      | lockVersion me v mode =>
          obtain ⟨locks, same⟩ := s.lockVersion_eq me v mode
          have aside : s.turn (.action (.lockVersion me v mode)) = { s with locks } := same
          rw [aside]
          exact .same rfl rfl rfl
      | _ => exact .same rfl rfl rfl

-- The ways a turn can go: the containers are carried on, or the deployment is started, or a container leaves.
inductive Course (s : Deployment) : Turn → Deployment → Prop
  | onward {x : Turn} {t : Deployment} : Carries x.Halts s t → Course s x t
  | started {me : Thread} {caller : Option String} {t : Deployment} : (s.start me).1 = .ok c →
      Carries (fun _ => False) s t → t.containers.live.get? s.settings.currentContainer = some c → c.state = .started →
      Course s (.action (.perform me caller .start)) { t with current := some s.settings.currentContainer }
  | destroyed {me : Thread} {caller : Option String} {id : ContainerId} : s.containers.live.get? id = some c →
      s.destroy me id caller = (.ok left, s.removed caller changed id) →
      Course s (.action (.perform me caller (.destroy id))) (s.removed caller changed id)

theorem turn_course (forest : s.containers.Forest) (x : Turn) : Course s x (s.turn x) := by
  by_cases harsh : ∃ id, x.Halts id
  · obtain ⟨id, halts⟩ := harsh
    obtain ⟨me, caller, rfl | rfl⟩ := Turn.halts_cases halts
    · exact .onward (s.stopContainer_touches me id).carries_others
    · change Course s _ (s.destroy me id caller).2
      rcases s.destroy_cases me id caller with ⟨_, _, carries⟩ | ⟨c, changed, left, live, destroyed⟩
      · exact .onward carries
      · rw [destroyed]
        exact .destroyed live destroyed
  by_cases operation : ∃ me caller op, x = .action (.perform me caller op)
  · obtain ⟨me, caller, op, rfl⟩ := operation
    by_cases opens : op = .start
    · subst opens
      change Course s _ (s.start me).2
      rcases @start_cases s (fun _ => False) forest me with ⟨_, _, carries⟩ | ⟨c, t, ended, carries, live, running⟩
      · exact .onward (carries.weaken fun _ => False.elim)
      · rw [ended]
        exact .started (congrArg Prod.fst ended) carries live running
    · exact .onward (perform_carries forest me caller opens fun id halts => harsh ⟨id, halts⟩)
  · exact .onward (s.aside_carries fun me caller op same => operation ⟨me, caller, op, same⟩)

theorem Course.settings {x : Turn} {t : Deployment} (course : Course s x t) : t.settings = s.settings := by
  cases course with
  | onward carries => exact carries.settings
  | started _ carries => exact carries.settings
  | destroyed => rfl

end Deployment
end ContainerProfiles
