import ContainerProfiles.Proofs.Conservation
import ContainerProfiles.Proofs.MoreRoots

namespace ContainerProfiles

-- A run taken apart into steps of one kind each, with the passes among them.

structure LastPass where
  effective : Profile
  before : List Installed
  offer : Environment
  succeeded : Prop

namespace Deployment

-- Containers and accounts stay. What the repository offers and what is refused are no part of them.
structure Aside (s t : Deployment) : Prop where
  containers : t.containers = s.containers
  provisioner : ∃ offered failing refusals, t.provisioner = { s.provisioner with
    repository := { s.provisioner.repository with environment := offered, failing }, refusals }

def Passed (last : ContainerId → Option LastPass) (id : ContainerId) (pass : Option LastPass) :
    ContainerId → Option LastPass := fun other => if other = id then pass else last other

-- After a removal or a destruction that was broken off no pass is known.
inductive History (s : Deployment) : Deployment → (ContainerId → Option LastPass) → Prop
  | start : History s s fun _ => none
  | aside : History s t last → Aside t u → History s u last
  | dressed (id : ContainerId) {change : Container → Container} : History s t last →
      (∀ c, t.containers.live.get? id = some c →
        (change c).identity = c.identity ∧ (change c).installed = c.installed) →
      History s (t.modify id change) last
  | joined (destroyed : KeySet ContainerId) : History s t last → t.containers.live.get? c.identity = none →
      c.installed = [] →
      History s { t with containers := { live := t.containers.live.insert c.identity c, destroyed } }
        (Passed last c.identity none)
  | cleared {id : ContainerId} : History s t last → t.containers.live.get? id = some c →
      History s (t.finishPass id (t.provisioner.releaseAll c.installed)) (Passed last id none)
  | left {id : ContainerId} : History s t last → t.containers.live.get? id = some c → c.installed = [] →
      History s { t with containers := t.containers.remove id } (Passed last id none)
  | passed (caller : Option String) (effective : Profile) : History s t last →
      t.containers.live.get? c.identity = some c →
      History s (t.reconcile caller c effective).2 (Passed last c.identity (some {
        effective, before := c.installed, offer := t.provisioner.repository.environment
        succeeded := (t.passOf c effective).outcome = .ok () }))

variable {s t u : Deployment} {last : ContainerId → Option LastPass}

theorem Aside.refl_of (containers : t.containers = s.containers) (provisioner : t.provisioner = s.provisioner) :
    Aside s t :=
  ⟨containers, _, _, _, provisioner⟩

theorem Aside.ledger (aside : Aside s t) (ledger : s.forgiving.Ledger) : t.forgiving.Ledger := by
  obtain ⟨containers, offered, failing, refusals, provisioner⟩ := aside
  exact (Ledger.reoffer ledger offered failing refusals).frame (congrArg Provisioner.forgiving provisioner) containers

namespace History

theorem ledger (history : s.History t last) (ledger : s.forgiving.Ledger) : t.forgiving.Ledger := by
  induction history with
  | start => exact ledger
  | aside _ aside ih => exact aside.ledger ih
  | dressed id _ kept ih => exact Ledger.retouch (s := Deployment.forgiving _) ih id kept
  | joined destroyed _ absent bare ih => exact Ledger.join (s := Deployment.forgiving _) ih absent rfl bare destroyed
  | @cleared t last c id _ live ih =>
      have balanced := Provisioner.releaseUnwanted_forgiving (fun _ => false) (ih.split live)
      have distinct := t.provisioner.releaseAll_nodup (ih.once id c live)
      have finished : (t.forgiving.finishPass id (t.provisioner.releaseAll c.installed).forgiving).Ledger :=
        ih.finishPass live balanced distinct
      exact finished.frame rfl rfl
  | left _ live bare ih => exact Ledger.leave (s := Deployment.forgiving _) ih live bare
  | passed caller effective _ live ih => exact reconcile_forgiving ih caller effective live

theorem removed (history : s.History t last) {id : ContainerId} {c : Container} (caller : Option String)
    (live : t.containers.live.get? id = some c) (done : (t.provisioner.releaseAll c.installed).outcome = .ok ()) :
    ∃ last, s.History (t.removed caller c id) last := by
  have told : s.History (t.announce caller { container := id, stage := .removed }) last :=
    history.aside (.refl_of rfl rfl)
  have cleared := told.cleared live
  have here : ((t.announce caller { container := id, stage := .removed }).finishPass id
      (t.provisioner.releaseAll c.installed)).containers.live.get? id = some { c with installed := [] } := by
    change (t.containers.modify id _).live.get? id = _
    rw [ContainerRegistry.get?_modify, if_pos rfl, live, Provisioner.releaseAll_installed done]
    rfl
  have gone := cleared.left here rfl
  unfold Deployment.removed unlinkChild
  dsimp only
  split
  · exact ⟨_, gone⟩
  · exact ⟨_, gone.dressed _ fun _ _ => ⟨rfl, rfl⟩⟩

section Run

variable (start : s.forgiving.Ledger) {me : Thread}
include start

theorem provision (history : s.History t last) (me : Thread) (caller : Option String) (id : ContainerId) :
    ∃ last, s.History (t.provision me caller id).2 last := by
  refine t.provision_elim me caller (P := fun out => ∃ last, s.History out.2 last) id ?_ ?_ ?_
  · exact fun _ => ⟨last, history⟩
  · exact fun _ _ _ _ _ _ _ => ⟨last, history.aside (.refl_of rfl rfl)⟩
  · intro c v merged live _ _ _
    have named : c.identity = id := (history.ledger start).named id c live
    exact ⟨_, .passed caller merged history (named ▸ live)⟩

theorem change (history : s.History t last) (change : Change t u) : ∃ last, s.History u last := by
  cases change with
  | switched _ _ _ => exact ⟨last, history.aside (.refl_of rfl rfl)⟩
  | told _ _ => exact ⟨last, history.aside (.refl_of rfl rfl)⟩
  | stored _ => exact ⟨last, history.aside (.refl_of rfl rfl)⟩
  | @created r me absent _ =>
      have joined := history.joined (c := t.newContainer r) (t.containers.destroyed.erase r.identity) absent rfl
      unfold linkChild
      split
      · exact ⟨_, joined⟩
      · exact ⟨_, joined.dressed _ fun _ _ => ⟨rfl, rfl⟩⟩
  | retouched live retouched =>
      refine ⟨last, history.dressed _ fun c live' => ?_⟩
      cases live.symm.trans live'
      exact retouched.unmoved
  | @reassigned c me changed id caller live reassigned =>
      rw [changeAndProvision_snd]
      have named : c.identity = id := (history.ledger start).named id c live
      have changed : s.History (t.modify changed.identity fun _ => changed) last := by
        refine history.dressed _ fun d live' => ?_
        rw [reassigned.unmoved.1, named] at live'
        cases live.symm.trans live'
        exact reassigned.unmoved
      exact changed.provision start me caller _
  | @unreleased c changed id caller text live same =>
      have unmoved : changed.identity = c.identity ∧ changed.installed = c.installed := by
        rw [same]
        split <;> exact ⟨rfl, rfl⟩
      have stopped : s.History (t.modify id fun _ => changed) last := by
        refine history.dressed _ fun d live' => ?_
        cases live.symm.trans live'
        exact unmoved
      have told : s.History ((t.modify id fun _ => changed).announce caller
          { container := id, stage := .error, error := some text }) last := stopped.aside (.refl_of rfl rfl)
      have here : (t.containers.modify id fun _ => changed).live.get? id = some changed := by
        rw [ContainerRegistry.get?_modify, if_pos rfl, live]
        rfl
      rw [← unmoved.2]
      exact ⟨_, told.cleared here⟩
  | destroyed caller live done => exact history.removed caller live done
  | updated caller replaced =>
      refine reprovisions_keep (P := fun v => ∃ last, s.History v last) ?_
        (fun v id known => known.elim fun _ history => history.provision start _ caller id) _ _
      obtain ⟨_, _, _, _⟩ := replaced
      exact ⟨last, history.aside (.refl_of rfl rfl)⟩

theorem act (history : s.History t last) (a : Action) : ∃ last, s.History (t.act a) last := by
  cases a with
  | perform me caller op =>
      refine perform_keeps (P := fun v => ∃ last, s.History v last) ⟨last, history⟩ ?_ ?_ me caller op
      · exact fun _ _ change known => known.elim fun _ history => history.change start change
      · rintro _ _ _ ⟨_, _, _, _⟩ ⟨last, history⟩
        exact ⟨last, history.aside (.refl_of rfl rfl)⟩
  | lockContainer me id mode =>
      obtain ⟨locks, same⟩ := t.lockContainer_eq me id mode
      rw [same]
      exact ⟨last, history.aside (.refl_of rfl rfl)⟩
  | lockVersion me v mode =>
      obtain ⟨locks, same⟩ := t.lockVersion_eq me v mode
      rw [same]
      exact ⟨last, history.aside (.refl_of rfl rfl)⟩
  | _ => exact ⟨last, history.aside ⟨rfl, _, _, _, rfl⟩⟩

theorem turns (ts : List Turn) : ∃ last, s.History (s.turns ts) last := by
  refine turns_keep (P := fun v => ∃ last, s.History v last) ⟨_, .start⟩ ?_
  rintro t (a | ⟨profiles, containers⟩) _ ⟨last, history⟩
  · exact history.act start a
  · exact ⟨last, history.aside (.refl_of rfl rfl)⟩

end Run

end History

-- Some steps lead from the one to the other.
def Later (s t : Deployment) : Prop := ∃ last, s.History t last

theorem Later.refl (s : Deployment) : s.Later s := ⟨_, .start⟩

theorem Later.trans (first : s.Later t) (second : t.Later u) : s.Later u := by
  obtain ⟨_, history⟩ := second
  induction history with
  | start => exact first
  | aside _ aside ih => exact ih.elim fun _ history => ⟨_, history.aside aside⟩
  | dressed id _ kept ih => exact ih.elim fun _ history => ⟨_, history.dressed id kept⟩
  | joined destroyed _ absent bare ih => exact ih.elim fun _ history => ⟨_, history.joined destroyed absent bare⟩
  | cleared _ live ih => exact ih.elim fun _ history => ⟨_, history.cleared live⟩
  | left _ live bare ih => exact ih.elim fun _ history => ⟨_, history.left live bare⟩
  | passed caller effective _ live ih => exact ih.elim fun _ history => ⟨_, history.passed caller effective live⟩

section Every

variable {P : Deployment → ContainerId → Option LastPass → List Installed → Prop}
  (later : ∀ t u id pass installed, t.Later u → P t id pass installed → P u id pass installed)
include later

-- One container is touched. Of the others the same is known as before.
theorem Later.known_at {id : ContainerId} {pass : Option LastPass} (on : t.Later u)
    (known : ∀ id c, t.containers.live.get? id = some c → P t id (last id) c.installed)
    (elsewhere : ∀ other, other ≠ id → u.containers.live.get? other = t.containers.live.get? other)
    (here : ∀ c, u.containers.live.get? id = some c → P u id pass c.installed) :
    ∀ other c, u.containers.live.get? other = some c → P u other (Passed last id pass other) c.installed := by
  intro other c live
  unfold Passed
  split
  · rename_i same
    subst same
    exact here c live
  · rename_i different
    rw [elsewhere other different] at live
    exact later _ _ _ _ _ on (known other c live)

-- Only a pass adds to what a container has installed, and what is known of its last pass changes with it.
theorem History.every (history : s.History t last) (empty : ∀ id, s.containers.live.get? id = none)
    (bare : ∀ t id, P t id none [])
    (fewer : ∀ t id pass installed left, left ⊆ installed → P t id pass installed → P t id none left)
    (passed : ∀ t last c caller effective, s.History t last → t.containers.live.get? c.identity = some c →
      P t c.identity (last c.identity) c.installed →
      P (t.reconcile caller c effective).2 c.identity (some {
        effective, before := c.installed, offer := t.provisioner.repository.environment
        succeeded := (t.passOf c effective).outcome = .ok () }) (t.passOf c effective).installed) :
    ∀ id c, t.containers.live.get? id = some c → P t id (last id) c.installed := by
  induction history with
  | start =>
      intro id c live
      cases (empty id).symm.trans live
  | aside _ aside ih =>
      intro id c live
      rw [aside.containers] at live
      exact later _ _ _ _ _ ⟨_, .aside .start aside⟩ (ih id c live)
  | @dressed t last id change _ kept ih =>
      have on : t.Later (t.modify id change) := ⟨_, .dressed id .start kept⟩
      intro other d live
      rw [modify, ContainerRegistry.get?_modify] at live
      split at live
      · rename_i same
        obtain ⟨c, live', rfl⟩ := Option.map_eq_some_iff.mp live
        rw [(kept c live').2, same]
        exact later _ _ _ _ _ on (ih id c live')
      · exact later _ _ _ _ _ on (ih other d live)
  | joined destroyed _ absent empty ih =>
      refine Later.known_at later ⟨_, .joined destroyed .start absent empty⟩ ih
        (fun other different => ?_) fun d live => ?_
      · rw [Dict.get?_insert, if_neg different]
      · rw [Dict.get?_insert, if_pos rfl] at live
        cases live
        rw [empty]
        exact bare _ _
  | @cleared t last c id _ here ih =>
      have on : t.Later (t.finishPass id (t.provisioner.releaseAll c.installed)) := ⟨_, .cleared .start here⟩
      refine on.known_at later ih (fun other different => ?_) fun d live => ?_
      · rw [finishPass, modify, ContainerRegistry.get?_modify, if_neg different]
      · rw [finishPass, modify, ContainerRegistry.get?_modify, if_pos rfl] at live
        obtain ⟨_, _, rfl⟩ := Option.map_eq_some_iff.mp live
        refine later _ _ _ _ _ on (fewer _ _ _ _ _ ?_ (ih id c here))
        exact (t.provisioner.releaseUnwanted_sublist _ c.installed).subset
  | left _ here empty ih =>
      refine Later.known_at later ⟨_, .left .start here empty⟩ ih (fun other different => ?_) fun d live => ?_
      · rw [ContainerRegistry.get?_remove, if_neg different]
      · rw [ContainerRegistry.get?_remove, if_pos rfl] at live
        cases live
  | passed caller effective before here ih =>
      refine Later.known_at later ⟨_, .passed caller effective .start here⟩ ih
        (fun other different => ?_) fun d live => ?_
      · rw [reconcile_containers, ContainerRegistry.get?_modify, if_neg different]
      · rw [reconcile_containers, ContainerRegistry.get?_modify, if_pos rfl] at live
        obtain ⟨_, _, rfl⟩ := Option.map_eq_some_iff.mp live
        exact passed _ _ _ caller effective before here (ih _ _ here)

end Every

theorem build_empty
    (built : build chosen stored { repository := { environment := supplied, failing } } heard time = .ok s)
    (id : ContainerId) : s.containers.live.get? id = none := by
  simp only [build, bind_eq_ok, pure_eq_ok] at built
  obtain ⟨_, _, _, _, rfl⟩ := built
  rfl

theorem build_forgiving {supplied : Environment}
    (built : build chosen stored { repository := { environment := supplied, failing } } heard time = .ok s) :
    s.forgiving.Ledger := by
  have ledger := build_ledger built
  rwa [forgiving_eq ledger.balanced.willing]

-- One version with some profiles, and what the repository supplies.
def staged (profiles : List Profile) (supplied : Environment) : Deployment where
  settings := {}
  defaultVersion := .first
  store := .memory { versions := Dict.insert ∅ .first { attributes := ∅, profiles := Catalog.ofProfiles profiles } }
  clock := ""
  locks := { timeout := 10000 }
  provisioner := { repository := { environment := supplied } }

theorem build_staged (profiles : List Profile) (supplied : Environment) :
    build {} (staged profiles supplied).store { repository := { environment := supplied, failing := [] } } {} "" =
      .ok (staged profiles supplied) := rfl

-- A container is created in it and has nothing installed yet.
def staging : List Turn := [.switch true true,
  .action (.perform "main" none (.create { identity := "a", version := some .first, profiles := ["site"] }))]

def created : Container := { identity := "a", version := some .first, profiles := ["site"] }

def createdStarted : Container := { created with state := .started }

end Deployment
end ContainerProfiles
