import ContainerProfiles.Deployment.Operation
import ContainerProfiles.Proofs.StoreEdits
import Mathlib.Logic.Relation

namespace ContainerProfiles

-- The changes an operation is made of. Every operation leaves a deployment that a sequence of single changes leads
-- to; only the exchange of a stored profile, with no look at the containers, stands apart.

-- The assignment and what is installed stay.
inductive Container.Retouched (c : Container) : Container → Prop
  | dressed (endpoints : KeySet Endpoint) (attributes : Attributes) :
      Retouched c { c with endpoints, attributes }
  | stopped : c.state = .started → Retouched c { c with state := .stopped }

-- Only what other parties read of it is another.
def Container.Dressed (c changed : Container) : Prop :=
  ∃ endpoints attributes, changed = { c with endpoints, attributes }

theorem Container.Dressed.retouched {c changed : Container} (dressed : c.Dressed changed) : c.Retouched changed := by
  obtain ⟨endpoints, attributes, rfl⟩ := dressed
  exact .dressed endpoints attributes

theorem Container.Retouched.unmoved {c changed : Container} (retouched : c.Retouched changed) :
    changed.identity = c.identity ∧ changed.installed = c.installed := by
  cases retouched <;> exact ⟨rfl, rfl⟩

namespace Deployment

open Relation

-- Another assignment for a live container, as far as it was checked.
inductive Reassigned (s : Deployment) (me : Thread) (c : Container) : Container → Prop
  | started : c.state.canBecome .started →
      profiles = (if c.profiles.isEmpty then [s.settings.defaultProfile] else c.profiles) →
      s.checkAssignable me (c.version.getD s.defaultVersion) profiles = .ok () →
      Reassigned s me c
        { c with version := some (c.version.getD s.defaultVersion), profiles, state := .started }
  | moved : s.checkAssignable me v c.profiles = .ok () → Reassigned s me c { c with version := some v }
  | extended : s.checkAssignable me (c.version.getD s.defaultVersion) ids = .ok () →
      Reassigned s me c
        (Container.addProfiles { c with version := some (c.version.getD s.defaultVersion) } ids)
  | unversioned (ids : List ProfileId) : c.version = none →
      Reassigned s me c { c with profiles := c.profiles.filter (· ∉ ids) }
  | reduced (ids : List ProfileId) : c.version = some v → s.permitVersion me v .read = .ok () →
      c.profiles.filter (· ∉ ids) ≠ [] →
      Reassigned s me c { c with profiles := c.profiles.filter (· ∉ ids) }
  | emptied : c.version = some v → s.checkAssignable me v [s.settings.defaultProfile] = .ok () →
      Reassigned s me c { c with profiles := [s.settings.defaultProfile] }

theorem Reassigned.unmoved {s : Deployment} {me : Thread} {c changed : Container}
    (reassigned : Reassigned s me c changed) :
    changed.identity = c.identity ∧ changed.installed = c.installed := by
  cases reassigned <;> exact ⟨rfl, rfl⟩

-- Where a change could be prepared it is made, and the container is provisioned.
def assign (s : Deployment) (me : Thread) (caller : Option String)
    (prepared : Except OperationError Container) : Outcome Container :=
  match prepared with
  | .error e => (.error e, s)
  | .ok changed => s.changeAndProvision me caller changed

-- What others read of a container is another, and nothing is provisioned.
def dress (s : Deployment) (me : Thread) (id : ContainerId) (aim : String) (change : Container → Container) :
    Outcome Container :=
  s.settle do
    s.containerService.check
    let c ← s.forChange me id aim
    return (change c, s.modify id (fun _ => change c))

-- How an assignment ends: nothing is changed, or the container has another assignment and is provisioned.
inductive Assigns (s : Deployment) (me : Thread) (caller : Option String) (id : ContainerId) :
    Outcome Container → Prop
  | refused (e : OperationError) : Assigns s me caller id (.error e, s)
  | settled (c : Container) : Assigns s me caller id (.ok c, s)
  | assigned : s.containers.live.get? id = some c → Reassigned s me c changed →
      Assigns s me caller id (s.changeAndProvision me caller changed)

-- How an operation ends that provisions nothing: nothing is changed, or only the container is another.
inductive Touches (s : Deployment) (id : ContainerId) (how : Container → Container → Prop) :
    Outcome Container → Prop
  | refused (e : OperationError) : Touches s id how (.error e, s)
  | touched : s.containers.live.get? id = some c → how c changed →
      Touches s id how (.ok changed, s.modify id (fun _ => changed))

def newContainer (s : Deployment) (r : ContainerRequest) : Container :=
  Container.addProfiles
    { identity := r.identity, parent := r.parent, version := s.requestedVersion r,
      attributes := r.attributes } r.profiles

-- The stored profile is exchanged and listeners hear of it.
inductive Replaced (s : Deployment) (me : Thread) (p : Profile) : Deployment → Prop
  | intro (caller : Option String) (e : ProfileEvent) : s.prepareReplacement me p = .ok () →
      s.storeReplacement p = (.ok (), written) →
      Replaced s me p (announceProfile { s with store := written } caller e)

-- The container leaves with what was on it, and its parent forgets it.
def removed (s : Deployment) (caller : Option String) (c : Container) (id : ContainerId) : Deployment :=
  let next := (s.announce caller { container := id, stage := .removed }).finishPass id
    (s.provisioner.releaseAll c.installed)
  { next with containers := unlinkChild (next.containers.remove id) id c.parent }

inductive Change (s : Deployment) : Deployment → Prop
  | switched (profileService containerService : Component) (current : Option ContainerId) :
      Change s { s with profileService, containerService, current }
  | told (caller : Option String) (e : ProfileEvent) : Change s (s.announceProfile caller e)
  | stored : s.StoreChange written → Change s { s with store := written }
  | created (me : Thread) : s.containers.live.get? r.identity = none →
      (∀ v, s.requestedVersion r = some v → s.checkAssignable me v r.profiles = .ok ()) →
      Change s { s with
        containers := linkChild
          { live := s.containers.live.insert r.identity (s.newContainer r)
            destroyed := s.containers.destroyed.erase r.identity } r.identity r.parent }
  | retouched {id : ContainerId} : s.containers.live.get? id = some c → c.Retouched changed →
      Change s (s.modify id (fun _ => changed))
  | reassigned {id : ContainerId} (caller : Option String) : s.containers.live.get? id = some c →
      Reassigned s me c changed → Change s (s.changeAndProvision me caller changed).2
  | unreleased {id : ContainerId} (caller : Option String) (text : String) :
      s.containers.live.get? id = some c →
      changed = (if c.isStarted then { c with state := .stopped } else c) →
      Change s (((s.modify id (fun _ => changed)).announce caller
        { container := id, stage := .error, error := some text }).finishPass id
          (s.provisioner.releaseAll c.installed))
  | destroyed {id : ContainerId} (caller : Option String) : s.containers.live.get? id = some c →
      (s.provisioner.releaseAll c.installed).outcome = .ok () → Change s (s.removed caller c id)
  | updated {p : Profile} (caller : Option String) : Replaced s me p next →
      Change s ((next.usersOf p.version (fun _ => true)).foldl
        (fun t id => t.reprovision me caller p id) next)

abbrev Changes : Deployment → Deployment → Prop := ReflTransGen Change

variable {s : Deployment} {me : Thread}

theorem get_eq_ok {r : ContainerRegistry} {id : ContainerId} :
    r.get id = .ok c ↔ r.live.get? id = some c := by
  unfold ContainerRegistry.get
  split <;> simp_all

theorem getFor_eq_ok {r : ContainerRegistry} {id : ContainerId} :
    r.getFor id aim = .ok c ↔ r.live.get? id = some c := by
  unfold ContainerRegistry.getFor
  split
  · rename_i gone
    simp only [Bool.and_eq_true, Bool.not_eq_true', ContainerRegistry.contains] at gone
    simp [Dict.contains_false.mp gone.2]
  · exact get_eq_ok

theorem forChange_live {id : ContainerId} (passed : s.forChange me id aim = .ok c) :
    s.containers.live.get? id = some c := by
  simp only [forChange, bind_eq_ok, getFor_eq_ok] at passed
  obtain ⟨_, _, live⟩ := passed
  exact live

theorem checkBecomes_eq_ok {id : ContainerId} {current next : LifecycleState} {u : Unit} :
    current.checkBecomes id next = .ok u ↔ current.canBecome next := by
  unfold LifecycleState.checkBecomes
  split <;> simp_all

theorem settle_elim {P : Outcome α → Prop} {x : Except OperationError (α × Deployment)}
    (refused : ∀ e, P (.error e, s)) (done : ∀ a t, x = .ok (a, t) → P (.ok a, t)) : P (s.settle x) := by
  cases result : x with
  | error e => exact refused e
  | ok pair => exact done pair.1 pair.2 result

theorem settle_error {x : Except OperationError (α × Deployment)}
    (refused : (s.settle x).1 = .error e) : (s.settle x).2 = s := by
  cases x with
  | error cause => rfl
  | ok pair => cases refused

theorem checkRequest_ok {r : ContainerRequest} (checked : s.checkRequest me r = .ok ()) :
    s.containers.live.get? r.identity = none ∧
      (∀ p, r.parent = some p → ∃ c, s.containers.live.get? p = some c) ∧
      ∀ v, s.requestedVersion r = some v → s.checkAssignable me v r.profiles = .ok () := by
  simp only [checkRequest, bind_eq_ok, guard_eq_ok] at checked
  obtain ⟨_, _, _, _, _, attached, _, _, fresh, assignable⟩ := checked
  refine ⟨Dict.contains_false.mp (Bool.eq_false_iff.mpr fresh), fun p up => ?_, fun v version => ?_⟩
  · rw [up] at attached
    obtain ⟨c, found, _⟩ := bind_eq_ok.mp attached
    exact ⟨c, forChange_live found⟩
  · rw [version] at assignable
    exact assignable

theorem create_eq (s : Deployment) (me : Thread) (r : ContainerRequest) :
    s.create me r = match s.checkRequest me r with
      | .error e => (.error e, s)
      | .ok _ => (.ok (s.newContainer r), { s with
          containers := linkChild
            { live := s.containers.live.insert r.identity (s.newContainer r)
              destroyed := s.containers.destroyed.erase r.identity } r.identity r.parent }) := by
  unfold create
  cases checked : s.checkRequest me r with
  | error e => rfl
  | ok _ =>
      have fresh : ¬ s.containers.contains r.identity :=
        Bool.eq_false_iff.mp (Dict.contains_false.mpr (checkRequest_ok checked).1)
      have registered : s.containers.register (s.newContainer r) =
          .ok { live := s.containers.live.insert r.identity (s.newContainer r)
                destroyed := s.containers.destroyed.erase r.identity } := if_neg fresh
      change s.settle (s.containers.register (s.newContainer r) >>= fun registry =>
        .ok (s.newContainer r, { s with containers := linkChild registry r.identity r.parent })) = _
      rw [registered]
      rfl

theorem create_change (s : Deployment) (me : Thread) (r : ContainerRequest) :
    Changes s (s.create me r).2 := by
  rw [create_eq]
  cases checked : s.checkRequest me r with
  | error e => exact .refl
  | ok _ =>
      obtain ⟨absent, _, assignable⟩ := checkRequest_ok checked
      exact .single (.created me absent assignable)

theorem prepareStart_ok {id : ContainerId} (prepared : s.prepareStart me id = .ok changed) :
    ∃ c, s.containers.live.get? id = some c ∧ Reassigned s me c changed := by
  simp only [prepareStart, bind_eq_ok, pure_eq_ok, checkBecomes_eq_ok] at prepared
  obtain ⟨_, _, c, found, _, startable, _, checked, rfl⟩ := prepared
  exact ⟨c, forChange_live found, .started startable rfl checked⟩

theorem assign_assigns {id : ContainerId} {prepared : Except OperationError Container}
    (prepares : ∀ changed, prepared = .ok changed →
      ∃ c, s.containers.live.get? id = some c ∧ Reassigned s me c changed)
    (caller : Option String) : s.Assigns me caller id (s.assign me caller prepared) := by
  cases prepared with
  | error e => exact .refused e
  | ok changed =>
      obtain ⟨c, live, reassigned⟩ := prepares changed rfl
      exact .assigned live reassigned

theorem startContainer_assigns (s : Deployment) (me : Thread) (id : ContainerId) (caller : Option String) :
    s.Assigns me caller id (s.startContainer me id caller) :=
  assign_assigns (fun _ => prepareStart_ok) caller

theorem stopContainer_touches (s : Deployment) (me : Thread) (id : ContainerId) :
    s.Touches id Container.Retouched (s.stopContainer me id) := by
  refine settle_elim (P := s.Touches id Container.Retouched) .refused fun a t accepted => ?_
  simp only [bind_eq_ok, pure_eq_ok, checkBecomes_eq_ok, Prod.mk.injEq] at accepted
  obtain ⟨_, _, _, _, c, found, _, stoppable, rfl, rfl⟩ := accepted
  have running : c.state = .started := by
    cases state : c.state <;> simp [state, LifecycleState.canBecome] at stoppable ⊢
  exact .touched (forChange_live found) (.stopped running)

theorem prepareDestruction_ok {id : ContainerId} (prepared : s.prepareDestruction me id = .ok changed) :
    ∃ c, s.containers.live.get? id = some c ∧
      changed = if c.isStarted then { c with state := .stopped } else c := by
  simp only [prepareDestruction, bind_eq_ok, getFor_eq_ok] at prepared
  obtain ⟨_, _, _, _, c, live, rest⟩ := prepared
  refine ⟨c, live, ?_⟩
  split at rest
  · simp only [bind_eq_ok, guard_eq_ok, pure_eq_ok] at rest
    obtain ⟨_, _, _, _, _, _, _, same⟩ := rest
    exact same.symm
  · simp only [bind_eq_ok, guard_eq_ok, pure_eq_ok] at rest
    obtain ⟨_, _, _, _, _, same⟩ := rest
    exact same.symm

theorem destroy_change (s : Deployment) (me : Thread) (id : ContainerId) (caller : Option String) :
    Changes s (s.destroy me id caller).2 := by
  unfold destroy
  cases prepared : s.prepareDestruction me id with
  | error e => exact .refl
  | ok changed =>
      obtain ⟨c, live, same⟩ := prepareDestruction_ok prepared
      have installed : changed.installed = c.installed := by rw [same]; split <;> rfl
      have parent : changed.parent = c.parent := by rw [same]; split <;> rfl
      simp only [installed, parent]
      cases released : (s.provisioner.releaseAll c.installed).outcome with
      | error e => exact .single (.unreleased caller _ live same)
      | ok _ => exact .single (.destroyed caller live released)

theorem prepareVersionChange_ok {id : ContainerId} (prepared : s.prepareVersionChange me id v = .ok changed) :
    ∃ c, s.containers.live.get? id = some c ∧ Reassigned s me c changed := by
  simp only [prepareVersionChange, bind_eq_ok, pure_eq_ok] at prepared
  obtain ⟨_, _, c, found, _, checked, rfl⟩ := prepared
  exact ⟨c, forChange_live found, .moved checked⟩

theorem assignVersion_assigns (s : Deployment) (me : Thread) (id : ContainerId) (v : Version)
    (caller : Option String) : s.Assigns me caller id (s.assignVersion me id v caller) :=
  assign_assigns (fun _ => prepareVersionChange_ok) caller

theorem prepareAddition_ok {id : ContainerId} (prepared : s.prepareAddition me id ids = .ok changed) :
    ∃ c, s.containers.live.get? id = some c ∧ Reassigned s me c changed := by
  simp only [prepareAddition, bind_eq_ok, pure_eq_ok] at prepared
  obtain ⟨_, _, c, found, _, checked, rfl⟩ := prepared
  exact ⟨c, forChange_live found, .extended checked⟩

theorem addProfiles_assigns (s : Deployment) (me : Thread) (id : ContainerId) (ids : List ProfileId)
    (caller : Option String) : s.Assigns me caller id (s.addProfiles me id ids caller) :=
  assign_assigns (fun _ => prepareAddition_ok) caller

theorem prepareRemoval_ok {ids : List ProfileId}
    (prepared : s.prepareRemoval me c (c.profiles.filter (· ∉ ids)) = .ok changed) :
    Reassigned s me c changed := by
  unfold prepareRemoval at prepared
  split at prepared
  · rename_i version
    cases pure_eq_ok.mp prepared
    exact .unversioned ids version
  · rename_i v version
    obtain ⟨_, permitted, rest⟩ := bind_eq_ok.mp prepared
    split at rest
    · obtain ⟨_, listed, same⟩ := bind_eq_ok.mp rest
      cases pure_eq_ok.mp same
      exact .emptied version (bind_eq_ok.mpr ⟨(), permitted, listed⟩)
    · rename_i left
      cases pure_eq_ok.mp rest
      exact .reduced ids version permitted (by simpa using left)

theorem removeProfiles_assigns (s : Deployment) (me : Thread) (id : ContainerId) (ids : List ProfileId)
    (caller : Option String) : s.Assigns me caller id (s.removeProfiles me id ids caller) := by
  unfold removeProfiles
  split
  · exact .refused _
  · rename_i c found
    obtain ⟨_, _, passed⟩ := bind_eq_ok.mp found
    dsimp only
    split
    · exact .settled c
    · exact assign_assigns (fun _ prepared => ⟨c, forChange_live passed, prepareRemoval_ok prepared⟩) caller

theorem Assigns.changes {id : ContainerId} {out : Outcome Container} (assigns : s.Assigns me caller id out) :
    Changes s out.2 := by
  cases assigns with
  | refused e => exact .refl
  | settled c => exact .refl
  | assigned live reassigned => exact .single (.reassigned caller live reassigned)

theorem replaceProfile_cases (s : Deployment) (me : Thread) (p : Profile) (caller : Option String) :
    (∃ e t, s.replaceProfile me p caller = (.error e, t) ∧ Changes s t) ∨
      ∃ t, s.replaceProfile me p caller = (.ok p, t) ∧ Replaced s me p t := by
  unfold replaceProfile
  cases prepared : s.prepareReplacement me p with
  | error e => exact .inl ⟨e, s, rfl, .refl⟩
  | ok _ =>
      rcases stored : s.storeReplacement p with ⟨outcome, written⟩
      cases outcome with
      | error e =>
          have same : Change s { s with store := written } := by
            refine .stored fun m memory sound => ?_
            rcases replacement_change memory sound prepared with ⟨_, refused⟩ | ⟨_, accepted, _⟩
            · cases stored.symm.trans refused
              exact ⟨m, rfl, .same⟩
            · cases stored.symm.trans accepted
          exact .inl ⟨_, _, rfl, .tail (.single same) (.told caller _)⟩
      | ok _ => exact .inr ⟨_, rfl, .intro caller _ prepared stored⟩

theorem updateProfile_change (s : Deployment) (me : Thread) (p : Profile) (caller : Option String) :
    Changes s (s.updateProfile me p caller).2 := by
  unfold updateProfile
  cases s.containerService.check with
  | error e => exact .refl
  | ok _ =>
      rcases replaceProfile_cases s me p none with ⟨e, t, failed, changes⟩ | ⟨t, done, replaced⟩
      · simpa [failed] using changes
      · simpa [done] using ReflTransGen.single (Change.updated caller replaced)

theorem andThen_changes {first : Outcome α} {second : α → Deployment → Outcome β}
    (begins : Changes s first.2) (goes : ∀ x t, Changes t (second x t).2) :
    Changes s (andThen first second).2 := by
  obtain ⟨outcome, t⟩ := first
  cases outcome with
  | error e => exact begins
  | ok x => exact begins.trans (goes x t)

theorem addVersion_changes (s : Deployment) (me : Thread) (listed : ProfileVersion)
    (profiles : List Profile) : Changes s (s.addVersion me listed profiles).2 := by
  obtain ⟨written, same, change⟩ := s.addVersion_change me listed profiles
  exact same ▸ .single (.stored change)

theorem removeVersion_changes (s : Deployment) (me : Thread) (v : Version) :
    Changes s (s.removeVersion me v).2 := by
  obtain ⟨written, same, change⟩ := s.removeVersion_change me v
  exact same ▸ .single (.stored change)

theorem addProfile_changes (s : Deployment) (me : Thread) (p : Profile) :
    Changes s (s.addProfile me p).2 := by
  obtain ⟨written, same, change⟩ := s.addProfile_change me p
  exact same ▸ .single (.stored change)

theorem removeProfile_changes (s : Deployment) (me : Thread) (v : Version) (id : ProfileId) :
    Changes s (s.removeProfile me v id).2 := by
  obtain ⟨written, same, change⟩ := s.removeProfile_change me v id
  exact same ▸ .single (.stored change)

theorem ensureVersion_changes (s : Deployment) (me : Thread) : Changes s (s.ensureVersion me).2 := by
  unfold ensureVersion
  split
  · exact .refl
  · split
    · exact .refl
    · exact andThen_changes (s.addVersion_changes me _ _) fun _ _ => .refl

theorem ensureProfile_changes (s : Deployment) (me : Thread) : Changes s (s.ensureProfile me).2 := by
  unfold ensureProfile
  split
  · exact .refl
  · split
    · exact .refl
    · split
      · exact .refl
      · exact andThen_changes (s.addProfile_changes me _) fun _ _ => .refl

theorem ensureContainer_changes (s : Deployment) (me : Thread) : Changes s (s.ensureContainer me).2 := by
  unfold ensureContainer
  refine andThen_changes ?_ fun _ t => ?_
  · split
    · exact .refl
    · exact andThen_changes (s.create_change me _) fun _ _ => .refl
  · split
    · exact .refl
    · split
      · exact .refl
      · exact (t.startContainer_assigns me _ none).changes

theorem start_changes (s : Deployment) (me : Thread) : Changes s (s.start me).2 := by
  refine .trans (.single (.switched s.profileService.activate s.containerService.activate s.current)) ?_
  refine andThen_changes (ensureVersion_changes _ me) fun _ t => ?_
  refine andThen_changes (t.ensureProfile_changes me) fun _ t => ?_
  refine andThen_changes (t.ensureContainer_changes me) fun c t => ?_
  exact .single (.switched t.profileService t.containerService (some t.settings.currentContainer))

theorem dress_touches {change : Container → Container} (dresses : ∀ c : Container, c.Dressed (change c)) (s : Deployment)
    (me : Thread) (id : ContainerId) (aim : String) :
    s.Touches id Container.Dressed (s.dress me id aim change) := by
  refine settle_elim (P := s.Touches id Container.Dressed) .refused fun a t accepted => ?_
  simp only [bind_eq_ok, pure_eq_ok, Prod.mk.injEq] at accepted
  obtain ⟨_, _, c, found, rfl, rfl⟩ := accepted
  exact .touched (forChange_live found) (dresses c)

theorem addEndpoint_touches (s : Deployment) (me : Thread) (id : ContainerId) (endpoint : Endpoint) :
    s.Touches id Container.Dressed (s.addEndpoint me id endpoint) :=
  dress_touches (fun c => ⟨_, c.attributes, rfl⟩) s me id "add-endpoint"

theorem setAttribute_touches (s : Deployment) (me : Thread) (id : ContainerId) (key value : String) :
    s.Touches id Container.Dressed (s.setAttribute me id key value) :=
  dress_touches (fun c => ⟨c.endpoints, _, rfl⟩) s me id "set-attribute"

theorem Touches.retouched {id : ContainerId} {out : Outcome Container}
    (touches : s.Touches id Container.Dressed out) : s.Touches id Container.Retouched out := by
  cases touches with
  | refused e => exact .refused e
  | touched live dressed => exact .touched live dressed.retouched

theorem Touches.changes {id : ContainerId} {out : Outcome Container}
    (touches : s.Touches id Container.Retouched out) : Changes s out.2 := by
  cases touches with
  | refused e => exact .refl
  | touched live retouched => exact .single (.retouched live retouched)

theorem perform_changes (s : Deployment) (me : Thread) (caller : Option String) (op : Operation) :
    Changes s (s.perform me caller op).2 ∨
      ∃ p, op = .replaceProfile p ∧ Replaced s me p (s.perform me caller op).2 := by
  cases op with
  | replaceProfile p =>
      rcases s.replaceProfile_cases me p caller with ⟨e, t, failed, changes⟩ | ⟨t, done, replaced⟩
      · exact .inl (by simpa [perform, acting, failed] using changes)
      · exact .inr ⟨p, rfl, by simpa [perform, acting, done] using replaced⟩
  | start => exact .inl (s.start_changes me)
  | stop =>
      exact .inl (.single (.switched s.profileService.deactivate s.containerService.deactivate
        s.current))
  | addVersion listed profiles => exact .inl (s.addVersion_changes me listed profiles)
  | removeVersion v => exact .inl (s.removeVersion_changes me v)
  | addProfile p => exact .inl (s.addProfile_changes me p)
  | removeProfile v id => exact .inl (s.removeProfile_changes me v id)
  | create r => exact .inl (s.create_change me r)
  | startContainer id => exact .inl (s.startContainer_assigns me id caller).changes
  | stopContainer id => exact .inl (s.stopContainer_touches me id).changes
  | destroy id => exact .inl (s.destroy_change me id caller)
  | assignVersion id v => exact .inl (s.assignVersion_assigns me id v caller).changes
  | addProfiles id ids => exact .inl (s.addProfiles_assigns me id ids caller).changes
  | removeProfiles id ids => exact .inl (s.removeProfiles_assigns me id ids caller).changes
  | updateProfile p => exact .inl (s.updateProfile_change me p caller)
  | addEndpoint id endpoint => exact .inl (s.addEndpoint_touches me id endpoint).retouched.changes
  | setAttribute id key value => exact .inl (s.setAttribute_touches me id key value).retouched.changes
  | _ => exact .inl .refl

end Deployment
end ContainerProfiles
