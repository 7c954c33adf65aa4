import ContainerProfiles.Proofs.BlindPasses
import ContainerProfiles.Proofs.ForestRuns
import ContainerProfiles.Proofs.Onlookers

namespace ContainerProfiles

-- What an operation on a container makes of it, and what it answers, follows from that container and from what is
-- the same for all: the store, the locks, the offer of the repository.

-- Either both fail for the same reason, or the results are related.
inductive Matched {ε α β : Type} (R : α → β → Prop) : Except ε α → Except ε β → Prop
  | error (e : ε) : Matched R (.error e) (.error e)
  | ok : R a b → Matched R (.ok a) (.ok b)

namespace Matched

variable {ε α β γ δ : Type} {R : α → β → Prop} {S : γ → δ → Prop}

theorem bind {x : Except ε α} {y : Except ε β} {f : α → Except ε γ} {g : β → Except ε δ}
    (matched : Matched R x y) (follow : ∀ a b, R a b → Matched S (f a) (g b)) :
    Matched S (x >>= f) (y >>= g) := by
  cases matched with
  | error e => exact .error e
  | ok related => exact follow _ _ related

-- A check that is made on both sides.
theorem after (x : Except ε α) {f : α → Except ε γ} {g : α → Except ε δ}
    (follow : ∀ a, Matched S (f a) (g a)) : Matched S (x >>= f) (x >>= g) := by
  cases x with
  | error e => exact .error e
  | ok a => exact follow a

theorem guard {c : Prop} [Decidable c] {e : ε} {f : α → Except ε γ} {g : α → Except ε δ} {x : Except ε γ}
    {y : Except ε δ} (matched : Matched S x y) :
    Matched S (if c then throw e >>= f else x) (if c then throw e >>= g else y) := by
  split
  · exact .error e
  · exact matched

theorem of_error {e : ε} {y : Except ε β} (matched : Matched R (.error e) y) : y = .error e := by
  cases matched
  rfl

theorem of_ok {a : α} {y : Except ε β} (matched : Matched R (.ok a) y) : ∃ b, y = .ok b ∧ R a b := by
  cases matched with
  | ok related => exact ⟨_, rfl, related⟩

theorem eq {x y : Except ε α} (matched : Matched Eq x y) : x = y := by
  cases matched with
  | error e => rfl
  | ok same => rw [same]

end Matched

-- They differ in handles at most.
def Container.Twin (c d : Container) : Prop :=
  ∃ installed, d = { c with installed } ∧ installed.map Installed.plain = c.installed.map Installed.plain

def Container.plain (c : Container) : Container := { c with installed := c.installed.map Installed.plain }

theorem Container.Twin.plain {c d : Container} (twin : c.Twin d) : d.plain = c.plain := by
  obtain ⟨installed, rfl, same⟩ := twin
  unfold Container.plain
  rw [same]

theorem Container.twin_of_plain {c d : Container} (same : d.plain = c.plain) : c.Twin d := by
  unfold Container.plain at same
  obtain ⟨⟩ := d
  obtain ⟨⟩ := c
  simp only [Container.mk.injEq] at same
  obtain ⟨rfl, rfl, rfl, rfl, rfl, rfl, rfl, rfl, installed⟩ := same
  exact ⟨_, rfl, installed⟩

structure SameAt (r q : ContainerRegistry) (id : ContainerId) : Prop where
  live : (q.live.get? id).map Container.plain = (r.live.get? id).map Container.plain
  gone : q.isDestroyed id = r.isDestroyed id

namespace SameAt

variable {r q : ContainerRegistry} {id : ContainerId}

theorem cases (same : SameAt r q id) :
    (r.live.get? id = none ∧ q.live.get? id = none) ∨
      ∃ c d, r.live.get? id = some c ∧ q.live.get? id = some d ∧ c.Twin d := by
  have live := same.live
  cases one : r.live.get? id with
  | none =>
      rw [one] at live
      exact .inl ⟨rfl, Option.map_eq_none_iff.mp live⟩
  | some c =>
      rw [one] at live
      obtain ⟨d, two, plain⟩ := Option.map_eq_some_iff.mp live
      exact .inr ⟨c, d, rfl, two, Container.twin_of_plain plain⟩

theorem contains (same : SameAt r q id) : q.contains id = r.contains id := by
  unfold ContainerRegistry.contains Dict.contains
  rcases same.cases with ⟨one, two⟩ | ⟨c, d, one, two, _⟩
  · rw [one, two]
  · rw [one, two]
    rfl

theorem get (same : SameAt r q id) : Matched Container.Twin (r.get id) (q.get id) := by
  unfold ContainerRegistry.get
  rcases same.cases with ⟨one, two⟩ | ⟨c, d, one, two, twin⟩
  · rw [one, two]
    exact .error _
  · rw [one, two]
    exact .ok twin

theorem getFor (same : SameAt r q id) (aim : String) :
    Matched Container.Twin (r.getFor id aim) (q.getFor id aim) := by
  unfold ContainerRegistry.getFor
  rw [same.gone, same.contains]
  split
  · exact .error _
  · exact same.get

theorem modify (same : SameAt r q id) {f g : Container → Container}
    (change : ∀ c d, c.Twin d → (f c).Twin (g d)) : SameAt (r.modify id f) (q.modify id g) id := by
  refine ⟨?_, ?_⟩
  · rw [ContainerRegistry.get?_modify, ContainerRegistry.get?_modify, if_pos rfl, if_pos rfl]
    rcases same.cases with ⟨one, two⟩ | ⟨c, d, one, two, twin⟩
    · rw [one, two]
      rfl
    · rw [one, two]
      exact congrArg some (change c d twin).plain
  · unfold ContainerRegistry.isDestroyed
    rw [ContainerRegistry.modify_destroyed, ContainerRegistry.modify_destroyed]
    exact same.gone

end SameAt

namespace ContainerRegistry

variable {r q : ContainerRegistry}

-- Whether a container is there decides whether it can be had.
theorem getFor_congr {id : ContainerId} (there : q.contains id = r.contains id)
    (gone : q.isDestroyed id = r.isDestroyed id) (aim : String) :
    Matched (fun _ _ => True) (r.getFor id aim) (q.getFor id aim) := by
  unfold getFor
  rw [gone, there]
  split
  · exact .error _
  · unfold get
    unfold contains Dict.contains at there
    cases one : r.live.get? id with
    | none =>
        rw [one] at there
        rw [Option.not_isSome_iff_eq_none.mp (Bool.eq_false_iff.mp there)]
        exact .error _
    | some c =>
        rw [one] at there
        obtain ⟨d, two⟩ := Option.isSome_iff_exists.mp there
        rw [two]
        exact .ok trivial

theorem planted_destroyed (r : ContainerRegistry) (c : Container) :
    (r.planted c).destroyed = r.destroyed.erase c.identity := by
  unfold planted
  rw [linkChild_eq, relinked_destroyed]

end ContainerRegistry

namespace Deployment

variable {s t : Deployment} {me : Thread} {caller : Option String} {id : ContainerId}

theorem Beside.active (beside : Beside s t) : t.containerService = s.containerService :=
  beside.same (·.containerService) fun _ _ _ _ => rfl

theorem Beside.current (beside : Beside s t) : t.checkNotCurrent = s.checkNotCurrent :=
  beside.same (·.checkNotCurrent) fun _ _ _ _ => rfl

theorem Beside.permitted (beside : Beside s t) : t.permitContainer = s.permitContainer :=
  beside.same (·.permitContainer) fun _ _ _ _ => rfl

theorem Beside.assignable (beside : Beside s t) : t.checkAssignable = s.checkAssignable :=
  beside.same (·.checkAssignable) fun _ _ _ _ => rfl

theorem Beside.defaults (beside : Beside s t) :
    t.defaultVersion = s.defaultVersion ∧ t.settings = s.settings :=
  beside.same (fun u => u.defaultVersion = s.defaultVersion ∧ u.settings = s.settings)
    (fun _ _ _ _ => rfl) ▸ ⟨rfl, rfl⟩

-- All that an operation on this one container has to do with.
structure Near (s t : Deployment) (id : ContainerId) : Prop where
  beside : Beside s t
  terms : t.provisioner.terms = s.provisioner.terms
  own : SameAt s.containers t.containers id

structure SameEnd (id : ContainerId) (x y : Outcome Container) : Prop where
  result : Matched Container.Twin x.1 y.1
  own : SameAt x.2.containers y.2.containers id

theorem Near.refused (near : Near s t id) (e : OperationError) :
    SameEnd id (.error e, s) (.error e, t) := ⟨.error e, near.own⟩

theorem Near.forChange (near : Near s t id) (me : Thread) (aim : String) :
    Matched Container.Twin (s.forChange me id aim) (t.forChange me id aim) := by
  unfold Deployment.forChange
  rw [near.beside.permitted]
  exact .after _ fun _ => near.own.getFor aim

theorem Near.settle (near : Near s t id) {x y : Except OperationError (Container × Deployment)}
    (matched : Matched (fun a b => a.1.Twin b.1 ∧ SameAt a.2.containers b.2.containers id) x y) :
    SameEnd id (s.settle x) (t.settle y) := by
  cases matched with
  | error e => exact near.refused e
  | ok related => exact ⟨.ok related.1, related.2⟩

theorem Near.changed (near : Near s t id) {c d : Container} (twin : c.Twin d) :
    SameAt (s.modify id fun _ => c).containers (t.modify id fun _ => d).containers id :=
  near.own.modify fun _ _ _ => twin

theorem Near.stopContainer (near : Near s t id) (me : Thread) :
    SameEnd id (s.stopContainer me id) (t.stopContainer me id) := by
  unfold Deployment.stopContainer
  rw [near.beside.active, near.beside.current]
  refine near.settle (.after _ fun _ => .after _ fun _ => .bind (near.forChange me _) ?_)
  rintro c _ ⟨installed, rfl, same⟩
  refine .after _ fun _ => ?_
  have twin : Container.Twin { c with state := .stopped } { c with state := .stopped, installed } :=
    ⟨installed, rfl, same⟩
  exact .ok ⟨twin, near.changed twin⟩

theorem Near.dress {change : Container → Container} (twins : ∀ c d : Container, c.Twin d → (change c).Twin (change d))
    (near : Near s t id) (me : Thread) (aim : String) :
    SameEnd id (s.dress me id aim change) (t.dress me id aim change) := by
  unfold Deployment.dress
  rw [near.beside.active]
  refine near.settle (.after _ fun _ => .bind (near.forChange me _) fun c d twin => ?_)
  exact .ok ⟨twins c d twin, near.changed (twins c d twin)⟩

theorem Near.addEndpoint (near : Near s t id) (me : Thread) (endpoint : Endpoint) :
    SameEnd id (s.addEndpoint me id endpoint) (t.addEndpoint me id endpoint) := by
  refine near.dress (fun c _ twin => ?_) me "add-endpoint"
  obtain ⟨installed, rfl, same⟩ := twin
  exact ⟨installed, rfl, same⟩

theorem Near.setAttribute (near : Near s t id) (me : Thread) (key value : String) :
    SameEnd id (s.setAttribute me id key value) (t.setAttribute me id key value) := by
  refine near.dress (fun c _ twin => ?_) me "set-attribute"
  obtain ⟨installed, rfl, same⟩ := twin
  exact ⟨installed, rfl, same⟩

theorem Beside.prepareRemoval (beside : Beside s t) (me : Thread) {c d : Container} (twin : c.Twin d)
    (remaining : List ProfileId) :
    Matched Container.Twin (s.prepareRemoval me c remaining) (t.prepareRemoval me d remaining) := by
  have permitted : t.permitVersion = s.permitVersion := beside.same (·.permitVersion) fun _ _ _ _ => rfl
  have listed : t.checkListed = s.checkListed := beside.same (·.checkListed) fun _ _ _ _ => rfl
  obtain ⟨installed, rfl, same⟩ := twin
  unfold Deployment.prepareRemoval
  rw [permitted, listed, beside.defaults.2]
  dsimp only
  cases c.version with
  | none => exact .ok ⟨installed, rfl, same⟩
  | some v =>
      refine .after _ fun _ => ?_
      split
      · exact .after _ fun _ => .ok ⟨installed, rfl, same⟩
      · exact .ok ⟨installed, rfl, same⟩

theorem Near.announce (near : Near s t id) (caller : Option String) (e : ProvisionEvent) :
    Near (s.announce caller e) (t.announce caller e) id := by
  obtain ⟨⟨_, _, _, _, rfl⟩, terms, own⟩ := near
  exact ⟨⟨_, _, _, _, rfl⟩, terms, own⟩

section Passes

variable (near : Near s t id) (one : s.Ledger) (two : t.Ledger)
  (willing : s.provisioner.repository.failing = [])

include near one two willing

theorem Near.reconcile (caller : Option String) {c d : Container} (live : s.containers.live.get? id = some c)
    (live' : t.containers.live.get? id = some d) (twin : c.Twin d) (merged : Profile) :
    (t.reconcile caller d merged).1 = (s.reconcile caller c merged).1 ∧
      SameAt (s.reconcile caller c merged).2.containers (t.reconcile caller d merged).2.containers id := by
  obtain ⟨present, rfl, same⟩ := twin
  have runtime : t.settings = s.settings := near.beside.defaults.2
  obtain ⟨outcome, installed⟩ := Provisioner.reconcile_congr (one.split live) (two.split live') near.terms
    willing same s.settings.runtime merged
  have named : c.identity = id := one.named id c live
  refine ⟨?_, ?_⟩
  · rw [reconcile_outcome, reconcile_outcome, passOf, passOf, runtime]
    exact congrArg _ outcome
  · rw [reconcile_containers, reconcile_containers, passOf, passOf, runtime]
    dsimp only
    rw [named]
    refine near.own.modify ?_
    rintro a _ ⟨_, rfl, _⟩
    exact ⟨_, rfl, installed⟩

theorem Near.provision (me : Thread) (caller : Option String) :
    (t.provision me caller id).1 = (s.provision me caller id).1 ∧
      SameAt (s.provision me caller id).2.containers (t.provision me caller id).2.containers id := by
  have computed : t.effectiveFor = s.effectiveFor :=
    near.beside.same (·.effectiveFor) fun _ _ _ _ => rfl
  unfold Deployment.provision
  rcases near.own.cases with ⟨live, live'⟩ | ⟨c, d, live, live', twin⟩
  · rw [live, live']
    exact ⟨rfl, near.own⟩
  · have assignment : d.isStarted = c.isStarted ∧ d.version = c.version ∧ d.profiles = c.profiles := by
      obtain ⟨_, rfl, _⟩ := twin
      exact ⟨rfl, rfl, rfl⟩
    obtain ⟨started, version, profiles⟩ := assignment
    rw [live, live', computed]
    dsimp only
    rw [started, version, profiles]
    cases c.isStarted with
    | false => exact ⟨rfl, near.own⟩
    | true =>
        cases c.version with
        | none => exact ⟨rfl, near.own⟩
        | some v =>
            dsimp only
            cases s.effectiveFor me v c.profiles with
            | error e => exact ⟨rfl, (near.announce caller _).own⟩
            | ok merged => exact near.reconcile one two willing caller live live' twin merged

theorem Near.changeAndProvision (me : Thread) (caller : Option String) {c d changed changed' : Container}
    (live : s.containers.live.get? id = some c) (live' : t.containers.live.get? id = some d)
    (reassigned : Reassigned s me c changed) (reassigned' : Reassigned t me d changed')
    (twin : changed.Twin changed') :
    SameEnd id (s.changeAndProvision me caller changed) (t.changeAndProvision me caller changed') := by
  have named : changed.identity = id := reassigned.unmoved.1.trans (one.named id c live)
  have named' : changed'.identity = id := reassigned'.unmoved.1.trans (two.named id d live')
  have ready := one.reassign live reassigned.unmoved
  have ready' := two.reassign live' reassigned'.unmoved
  rw [named] at ready
  rw [named'] at ready'
  have moved : Near (s.modify id fun _ => changed) (t.modify id fun _ => changed') id := by
    refine ⟨?_, near.terms, near.changed twin⟩
    obtain ⟨_, _, _, _, rfl⟩ := near.beside
    exact ⟨_, _, _, _, rfl⟩
  have passed := moved.provision ready ready' willing me caller
  unfold Deployment.changeAndProvision
  rw [named, named']
  rcases first : (s.modify id fun _ => changed).provision me caller id with ⟨x, s'⟩
  rcases second : (t.modify id fun _ => changed').provision me caller id with ⟨y, t'⟩
  rw [first, second] at passed
  obtain ⟨result, own⟩ := passed
  cases result
  cases x with
  | error e => exact ⟨.error e, own⟩
  | ok _ => exact ⟨own.get, own⟩

theorem Near.assign (me : Thread) (caller : Option String) {x y : Except OperationError Container}
    (matched : Matched Container.Twin x y)
    (prepared : ∀ changed, x = .ok changed →
      ∃ c, s.containers.live.get? id = some c ∧ Reassigned s me c changed)
    (prepared' : ∀ changed, y = .ok changed →
      ∃ c, t.containers.live.get? id = some c ∧ Reassigned t me c changed) :
    SameEnd id (s.assign me caller x) (t.assign me caller y) := by
  cases matched with
  | error e => exact near.refused e
  | ok twin =>
      obtain ⟨c, live, reassigned⟩ := prepared _ rfl
      obtain ⟨d, live', reassigned'⟩ := prepared' _ rfl
      exact near.changeAndProvision one two willing me caller live live' reassigned reassigned' twin

theorem Near.startContainer (me : Thread) (caller : Option String) :
    SameEnd id (s.startContainer me id caller) (t.startContainer me id caller) := by
  have matched : Matched Container.Twin (s.prepareStart me id) (t.prepareStart me id) := by
    obtain ⟨version, settings⟩ := near.beside.defaults
    unfold prepareStart
    rw [near.beside.active, near.beside.assignable, version, settings]
    refine .after _ fun _ => .bind (near.forChange me _) ?_
    rintro c _ ⟨installed, rfl, same⟩
    exact .after _ fun _ => .after _ fun _ => .ok ⟨installed, rfl, same⟩
  exact near.assign one two willing me caller matched (fun _ => prepareStart_ok) fun _ => prepareStart_ok

theorem Near.assignVersion (me : Thread) (caller : Option String) (v : Version) :
    SameEnd id (s.assignVersion me id v caller) (t.assignVersion me id v caller) := by
  have matched : Matched Container.Twin (s.prepareVersionChange me id v) (t.prepareVersionChange me id v) := by
    unfold prepareVersionChange
    rw [near.beside.active, near.beside.assignable]
    refine .after _ fun _ => .bind (near.forChange me _) ?_
    rintro c _ ⟨installed, rfl, same⟩
    exact .after _ fun _ => .ok ⟨installed, rfl, same⟩
  exact near.assign one two willing me caller matched (fun _ => prepareVersionChange_ok)
    fun _ => prepareVersionChange_ok

theorem Near.addProfiles (me : Thread) (caller : Option String) (ids : List ProfileId) :
    SameEnd id (s.addProfiles me id ids caller) (t.addProfiles me id ids caller) := by
  have matched : Matched Container.Twin (s.prepareAddition me id ids) (t.prepareAddition me id ids) := by
    unfold prepareAddition
    rw [near.beside.active, near.beside.assignable, near.beside.defaults.1]
    refine .after _ fun _ => .bind (near.forChange me _) ?_
    rintro c _ ⟨installed, rfl, same⟩
    exact .after _ fun _ => .ok ⟨installed, rfl, same⟩
  exact near.assign one two willing me caller matched (fun _ => prepareAddition_ok) fun _ => prepareAddition_ok

theorem Near.removeProfiles (me : Thread) (caller : Option String) (ids : List ProfileId) :
    SameEnd id (s.removeProfiles me id ids caller) (t.removeProfiles me id ids caller) := by
  have found : Matched Container.Twin
      (do s.containerService.check; s.forChange me id "remove-profiles")
      (do t.containerService.check; t.forChange me id "remove-profiles") := by
    rw [near.beside.active]
    exact .after _ fun _ => near.forChange me _
  have live : ∀ c, (do s.containerService.check; s.forChange me id "remove-profiles") = .ok c →
      s.containers.live.get? id = some c := by
    intro c passed
    obtain ⟨_, _, passed⟩ := bind_eq_ok.mp passed
    exact forChange_live passed
  have live' : ∀ d, (do t.containerService.check; t.forChange me id "remove-profiles") = .ok d →
      t.containers.live.get? id = some d := by
    intro d passed
    obtain ⟨_, _, passed⟩ := bind_eq_ok.mp passed
    exact forChange_live passed
  unfold Deployment.removeProfiles
  generalize (do s.containerService.check; s.forChange me id "remove-profiles") = x at found live
  generalize (do t.containerService.check; t.forChange me id "remove-profiles") = y at found live'
  cases found with
  | error e => exact near.refused e
  | @ok c d twin =>
      have assignment : d.version = c.version ∧ d.profiles = c.profiles := by
        obtain ⟨_, rfl, _⟩ := twin
        exact ⟨rfl, rfl⟩
      dsimp only
      rw [assignment.2]
      split
      · exact ⟨.ok twin, near.own⟩
      · refine near.assign one two willing me caller (near.beside.prepareRemoval me twin _) ?_ ?_
        · exact fun _ prepared => ⟨c, live c rfl, prepareRemoval_ok prepared⟩
        · intro changed prepared
          rw [← assignment.2] at prepared
          exact ⟨d, live' d rfl, prepareRemoval_ok prepared⟩

end Passes

theorem Beside.checkParent (beside : Beside s t) (me : Thread) {parent : Option ContainerId}
    (there : ∀ p, parent = some p →
      t.containers.contains p = s.containers.contains p ∧ t.containers.isDestroyed p = s.containers.isDestroyed p) :
    t.checkParent me parent = s.checkParent me parent := by
  cases parent with
  | none => rfl
  | some p =>
      obtain ⟨contains, gone⟩ := there p rfl
      unfold Deployment.checkParent Deployment.forChange
      rw [beside.permitted]
      have found : Matched (fun _ _ => True)
          (do s.permitContainer me p .write; t.containers.getFor p "link-child")
          (do s.permitContainer me p .write; s.containers.getFor p "link-child") :=
        .after _ fun _ => ContainerRegistry.getFor_congr contains.symm gone.symm _
      exact (found.bind fun _ _ _ => .ok rfl).eq

-- Of its parent a new container needs to know only whether it is there.
theorem Near.create {r : ContainerRequest} (near : Near s t r.identity) (me : Thread)
    (parent : ∀ p, r.parent = some p →
      t.containers.contains p = s.containers.contains p ∧ t.containers.isDestroyed p = s.containers.isDestroyed p) :
    SameEnd r.identity (s.create me r) (t.create me r) := by
  have checked : t.checkRequest me r = s.checkRequest me r := by
    have version : t.requestedVersion r = s.requestedVersion r :=
      near.beside.same (·.requestedVersion r) fun _ _ _ _ => rfl
    unfold checkRequest
    rw [near.beside.active, near.beside.permitted, near.beside.assignable, near.beside.checkParent me parent,
      near.own.contains, version]
  have made : t.newContainer r = s.newContainer r := near.beside.same (·.newContainer r) fun _ _ _ _ => rfl
  rcases one : s.create me r with ⟨x, s'⟩
  rcases two : t.create me r with ⟨y, t'⟩
  have first := one
  have second := two
  rw [create_eq] at first
  rw [create_eq, checked, made] at second
  cases passed : s.checkRequest me r with
  | error e =>
      rw [passed] at first second
      cases first
      cases second
      exact near.refused e
  | ok _ =>
      rw [passed] at first second
      cases first
      cases second
      obtain ⟨absent, _, _, attached, _⟩ := create_planted one
      obtain ⟨absent', _, _, attached', _⟩ := create_planted two
      refine ⟨.ok ⟨_, rfl, rfl⟩, ?_, ?_⟩
      · have here := ContainerRegistry.get?_planted_self absent attached
        have here' := ContainerRegistry.get?_planted_self absent' attached'
        exact congrArg (Option.map Container.plain) (here'.trans here.symm)
      · change (t.containers.planted (s.newContainer r)).isDestroyed _ =
          (s.containers.planted (s.newContainer r)).isDestroyed _
        unfold ContainerRegistry.isDestroyed
        rw [ContainerRegistry.planted_destroyed, ContainerRegistry.planted_destroyed]
        have clear : ∀ ks : KeySet ContainerId, (ks.erase r.identity).contains r.identity = false := by
          intro ks
          simp [Dict.contains]
        exact (clear _).trans (clear _).symm

theorem destroy_eq (ledger : s.Ledger) {changed : Container} (caller : Option String)
    (prepared : s.prepareDestruction me id = .ok changed) :
    s.destroy me id caller =
      (.ok { changed with state := .destroyed, installed := [] }, s.removed caller changed id) := by
  obtain ⟨c, live, same⟩ := prepareDestruction_ok prepared
  have installed : changed.installed = c.installed := by rw [same]; split <;> rfl
  have done : (s.provisioner.releaseAll changed.installed).outcome = .ok () :=
    installed ▸ (Provisioner.releaseAll_balanced (ledger.split live)).1
  unfold destroy
  rw [prepared]
  dsimp only
  rw [done]
  dsimp only
  rw [Provisioner.releaseAll_installed done]
  rfl

section Removed

variable (caller : Option String) (c : Container)

theorem get?_removed (s : Deployment) (id other : ContainerId) :
    (s.removed caller c id).containers.live.get? other =
      if other = id then none
      else (s.containers.live.get? other).map fun d =>
        { d with children := if c.parent = some other then d.children.erase id else d.children } := by
  unfold removed
  dsimp only
  rw [ContainerRegistry.unlinkChild_eq, ContainerRegistry.get?_relinked, ContainerRegistry.get?_remove]
  by_cases same : other = id
  · rw [if_pos same, if_pos same]
    rfl
  · rw [if_neg same, if_neg same]
    change ((s.containers.modify id _).live.get? other).map _ = _
    rw [ContainerRegistry.get?_modify, if_neg same]

theorem removed_destroyed {d : Container} (live : s.containers.live.get? id = some d) :
    (s.removed caller c id).containers.destroyed = KeySet.add s.containers.destroyed id := by
  unfold removed
  dsimp only
  rw [ContainerRegistry.unlinkChild_eq, ContainerRegistry.relinked_destroyed]
  change ((s.containers.modify id _).remove id).destroyed = _
  unfold ContainerRegistry.remove ContainerRegistry.contains Dict.contains
  rw [ContainerRegistry.get?_modify, if_pos rfl, live]
  exact congrArg (KeySet.add · id) (s.containers.modify_destroyed id _)

end Removed

theorem Near.prepareDestruction (near : Near s t id) (me : Thread) :
    Matched Container.Twin (s.prepareDestruction me id) (t.prepareDestruction me id) := by
  unfold Deployment.prepareDestruction
  rw [near.beside.active, near.beside.current, near.beside.permitted]
  refine .after _ fun _ => .after _ fun _ => .bind (near.own.getFor _) ?_
  intro c d twin
  have halted : Container.Twin (if c.isStarted then { c with state := .stopped } else c)
      (if d.isStarted then { d with state := .stopped } else d) := by
    obtain ⟨installed, rfl, same⟩ := twin
    have running : ({ c with installed } : Container).isStarted = c.isStarted := rfl
    rw [running]
    cases c.isStarted with
    | true => exact ⟨installed, rfl, same⟩
    | false => exact ⟨installed, rfl, same⟩
  have place : d.parent = c.parent ∧ d.children = c.children ∧ d.state = c.state := by
    obtain ⟨_, rfl, _⟩ := twin
    exact ⟨rfl, rfl, rfl⟩
  obtain ⟨parent, children, state⟩ := place
  generalize (if c.isStarted then { c with state := .stopped } else c) = stopped at halted ⊢
  generalize (if d.isStarted then { d with state := .stopped } else d) = stopped' at halted ⊢
  rw [parent, children, state]
  cases c.parent with
  | none => exact .after _ fun _ => .after _ fun _ => .guard (.ok halted)
  | some p => exact .after _ fun _ => .after _ fun _ => .after _ fun _ => .guard (.ok halted)

theorem Near.destroy (near : Near s t id) (one : s.Ledger) (two : t.Ledger) (me : Thread)
    (caller : Option String) : SameEnd id (s.destroy me id caller) (t.destroy me id caller) := by
  have matched := near.prepareDestruction me
  cases first : s.prepareDestruction me id with
  | error e =>
      rw [first] at matched
      unfold Deployment.destroy
      rw [first, matched.of_error]
      exact near.refused e
  | ok changed =>
      rw [first] at matched
      obtain ⟨changed', second, twin⟩ := matched.of_ok
      rw [destroy_eq one caller first, destroy_eq two caller second]
      obtain ⟨c, live, _⟩ := prepareDestruction_ok first
      obtain ⟨d, live', _⟩ := prepareDestruction_ok second
      obtain ⟨_, rfl, same⟩ := twin
      refine ⟨.ok ⟨[], rfl, rfl⟩, ?_, ?_⟩
      · rw [get?_removed, get?_removed, if_pos rfl, if_pos rfl]
      · have buried : ∀ ks : KeySet ContainerId, (KeySet.add ks id).contains id = true := by
          intro ks
          exact Dict.contains_insert.mpr (.inl rfl)
        unfold ContainerRegistry.isDestroyed
        rw [removed_destroyed caller _ live, removed_destroyed caller _ live']
        exact (buried _).trans (buried _).symm

end Deployment

-- The container that an operation is addressed to.
def Operation.subject? : Operation → Option ContainerId
  | .create r => some r.identity
  | .startContainer id | .stopContainer id | .destroy id | .assignVersion id _ | .addProfiles id _
  | .removeProfiles id _ | .addEndpoint id _ | .setAttribute id _ _ => some id
  | _ => none

-- Its parent: named by the request for a new one, recorded for any other.
def Operation.parentIn (r : ContainerRegistry) : Operation → Option ContainerId
  | .create q => q.parent
  | op => (op.subject?.bind r.live.get?).bind (·.parent)

def Reply.plain : Reply → Reply
  | .container c => .container c.plain
  | .containers cs => .containers (cs.map Container.plain)
  | reply => reply

namespace Deployment

variable {s t : Deployment} {id : ContainerId} {op : Operation}

theorem SameEnd.reply {x y : Outcome Container} (ends : SameEnd id x y) :
    (acting .container y).1.map Reply.plain = (acting .container x).1.map Reply.plain ∧
      SameAt (acting .container x).2.containers (acting .container y).2.containers id := by
  obtain ⟨result, own⟩ := ends
  refine ⟨?_, own⟩
  obtain ⟨x, _⟩ := x
  obtain ⟨y, _⟩ := y
  cases result with
  | error e => rfl
  | ok twin =>
      exact congrArg (fun c : Container => (.ok (.container c) : Except OperationError Reply)) twin.plain

theorem Near.perform (near : Near s t id) (one : s.Ledger) (two : t.Ledger)
    (willing : s.provisioner.repository.failing = []) (subject : op.subject? = some id)
    (parent : ∀ p, op.parentIn s.containers = some p →
      t.containers.contains p = s.containers.contains p ∧ t.containers.isDestroyed p = s.containers.isDestroyed p)
    (me : Thread) (caller : Option String) :
    (t.perform me caller op).1.map Reply.plain = (s.perform me caller op).1.map Reply.plain ∧
      SameAt (s.perform me caller op).2.containers (t.perform me caller op).2.containers id := by
  cases op with
  | create r =>
      cases subject
      exact (near.create me parent).reply
  | startContainer _ =>
      cases subject
      exact (near.startContainer one two willing me caller).reply
  | stopContainer _ =>
      cases subject
      exact (near.stopContainer me).reply
  | destroy _ =>
      cases subject
      exact (near.destroy one two me caller).reply
  | assignVersion _ v =>
      cases subject
      exact (near.assignVersion one two willing me caller v).reply
  | addProfiles _ ids =>
      cases subject
      exact (near.addProfiles one two willing me caller ids).reply
  | removeProfiles _ ids =>
      cases subject
      exact (near.removeProfiles one two willing me caller ids).reply
  | addEndpoint _ endpoint =>
      cases subject
      exact (near.addEndpoint me endpoint).reply
  | setAttribute _ key value =>
      cases subject
      exact (near.setAttribute me key value).reply
  | _ => cases subject

end Deployment
end ContainerProfiles
