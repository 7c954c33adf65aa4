import ContainerProfiles.Proofs.Conservation
import ContainerProfiles.Proofs.Locality

namespace ContainerProfiles

-- Operations on two containers, neither of them the parent of the other, can be taken in either order.

-- What becomes of the key depends on whether it was there, and other keys stay.
def OnlyAt (id : ContainerId) (change : KeySet ContainerId → KeySet ContainerId) : Prop :=
  ∃ v : Option (Option Unit), ∀ ks k, (change ks).get? k = if k = id then v.getD (ks.get? k) else ks.get? k

theorem OnlyAt.comm {f g : KeySet ContainerId → KeySet ContainerId} {one two : ContainerId} (first : OnlyAt one f)
    (second : OnlyAt two g) (apart : one ≠ two) (ks : KeySet ContainerId) : f (g ks) = g (f ks) := by
  obtain ⟨v, first⟩ := first
  obtain ⟨w, second⟩ := second
  apply Dict.ext_get?
  intro k
  rw [first, second, second, first]
  by_cases here : k = one
  · rw [if_pos here, if_neg (here ▸ apart), if_neg (here ▸ apart), if_pos here]
  · rw [if_neg here, if_neg here]

-- An operation that succeeds writes a new child down, or strikes a destroyed one out.
def Operation.regroup (op : Operation) (r : ContainerRegistry) (x : Except OperationError Reply)
    (other : ContainerId) (children : KeySet ContainerId) : KeySet ContainerId :=
  match x, op with
  | .ok _, .create q => if op.parentIn r = some other then KeySet.add children q.identity else children
  | .ok _, .destroy id => if op.parentIn r = some other then children.erase id else children
  | _, _ => children

theorem OnlyAt.regroup {op : Operation} {id : ContainerId} (subject : op.subject? = some id)
    (r : ContainerRegistry) (x : Except OperationError Reply) (other : ContainerId) :
    OnlyAt id (op.regroup r x other) := by
  have idle : OnlyAt id (fun children => children) := ⟨none, fun ks k => (ite_self _).symm⟩
  cases x with
  | error e => cases op <;> exact idle
  | ok reply =>
      cases op with
      | create q =>
          cases subject
          unfold Operation.regroup
          dsimp only
          split
          · exact ⟨some (some ()), fun ks k => Dict.get?_insert ks q.identity k ()⟩
          · exact idle
      | destroy _ =>
          cases subject
          unfold Operation.regroup
          dsimp only
          split
          · exact ⟨some none, fun ks k => Dict.get?_erase ks id k⟩
          · exact idle
      | _ => exact idle

theorem Operation.regroup_apart {op : Operation} {r : ContainerRegistry} {other : ContainerId}
    (apart : op.parentIn r ≠ some other) (x : Except OperationError Reply) (children : KeySet ContainerId) :
    op.regroup r x other children = children := by
  unfold regroup
  split
  · exact if_neg apart
  · exact if_neg apart
  · rfl

theorem Operation.parentIn_congr {op : Operation} {id : ContainerId} (subject : op.subject? = some id)
    {r q : ContainerRegistry} (same : q.live.get? id = r.live.get? id) : op.parentIn q = op.parentIn r := by
  have recorded : (op.subject?.bind q.live.get?).bind (·.parent) =
      (op.subject?.bind r.live.get?).bind (·.parent) := by
    rw [subject, Option.bind_some, Option.bind_some, same]
  cases op <;> first | exact recorded | rfl

theorem Operation.regroup_congr {op : Operation} {r q : ContainerRegistry}
    (parent : op.parentIn q = op.parentIn r) {x y : Except OperationError Reply} {f : Reply → Reply}
    (result : y.map f = x.map f) : op.regroup q y = op.regroup r x := by
  funext other children
  unfold regroup
  cases x with
  | error e =>
      cases y with
      | error _ => rfl
      | ok _ => cases result
  | ok _ =>
      cases y with
      | error _ => cases result
      | ok _ =>
          rw [parent]
          cases op <;> rfl

namespace Deployment

variable {s t : Deployment} {me : Thread} {caller : Option String} {id : ContainerId} {op : Operation}

structure Local (s t : Deployment) (id : ContainerId)
    (regroup : ContainerId → KeySet ContainerId → KeySet ContainerId) : Prop where
  beside : Beside s t
  terms : t.provisioner.terms = s.provisioner.terms
  others : ∀ other, other ≠ id → t.containers.live.get? other =
    (s.containers.live.get? other).map fun d => { d with children := regroup other d.children }
  gone : ∀ other, other ≠ id → t.containers.isDestroyed other = s.containers.isDestroyed other

theorem Local.untouched {regroup : ContainerId → KeySet ContainerId → KeySet ContainerId}
    (moved : Local s t id regroup) {other : ContainerId} (apart : other ≠ id)
    (idle : ∀ children, regroup other children = children) :
    t.containers.live.get? other = s.containers.live.get? other := by
  rw [moved.others other apart, funext idle]
  exact congrFun Option.map_id _

-- No child comes or goes.
def Alone (s t : Deployment) (id : ContainerId) : Prop := Local s t id fun _ children => children

theorem alone_refl (s : Deployment) (id : ContainerId) : Alone s s id :=
  ⟨.refl s, rfl, fun _ _ => (congrFun Option.map_id _).symm, fun _ _ => rfl⟩

theorem Alone.trans (one : Alone s t id) (two : Alone t u id) : Alone s u id := by
  refine ⟨one.beside.trans two.beside, two.terms.trans one.terms, fun other apart => ?_, fun other apart => ?_⟩
  · rw [two.others other apart, one.others other apart, Option.map_map]
    rfl
  · exact (two.gone other apart).trans (one.gone other apart)

theorem alone_modify (s : Deployment) (id : ContainerId) (change : Container → Container) :
    Alone s (s.modify id change) id := by
  refine ⟨⟨_, _, _, _, rfl⟩, rfl, fun other apart => ?_, fun other _ => ?_⟩
  · change (s.containers.modify id change).live.get? other = _
    rw [ContainerRegistry.get?_modify, if_neg apart]
    exact (congrFun Option.map_id _).symm
  · change (s.containers.modify id change).destroyed.contains other = _
    rw [ContainerRegistry.modify_destroyed]
    rfl

theorem alone_reconcile (s : Deployment) (caller : Option String) (c : Container) (merged : Profile) :
    Alone s (s.reconcile caller c merged).2 c.identity := by
  have passed := alone_modify s c.identity fun d => { d with installed := (s.passOf c merged).installed }
  obtain ⟨audience, log, finished⟩ := s.reconcile_finishes caller c merged
  have terms := s.provisioner.reconcile_terms s.settings.runtime merged c.installed
  rw [finished]
  exact ⟨⟨_, _, _, _, rfl⟩, terms, passed.others, passed.gone⟩

theorem alone_provision (ledger : s.Ledger) (me : Thread) (caller : Option String) (id : ContainerId) :
    Alone s (s.provision me caller id).2 id := by
  refine s.provision_elim me caller (P := fun out => Alone s out.2 id) id ?_ ?_ ?_
  · exact fun _ => alone_refl s id
  · intro _ _ _ _ _ _ _
    have still := alone_refl s id
    exact ⟨⟨_, _, _, _, rfl⟩, rfl, still.others, still.gone⟩
  · intro c _ merged live _ _ _
    have reconciled := alone_reconcile s caller c merged
    rwa [ledger.named id c live] at reconciled

theorem Assigns.alone {out : Outcome Container} (assigns : s.Assigns me caller id out) (ledger : s.Ledger) :
    Alone s out.2 id := by
  cases assigns with
  | refused e => exact alone_refl s id
  | settled c => exact alone_refl s id
  | @assigned c changed live reassigned =>
      have named : changed.identity = id := reassigned.unmoved.1.trans (ledger.named id c live)
      have ready := ledger.reassign live reassigned.unmoved
      rw [changeAndProvision_snd]
      rw [named] at ready ⊢
      exact (alone_modify s id fun _ => changed).trans (alone_provision ready me caller id)

theorem Touches.alone {how : Container → Container → Prop} {out : Outcome Container}
    (touches : s.Touches id how out) : Alone s out.2 id := by
  cases touches with
  | refused e => exact alone_refl s id
  | touched live changed => exact alone_modify s id _

theorem create_local (s : Deployment) (me : Thread) (r : ContainerRequest) :
    Local s (s.create me r).2 r.identity
      ((Operation.create r).regroup s.containers ((s.create me r).1.map Reply.container)) := by
  rw [create_eq]
  cases s.checkRequest me r with
  | error e => exact alone_refl s r.identity
  | ok _ =>
      refine ⟨⟨_, _, _, _, rfl⟩, rfl, fun other apart => ?_, fun other apart => ?_⟩
      · exact ContainerRegistry.get?_planted_other (c := s.newContainer r) apart
      · change (s.containers.planted (s.newContainer r)).isDestroyed other = _
        unfold ContainerRegistry.isDestroyed Dict.contains
        rw [ContainerRegistry.planted_destroyed, Dict.get?_erase]
        exact congrArg Option.isSome (if_neg apart)

theorem destroy_local (ledger : s.Ledger) (me : Thread) (caller : Option String) (id : ContainerId) :
    Local s (s.destroy me id caller).2 id
      ((Operation.destroy id).regroup s.containers ((s.destroy me id caller).1.map Reply.container)) := by
  cases prepared : s.prepareDestruction me id with
  | error e =>
      have refused : s.destroy me id caller = (.error e, s) := by
        unfold destroy
        rw [prepared]
      rw [refused]
      exact alone_refl s id
  | ok changed =>
      obtain ⟨c, live, same⟩ := prepareDestruction_ok prepared
      have above : (Operation.destroy id).parentIn s.containers = changed.parent := by
        have recorded : (Operation.destroy id).parentIn s.containers = c.parent :=
          congrArg (fun found : Option Container => found.bind (·.parent)) live
        rw [recorded, same]
        split <;> rfl
      rw [destroy_eq ledger caller prepared]
      refine ⟨⟨_, _, _, _, rfl⟩, s.provisioner.releaseAll_terms changed.installed, fun other apart => ?_,
        fun other apart => ?_⟩
      · unfold Operation.regroup
        rw [get?_removed, if_neg apart, above]
        rfl
      · change (s.removed caller changed id).containers.isDestroyed other = _
        unfold ContainerRegistry.isDestroyed Dict.contains
        rw [removed_destroyed caller _ live]
        unfold KeySet.add
        rw [Dict.get?_insert, if_neg apart]

theorem perform_local (ledger : s.Ledger) (me : Thread) (caller : Option String)
    (subject : op.subject? = some id) :
    Local s (s.perform me caller op).2 id (op.regroup s.containers (s.perform me caller op).1) := by
  have idle : ∀ {op : Operation} {u : Deployment} {x : Except OperationError Reply}, Alone s u id →
      (∀ reply, op.regroup s.containers (.ok reply) = fun _ children => children) →
      Local s u id (op.regroup s.containers x) := by
    intro op u x alone same
    cases x with
    | error e => cases op <;> exact alone
    | ok reply => exact (same reply).symm ▸ alone
  cases op with
  | create r =>
      cases subject
      exact create_local s me r
  | destroy _ =>
      cases subject
      exact destroy_local ledger me caller id
  | startContainer _ =>
      cases subject
      exact idle ((s.startContainer_assigns me id caller).alone ledger) fun _ => rfl
  | assignVersion _ v =>
      cases subject
      exact idle ((s.assignVersion_assigns me id v caller).alone ledger) fun _ => rfl
  | addProfiles _ ids =>
      cases subject
      exact idle ((s.addProfiles_assigns me id ids caller).alone ledger) fun _ => rfl
  | removeProfiles _ ids =>
      cases subject
      exact idle ((s.removeProfiles_assigns me id ids caller).alone ledger) fun _ => rfl
  | stopContainer _ =>
      cases subject
      exact idle (s.stopContainer_touches me id).alone fun _ => rfl
  | addEndpoint _ endpoint =>
      cases subject
      exact idle (s.addEndpoint_touches me id endpoint).alone fun _ => rfl
  | setAttribute _ key value =>
      cases subject
      exact idle (s.setAttribute_touches me id key value).alone fun _ => rfl
  | _ => cases subject

-- What two orders have in common in the end.
structure Agree (s t : Deployment) : Prop where
  containers : t.containers.live.map Container.plain = s.containers.live.map Container.plain
  destroyed : t.containers.destroyed = s.containers.destroyed
  store : t.store = s.store
  users : ∀ id, t.provisioner.sharedUsers id = s.provisioner.sharedUsers id
  journal : ∀ id,
    (t.provisioner.repository.installs.count id : Int) - t.provisioner.repository.uninstalls.count id =
      s.provisioner.repository.installs.count id - s.provisioner.repository.uninstalls.count id

-- Each has the same answer in either order.
structure Interchange (s : Deployment) (x y : Deployment → Outcome Reply) : Prop where
  first : (x (y s).2).1.map Reply.plain = (x s).1.map Reply.plain
  second : (y (x s).2).1.map Reply.plain = (y s).1.map Reply.plain
  last : Agree (y (x s).2).2 (x (y s).2).2

theorem plain_tracks (c : Container) (id : ResourceId) (shared : Bool) :
    c.plain.tracks id shared = c.tracks id shared := by
  unfold Container.tracks Container.plain
  rw [List.any_map]
  rfl

-- Users and open installs follow from what the containers track, and handles are not tracked.
theorem Ledger.agree (one : s.Ledger) (two : t.Ledger)
    (same : t.containers.live.map Container.plain = s.containers.live.map Container.plain) :
    (∀ id, t.provisioner.sharedUsers id = s.provisioner.sharedUsers id) ∧ ∀ id,
      (t.provisioner.repository.installs.count id : Int) - t.provisioner.repository.uninstalls.count id =
        s.provisioner.repository.installs.count id - s.provisioner.repository.uninstalls.count id := by
  have listed : ∀ r : ContainerRegistry, r.list.map Container.plain = (r.live.map Container.plain).values := by
    intro r
    simp [ContainerRegistry.list, Dict.values, Dict.map]
  have counted : ∀ (r : ContainerRegistry) id shared,
      r.list.countP (·.tracks id shared) = (r.list.map Container.plain).countP (·.tracks id shared) := by
    intro r id shared
    rw [List.countP_map]
    exact List.countP_congr fun c _ => by simp [plain_tracks]
  have tracked : ∀ id shared, t.containers.list.countP (·.tracks id shared) =
      s.containers.list.countP (·.tracks id shared) := by
    intro id shared
    rw [counted, listed, same, ← listed, ← counted]
  have used : ∀ id, t.containers.list.any (·.tracks id true) = s.containers.list.any (·.tracks id true) := by
    intro id
    rw [Bool.eq_iff_iff, List.any_eq_true, List.any_eq_true, ← List.countP_pos_iff, ← List.countP_pos_iff, tracked]
  refine ⟨fun id => ?_, fun id => ?_⟩
  · rw [(two.conserves.1 id).2, (one.conserves.1 id).2, tracked]
  · have installs := (one.conserves.1 id).1
    have installs' := (two.conserves.1 id).1
    rw [tracked, used] at installs'
    omega

-- Two changes that touch different containers, taken in both orders.
theorem Local.cross {s₁ s₂ s₁₂ s₂₁ : Deployment} {one two : ContainerId}
    {f g : ContainerId → KeySet ContainerId → KeySet ContainerId} (apart : one ≠ two)
    (moved : Local s s₁ one f) (next : Local s₁ s₁₂ two g) (moved' : Local s s₂ two g)
    (next' : Local s₂ s₂₁ one f) (own : SameAt s₁.containers s₂₁.containers one)
    (own' : SameAt s₂.containers s₁₂.containers two) (only : ∀ other, OnlyAt one (f other))
    (only' : ∀ other, OnlyAt two (g other)) (idle : ∀ children, g one children = children)
    (idle' : ∀ children, f two children = children) (id : ContainerId) :
    SameAt s₁₂.containers s₂₁.containers id := by
  by_cases here : id = one
  · subst here
    refine ⟨?_, own.gone.trans (next.gone id apart).symm⟩
    rw [next.untouched apart idle]
    exact own.live
  · by_cases there : id = two
    · subst there
      refine ⟨?_, (next'.gone id here).trans own'.gone.symm⟩
      rw [next'.untouched here idle']
      exact own'.live.symm
    · refine ⟨?_, ?_⟩
      · have either : (fun d : Container => { d with children := f id (g id d.children) }) =
            fun d => { d with children := g id (f id d.children) } := by
          funext d
          rw [(only id).comm (only' id) apart]
        have met : s₂₁.containers.live.get? id = s₁₂.containers.live.get? id := by
          rw [next.others id there, moved.others id here, next'.others id here, moved'.others id there,
            Option.map_map, Option.map_map]
          exact congrArg (fun change => (s.containers.live.get? id).map change) either
        rw [met]
      · rw [next.gone id there, moved.gone id here, next'.gone id here, moved'.gone id there]

theorem agree_of_sameAt (one : s.Ledger) (two : t.Ledger) (beside : Beside s t)
    (same : ∀ id, SameAt s.containers t.containers id) : Agree s t := by
  have containers : t.containers.live.map Container.plain = s.containers.live.map Container.plain := by
    apply Dict.ext_get?
    intro id
    rw [Dict.get?_map, Dict.get?_map]
    exact (same id).live
  obtain ⟨users, journal⟩ := one.agree two containers
  exact ⟨containers, Dict.ext_contains fun id => (same id).gone, beside.same (·.store) fun _ _ _ _ => rfl, users, journal⟩

section Orders

variable {a b : Operation} {one two : ContainerId} (ledger : s.Ledger)
  (first : a.subject? = some one) (second : b.subject? = some two) (apart : one ≠ two)
  (you : Thread) (listener : Option String)

include ledger second apart

-- For the one container nothing has happened yet.
theorem near_after (below : b.parentIn s.containers ≠ some one) :
    (s.perform you listener b).2.containers.live.get? one = s.containers.live.get? one ∧
      Near s (s.perform you listener b).2 one := by
  have moved := perform_local ledger you listener second
  have untouched := moved.untouched apart (Operation.regroup_apart below _)
  exact ⟨untouched, moved.beside, moved.terms, congrArg _ untouched, moved.gone one apart⟩

include first

theorem perform_after (willing : s.provisioner.repository.failing = [])
    (above : a.parentIn s.containers ≠ some two) (below : b.parentIn s.containers ≠ some one)
    (me : Thread) (caller : Option String) :
    let later := (s.perform you listener b).2
    (later.perform me caller a).1.map Reply.plain = (s.perform me caller a).1.map Reply.plain ∧
      SameAt (s.perform me caller a).2.containers (later.perform me caller a).2.containers one ∧
      a.regroup later.containers (later.perform me caller a).1 =
        a.regroup s.containers (s.perform me caller a).1 := by
  intro later
  have moved := perform_local ledger you listener second
  obtain ⟨untouched, near⟩ := near_after ledger second apart you listener below
  have parent : ∀ p, a.parentIn s.containers = some p →
      later.containers.contains p = s.containers.contains p ∧
        later.containers.isDestroyed p = s.containers.isDestroyed p := by
    intro p named
    have other : p ≠ two := fun same => above (same ▸ named)
    refine ⟨?_, moved.gone p other⟩
    unfold ContainerRegistry.contains Dict.contains
    rw [moved.others p other, Option.isSome_map]
  obtain ⟨result, own⟩ := near.perform ledger (perform_ledger ledger you listener b) willing first parent me caller
  exact ⟨result, own, Operation.regroup_congr (Operation.parentIn_congr first untouched) result⟩

theorem perform_interchange (willing : s.provisioner.repository.failing = [])
    (above : a.parentIn s.containers ≠ some two) (below : b.parentIn s.containers ≠ some one)
    (me : Thread) (caller : Option String) :
    s.Interchange (·.perform me caller a) (·.perform you listener b) := by
  obtain ⟨result, own, same⟩ := perform_after ledger first second apart you listener willing above below me caller
  obtain ⟨result', own', same'⟩ :=
    perform_after ledger second first apart.symm me caller willing below above you listener
  have ready := perform_ledger ledger me caller a
  have ready' := perform_ledger ledger you listener b
  have moved := perform_local ledger me caller first
  have moved' := perform_local ledger you listener second
  have next := perform_local ready you listener second
  have next' := perform_local ready' me caller first
  rw [same'] at next
  rw [same] at next'
  refine ⟨result, result', agree_of_sameAt ?_ ?_ ?_ ?_⟩
  · exact perform_ledger ready you listener b
  · exact perform_ledger ready' me caller a
  · exact (moved.beside.trans next.beside).symm.trans (moved'.beside.trans next'.beside)
  · exact Local.cross apart moved next moved' next' own own' (OnlyAt.regroup first _ _)
      (OnlyAt.regroup second _ _) (Operation.regroup_apart below _) (Operation.regroup_apart above _)

end Orders

-- No resource is marked to fail, neither when it is installed nor when it is uninstalled.
def Untroubled (s : Deployment) : Prop :=
  s.provisioner.repository.failing = [] ∧ s.provisioner.refusals.uninstalls = ∅

theorem turns_interchange {ts : List Turn} {a b : Operation} {one two : ContainerId}
    (built : build chosen stored { repository := { environment, failing } } heard time = .ok s)
    (untroubled : (s.turns ts).Untroubled) (first : a.subject? = some one) (second : b.subject? = some two)
    (apart : one ≠ two) (above : a.parentIn (s.turns ts).containers ≠ some two)
    (below : b.parentIn (s.turns ts).containers ≠ some one)
    (me you : Thread) (caller listener : Option String) :
    (s.turns ts).Interchange (·.perform me caller a) (·.perform you listener b) := by
  obtain ⟨installs, uninstalls⟩ := untroubled
  have start : s.Ledger := build_ledger built
  -- Uninstalls may have been refused on the way here.
  have settled : (s.turns ts).forgiving.Ledger :=
    turns_keep (P := fun u => u.forgiving.Ledger) ((forgiving_eq start.balanced.willing).symm ▸ start)
      fun _ x _ ledger => turn_forgiving ledger x
  rw [forgiving_eq uninstalls] at settled
  exact perform_interchange settled first second apart you listener installs above below me caller

-- Whoever starts with this profile shares one resource with the others.
def pooling : Profile :=
  { identity := "default", version := .first
    items := [.resource { id := "pool", resource := { identity := "pool:1.0" }, shared := true }] }

theorem turns_interchange_siblings :
    ∃ s, build {} (.memory ⟨Dict.ofList [(.first, ⟨∅, Dict.ofList [("default", pooling)]⟩)]⟩)
        { repository := { environment := { name := "repository" }, failing := [] } } {} "" = .ok s ∧
      (s.turns [.switch true true, .action (.perform "main" none (.create { identity := "a" })),
        .action (.perform "main" none (.create { identity := "b", parent := some "a" })),
        .action (.perform "main" none (.create { identity := "c", parent := some "a" }))]).Interchange
        (·.perform "main" none (.startContainer "b")) (·.perform "other" none (.startContainer "c")) := by
  have built : build {} (.memory ⟨Dict.ofList [(.first, ⟨∅, Dict.ofList [("default", pooling)]⟩)]⟩)
      { repository := { environment := { name := "repository" }, failing := [] } } {} "" = .ok _ := rfl
  exact ⟨_, built, turns_interchange built ⟨rfl, rfl⟩ rfl rfl (by decide) (by decide) (by decide) _ _ _ _⟩

end Deployment
end ContainerProfiles
