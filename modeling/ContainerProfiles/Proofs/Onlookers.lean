import ContainerProfiles.Proofs.Runs

namespace ContainerProfiles.Deployment

-- Listeners only listen: deployments that differ in who listens, and in what was told so far, do the same in every
-- operation and stay that way over a whole run.

variable {s t u : Deployment} {me : Thread} {caller : Option String}

-- The same deployment up to who listens and what was told.
def Alike (s t : Deployment) : Prop := ∃ audience log, t = { s with audience, log }

structure AlikeOutcomes (x y : Outcome α) : Prop where
  result : x.1 = y.1
  next : Alike x.2 y.2

theorem Alike.refl (s : Deployment) : Alike s s := ⟨s.audience, s.log, rfl⟩

theorem Alike.symm (alike : Alike s t) : Alike t s := by
  obtain ⟨_, _, rfl⟩ := alike
  exact ⟨s.audience, s.log, rfl⟩

theorem Alike.trans (one : Alike s t) (two : Alike t u) : Alike s u := by
  obtain ⟨_, _, rfl⟩ := one
  obtain ⟨audience, log, rfl⟩ := two
  exact ⟨audience, log, rfl⟩

-- What does not look at the listeners cannot tell the two apart.
theorem Alike.same (alike : Alike s t) (look : Deployment → α)
    (blind : ∀ audience log, look { s with audience, log } = look s) : look t = look s := by
  obtain ⟨audience, log, rfl⟩ := alike
  exact blind audience log

theorem Alike.unchanged (alike : Alike s t) (result : Except OperationError α) :
    AlikeOutcomes (result, s) (result, t) := ⟨rfl, alike⟩

theorem announce_alike (s : Deployment) (caller : Option String) (e : ProvisionEvent) :
    Alike s (s.announce caller e) := ⟨_, _, rfl⟩

theorem announceProfile_alike (s : Deployment) (caller : Option String) (e : ProfileEvent) :
    Alike s (s.announceProfile caller e) := ⟨s.audience, _, rfl⟩

theorem Alike.announce (alike : Alike s t) (caller : Option String) (e : ProvisionEvent) :
    Alike (s.announce caller e) (t.announce caller e) :=
  ((s.announce_alike caller e).symm.trans alike).trans (t.announce_alike caller e)

theorem Alike.announceProfile (alike : Alike s t) (caller : Option String) (e : ProfileEvent) :
    Alike (s.announceProfile caller e) (t.announceProfile caller e) :=
  ((s.announceProfile_alike caller e).symm.trans alike).trans (t.announceProfile_alike caller e)

theorem Alike.modify (alike : Alike s t) (id : ContainerId) (change : Container → Container) :
    Alike (s.modify id change) (t.modify id change) := by
  obtain ⟨audience, log, rfl⟩ := alike
  exact ⟨audience, log, rfl⟩

theorem Alike.finishPass (alike : Alike s t) (id : ContainerId) (pass : Pass) :
    Alike (s.finishPass id pass) (t.finishPass id pass) := by
  obtain ⟨audience, log, rfl⟩ := alike
  exact ⟨audience, log, rfl⟩

theorem reconcile_finishes (s : Deployment) (caller : Option String) (c : Container) (merged : Profile) :
    Alike (s.finishPass c.identity (s.passOf c merged)) (s.reconcile caller c merged).2 := by
  unfold reconcile
  dsimp only
  split <;> exact ⟨_, _, rfl⟩

theorem Alike.reconcile (alike : Alike s t) (caller : Option String) (c : Container) (merged : Profile) :
    AlikeOutcomes (s.reconcile caller c merged) (t.reconcile caller c merged) := by
  have pass : t.passOf c merged = s.passOf c merged :=
    alike.same (·.passOf c merged) fun _ _ => rfl
  have last := t.reconcile_finishes caller c merged
  rw [pass] at last
  refine ⟨by rw [reconcile_outcome, reconcile_outcome, pass], ?_⟩
  exact ((s.reconcile_finishes caller c merged).symm.trans (alike.finishPass _ _)).trans last

theorem Alike.provision (alike : Alike s t) (me : Thread) (caller : Option String) (id : ContainerId) :
    AlikeOutcomes (s.provision me caller id) (t.provision me caller id) := by
  have live : t.containers = s.containers := alike.same (·.containers) fun _ _ => rfl
  have computed : t.effectiveFor me = s.effectiveFor me := alike.same (·.effectiveFor me) fun _ _ => rfl
  unfold Deployment.provision
  rw [live, computed]
  cases s.containers.live.get? id with
  | none => exact alike.unchanged _
  | some c =>
      dsimp only
      split
      · split
        · exact ⟨rfl, alike.announce caller _⟩
        · exact alike.reconcile caller c _
      · exact alike.unchanged _

theorem Alike.changeAndProvision (alike : Alike s t) (me : Thread) (caller : Option String)
    (changed : Container) :
    AlikeOutcomes (s.changeAndProvision me caller changed) (t.changeAndProvision me caller changed) := by
  have provisioned := (alike.modify changed.identity fun _ => changed).provision me caller changed.identity
  unfold Deployment.changeAndProvision
  rcases one : (s.modify changed.identity fun _ => changed).provision me caller changed.identity with ⟨x, s'⟩
  rcases two : (t.modify changed.identity fun _ => changed).provision me caller changed.identity with ⟨y, t'⟩
  rw [one, two] at provisioned
  obtain ⟨result, audience, log, next⟩ := provisioned
  cases result
  cases next
  cases x with
  | error e => exact ⟨rfl, audience, log, rfl⟩
  | ok _ => exact ⟨rfl, audience, log, rfl⟩

theorem Alike.reprovision (alike : Alike s t) (me : Thread) (caller : Option String) (p : Profile)
    (id : ContainerId) : Alike (s.reprovision me caller p id) (t.reprovision me caller p id) := by
  have inherits : (do t.permitContainer me id .write; t.inherits me (← t.containers.get id) p) =
      (do s.permitContainer me id .write; s.inherits me (← s.containers.get id) p) :=
    alike.same
      (fun u => do u.permitContainer me id .write; u.inherits me (← u.containers.get id) p) fun _ _ => rfl
  unfold Deployment.reprovision
  rw [inherits]
  generalize (do s.permitContainer me id .write; s.inherits me (← s.containers.get id) p) = found
  rcases found with _ | ⟨_ | _⟩
  · exact alike
  · exact alike
  · exact (alike.provision me caller id).next

theorem Alike.reprovisions (alike : Alike s t) (me : Thread) (caller : Option String) (p : Profile)
    (ids : List ContainerId) : Alike (ids.foldl (fun s id => s.reprovision me caller p id) s)
      (ids.foldl (fun t id => t.reprovision me caller p id) t) := by
  induction ids generalizing s t with
  | nil => exact alike
  | cons id rest ih => exact ih (alike.reprovision me caller p id)

theorem Alike.ofStore (alike : Alike s t) (result : α) (written : Except StoreError Unit × Store) :
    AlikeOutcomes (s.ofStore result written) (t.ofStore result written) := by
  obtain ⟨audience, log, rfl⟩ := alike
  obtain ⟨outcome, after⟩ := written
  cases outcome with
  | error e => exact ⟨rfl, audience, log, rfl⟩
  | ok _ => exact ⟨rfl, audience, log, rfl⟩

theorem Alike.addVersion (alike : Alike s t) (me : Thread) (listed : ProfileVersion)
    (profiles : List Profile) :
    AlikeOutcomes (s.addVersion me listed profiles) (t.addVersion me listed profiles) := by
  have checked : t.prepareVersion me listed profiles = s.prepareVersion me listed profiles :=
    alike.same (·.prepareVersion me listed profiles) fun _ _ => rfl
  have written : t.store = s.store := alike.same (·.store) fun _ _ => rfl
  have clock : t.clock = s.clock := alike.same (·.clock) fun _ _ => rfl
  unfold Deployment.addVersion
  rw [checked, written, clock]
  cases s.prepareVersion me listed profiles with
  | error e => exact alike.unchanged _
  | ok state => exact alike.ofStore _ _

theorem Alike.removeVersion (alike : Alike s t) (me : Thread) (v : Version) :
    AlikeOutcomes (s.removeVersion me v) (t.removeVersion me v) := by
  have checked : t.prepareVersionRemoval me v = s.prepareVersionRemoval me v :=
    alike.same (·.prepareVersionRemoval me v) fun _ _ => rfl
  have written : t.store = s.store := alike.same (·.store) fun _ _ => rfl
  unfold Deployment.removeVersion
  rw [checked, written]
  cases s.prepareVersionRemoval me v with
  | error e => exact alike.unchanged _
  | ok listed => exact alike.ofStore _ _

theorem Alike.addProfile (alike : Alike s t) (me : Thread) (p : Profile) :
    AlikeOutcomes (s.addProfile me p) (t.addProfile me p) := by
  have checked : t.prepareProfile me p = s.prepareProfile me p :=
    alike.same (·.prepareProfile me p) fun _ _ => rfl
  have written : t.store = s.store := alike.same (·.store) fun _ _ => rfl
  have clock : t.clock = s.clock := alike.same (·.clock) fun _ _ => rfl
  unfold Deployment.addProfile
  rw [checked, written, clock]
  cases s.prepareProfile me p with
  | error e => exact alike.unchanged _
  | ok _ => exact alike.ofStore _ _

theorem Alike.removeProfile (alike : Alike s t) (me : Thread) (v : Version) (id : ProfileId) :
    AlikeOutcomes (s.removeProfile me v id) (t.removeProfile me v id) := by
  have checked : t.prepareProfileRemoval me v id = s.prepareProfileRemoval me v id :=
    alike.same (·.prepareProfileRemoval me v id) fun _ _ => rfl
  have written : t.store = s.store := alike.same (·.store) fun _ _ => rfl
  unfold Deployment.removeProfile
  rw [checked, written]
  cases s.prepareProfileRemoval me v id with
  | error e => exact alike.unchanged _
  | ok p => exact alike.ofStore _ _

theorem Alike.replaceProfile (alike : Alike s t) (me : Thread) (p : Profile) (caller : Option String) :
    AlikeOutcomes (s.replaceProfile me p caller) (t.replaceProfile me p caller) := by
  have checked : t.prepareReplacement me p = s.prepareReplacement me p :=
    alike.same (·.prepareReplacement me p) fun _ _ => rfl
  have written : t.storeReplacement p = s.storeReplacement p :=
    alike.same (·.storeReplacement p) fun _ _ => rfl
  unfold Deployment.replaceProfile
  rw [checked, written]
  cases s.prepareReplacement me p with
  | error e => exact alike.unchanged _
  | ok _ =>
      rcases s.storeReplacement p with ⟨outcome, after⟩
      have stored : Alike { s with store := after } { t with store := after } := by
        obtain ⟨audience, log, rfl⟩ := alike
        exact ⟨audience, log, rfl⟩
      cases outcome with
      | error e => exact ⟨rfl, stored.announceProfile caller _⟩
      | ok _ => exact ⟨rfl, stored.announceProfile caller _⟩

-- One step of an operation that leaves everything as it was unless all of it succeeds.
theorem Alike.settle_bind (alike : Alike s t) {x : Except OperationError α}
    {f g : α → Except OperationError (β × Deployment)}
    (goes : ∀ a, AlikeOutcomes (s.settle (f a)) (t.settle (g a))) :
    AlikeOutcomes (s.settle (x >>= f)) (t.settle (x >>= g)) := by
  cases x with
  | error e => exact alike.unchanged _
  | ok a => exact goes a

theorem Alike.create (alike : Alike s t) (me : Thread) (r : ContainerRequest) :
    AlikeOutcomes (s.create me r) (t.create me r) := by
  have first := alike
  obtain ⟨audience, log, rfl⟩ := alike
  refine first.settle_bind fun _ => first.settle_bind fun registry => ?_
  exact ⟨rfl, audience, log, rfl⟩

theorem Alike.stopContainer (alike : Alike s t) (me : Thread) (id : ContainerId) :
    AlikeOutcomes (s.stopContainer me id) (t.stopContainer me id) := by
  have first := alike
  obtain ⟨audience, log, rfl⟩ := alike
  refine first.settle_bind fun _ => first.settle_bind fun _ => first.settle_bind fun c => ?_
  refine first.settle_bind fun _ => ?_
  exact ⟨rfl, audience, log, rfl⟩

theorem Alike.dress (alike : Alike s t) (me : Thread) (id : ContainerId) (aim : String)
    (change : Container → Container) : AlikeOutcomes (s.dress me id aim change) (t.dress me id aim change) := by
  have first := alike
  obtain ⟨audience, log, rfl⟩ := alike
  refine first.settle_bind fun _ => first.settle_bind fun c => ?_
  exact ⟨rfl, audience, log, rfl⟩

theorem Alike.startContainer (alike : Alike s t) (me : Thread) (id : ContainerId) (caller : Option String) :
    AlikeOutcomes (s.startContainer me id caller) (t.startContainer me id caller) := by
  have checked : t.prepareStart me id = s.prepareStart me id :=
    alike.same (·.prepareStart me id) fun _ _ => rfl
  unfold Deployment.startContainer
  rw [checked]
  cases s.prepareStart me id with
  | error e => exact alike.unchanged _
  | ok c => exact alike.changeAndProvision me caller c

theorem Alike.destroy (alike : Alike s t) (me : Thread) (id : ContainerId) (caller : Option String) :
    AlikeOutcomes (s.destroy me id caller) (t.destroy me id caller) := by
  have checked : t.prepareDestruction me id = s.prepareDestruction me id :=
    alike.same (·.prepareDestruction me id) fun _ _ => rfl
  have acted : t.provisioner = s.provisioner := alike.same (·.provisioner) fun _ _ => rfl
  unfold Deployment.destroy
  rw [checked, acted]
  cases s.prepareDestruction me id with
  | error e => exact alike.unchanged _
  | ok c =>
      dsimp only
      split
      · exact ⟨rfl, ((alike.modify id fun _ => c).announce caller _).finishPass id _⟩
      · obtain ⟨audience, log, rfl⟩ := alike
        exact ⟨rfl, _, _, rfl⟩

theorem Alike.assignVersion (alike : Alike s t) (me : Thread) (id : ContainerId) (v : Version)
    (caller : Option String) :
    AlikeOutcomes (s.assignVersion me id v caller) (t.assignVersion me id v caller) := by
  have checked : t.prepareVersionChange me id v = s.prepareVersionChange me id v :=
    alike.same (·.prepareVersionChange me id v) fun _ _ => rfl
  unfold Deployment.assignVersion
  rw [checked]
  cases s.prepareVersionChange me id v with
  | error e => exact alike.unchanged _
  | ok c => exact alike.changeAndProvision me caller c

theorem Alike.addProfiles (alike : Alike s t) (me : Thread) (id : ContainerId) (ids : List ProfileId)
    (caller : Option String) :
    AlikeOutcomes (s.addProfiles me id ids caller) (t.addProfiles me id ids caller) := by
  have checked : t.prepareAddition me id ids = s.prepareAddition me id ids :=
    alike.same (·.prepareAddition me id ids) fun _ _ => rfl
  unfold Deployment.addProfiles
  rw [checked]
  cases s.prepareAddition me id ids with
  | error e => exact alike.unchanged _
  | ok c => exact alike.changeAndProvision me caller c

theorem Alike.removeProfiles (alike : Alike s t) (me : Thread) (id : ContainerId) (ids : List ProfileId)
    (caller : Option String) :
    AlikeOutcomes (s.removeProfiles me id ids caller) (t.removeProfiles me id ids caller) := by
  have found : (do t.containerService.check; t.forChange me id "remove-profiles") =
      (do s.containerService.check; s.forChange me id "remove-profiles") :=
    alike.same (fun u => do u.containerService.check; u.forChange me id "remove-profiles") fun _ _ => rfl
  have checked : t.prepareRemoval me = s.prepareRemoval me := alike.same (·.prepareRemoval me) fun _ _ => rfl
  unfold Deployment.removeProfiles
  rw [found, checked]
  cases (do s.containerService.check; s.forChange me id "remove-profiles") with
  | error e => exact alike.unchanged _
  | ok c =>
      dsimp only
      split
      · exact alike.unchanged _
      · cases s.prepareRemoval me c (c.profiles.filter (· ∉ ids)) with
        | error e => exact alike.unchanged _
        | ok changed => exact alike.changeAndProvision me caller changed

theorem Alike.updateProfile (alike : Alike s t) (me : Thread) (p : Profile) (caller : Option String) :
    AlikeOutcomes (s.updateProfile me p caller) (t.updateProfile me p caller) := by
  have active : t.containerService.check = s.containerService.check :=
    alike.same (·.containerService.check) fun _ _ => rfl
  have replaced := alike.replaceProfile me p none
  unfold Deployment.updateProfile
  rw [active]
  cases s.containerService.check with
  | error e => exact alike.unchanged _
  | ok _ =>
      rcases one : s.replaceProfile me p none with ⟨x, s'⟩
      rcases two : t.replaceProfile me p none with ⟨y, t'⟩
      rw [one, two] at replaced
      obtain ⟨result, next⟩ := replaced
      cases result
      cases x with
      | error e => exact next.unchanged _
      | ok q =>
          have users : t'.usersOf q.version (fun _ => true) = s'.usersOf q.version (fun _ => true) :=
            next.same (fun u => u.usersOf q.version (fun _ => true)) fun _ _ => rfl
          dsimp only
          rw [users]
          exact ⟨rfl, next.reprovisions me caller q _⟩

theorem AlikeOutcomes.andThen {x y : Outcome α} {f g : α → Deployment → Outcome β} (first : AlikeOutcomes x y)
    (goes : ∀ a s t, Alike s t → AlikeOutcomes (f a s) (g a t)) :
    AlikeOutcomes (Deployment.andThen x f) (Deployment.andThen y g) := by
  obtain ⟨one, s⟩ := x
  obtain ⟨two, t⟩ := y
  obtain ⟨result, next⟩ := first
  cases result
  cases one with
  | error e => exact next.unchanged _
  | ok a => exact goes a s t next

theorem Alike.ensureVersion (alike : Alike s t) (me : Thread) :
    AlikeOutcomes (s.ensureVersion me) (t.ensureVersion me) := by
  have listed : t.versions = s.versions := alike.same (·.versions) fun _ _ => rfl
  have version : t.defaultVersion = s.defaultVersion := alike.same (·.defaultVersion) fun _ _ => rfl
  unfold Deployment.ensureVersion
  rw [listed, version]
  cases s.versions with
  | error e => exact alike.unchanged _
  | ok versions =>
      dsimp only
      split
      · exact alike.unchanged _
      · exact (alike.addVersion me _ []).andThen fun _ _ _ later => later.unchanged _

theorem Alike.ensureProfile (alike : Alike s t) (me : Thread) :
    AlikeOutcomes (s.ensureProfile me) (t.ensureProfile me) := by
  have listed : t.getVersion me = s.getVersion me := alike.same (·.getVersion me) fun _ _ => rfl
  have version : t.defaultVersion = s.defaultVersion := alike.same (·.defaultVersion) fun _ _ => rfl
  have chosen : t.settings = s.settings := alike.same (·.settings) fun _ _ => rfl
  unfold Deployment.ensureProfile
  rw [listed, version, chosen]
  cases s.getVersion me s.defaultVersion with
  | error e => exact alike.unchanged _
  | ok listed =>
      dsimp only
      split
      · exact alike.unchanged _
      · split
        · exact alike.unchanged _
        · exact (alike.addProfile me _).andThen fun _ _ _ later => later.unchanged _

theorem Alike.ensureContainer (alike : Alike s t) (me : Thread) :
    AlikeOutcomes (s.ensureContainer me) (t.ensureContainer me) := by
  have version : t.defaultVersion = s.defaultVersion := alike.same (·.defaultVersion) fun _ _ => rfl
  have chosen : t.settings = s.settings := alike.same (·.settings) fun _ _ => rfl
  have live : t.containers = s.containers := alike.same (·.containers) fun _ _ => rfl
  unfold Deployment.ensureContainer
  rw [version, chosen, live]
  refine AlikeOutcomes.andThen ?_ fun _ s' t' later => ?_
  · split
    · exact alike.unchanged _
    · exact (alike.create me _).andThen fun _ _ _ later => later.unchanged _
  · have found : t'.getContainer me = s'.getContainer me := later.same (·.getContainer me) fun _ _ => rfl
    rw [found]
    cases s'.getContainer me s.settings.currentContainer with
    | error e => exact later.unchanged _
    | ok c =>
        dsimp only
        split
        · exact later.unchanged _
        · exact later.startContainer me _ none

theorem Alike.start (alike : Alike s t) (me : Thread) : AlikeOutcomes (s.start me) (t.start me) := by
  have active : Alike
      { s with
        profileService := s.profileService.activate
        containerService := s.containerService.activate }
      { t with
        profileService := t.profileService.activate
        containerService := t.containerService.activate } := by
    obtain ⟨audience, log, rfl⟩ := alike
    exact ⟨audience, log, rfl⟩
  refine (active.ensureVersion me).andThen fun _ s t versioned => ?_
  refine (versioned.ensureProfile me).andThen fun _ s t profiled => ?_
  refine (profiled.ensureContainer me).andThen fun c s t contained => ⟨rfl, ?_⟩
  obtain ⟨audience, log, rfl⟩ := contained
  exact ⟨audience, log, rfl⟩

theorem Alike.stop (alike : Alike s t) : Alike s.stop t.stop := by
  obtain ⟨audience, log, rfl⟩ := alike
  exact ⟨audience, log, rfl⟩

theorem Alike.perform (alike : Alike s t) (me : Thread) (caller : Option String) (op : Operation) :
    AlikeOutcomes (s.perform me caller op) (t.perform me caller op) := by
  have acted : ∀ {α : Type} (answer : α → Reply) {x y : Outcome α}, AlikeOutcomes x y →
      AlikeOutcomes (acting answer x) (acting answer y) :=
    fun answer _ _ both => ⟨congrArg (Except.map answer) both.result, both.next⟩
  cases op with
  | start => exact acted _ (alike.start me)
  | stop => exact ⟨rfl, alike.stop⟩
  | addVersion listed profiles => exact acted _ (alike.addVersion me listed profiles)
  | removeVersion v => exact acted _ (alike.removeVersion me v)
  | addProfile p => exact acted _ (alike.addProfile me p)
  | replaceProfile p => exact acted _ (alike.replaceProfile me p caller)
  | removeProfile v id => exact acted _ (alike.removeProfile me v id)
  | create r => exact acted _ (alike.create me r)
  | startContainer id => exact acted _ (alike.startContainer me id caller)
  | stopContainer id => exact acted _ (alike.stopContainer me id)
  | destroy id => exact acted _ (alike.destroy me id caller)
  | assignVersion id v => exact acted _ (alike.assignVersion me id v caller)
  | addProfiles id ids => exact acted _ (alike.addProfiles me id ids caller)
  | removeProfiles id ids => exact acted _ (alike.removeProfiles me id ids caller)
  | updateProfile p => exact acted _ (alike.updateProfile me p caller)
  | addEndpoint id endpoint => exact acted _ (alike.dress me id "add-endpoint" _)
  | setAttribute id key value => exact acted _ (alike.dress me id "set-attribute" _)
  | _ =>
      -- questions leave everything as it was
      obtain ⟨audience, log, rfl⟩ := alike
      exact ⟨rfl, audience, log, rfl⟩

theorem Alike.locked (alike : Alike s t) (component : Component) (me : Thread) (key : String)
    (mode : LockMode) : Alike (s.locked (do component.check; s.lock me key mode))
      (t.locked (do component.check; t.lock me key mode)) := by
  obtain ⟨audience, log, rfl⟩ := alike
  cases component.check with
  | error e => exact ⟨audience, log, rfl⟩
  | ok _ =>
      unfold Deployment.lock
      dsimp only
      cases s.locks.acquire me key mode with
      | error e => exact ⟨audience, log, rfl⟩
      | ok taken => exact ⟨audience, log, rfl⟩

theorem Alike.act (alike : Alike s t) (a : Action) : Alike (s.act a) (t.act a) := by
  cases a with
  | perform me caller op => exact (alike.perform me caller op).next
  | lockContainer me id mode =>
      have active : t.containerService = s.containerService := alike.same (·.containerService) fun _ _ => rfl
      have taken := alike.locked s.containerService me (containerKey id) mode
      unfold Deployment.act lockContainer
      rw [active]
      exact taken
  | lockVersion me v mode =>
      have active : t.profileService = s.profileService := alike.same (·.profileService) fun _ _ => rfl
      have taken := alike.locked s.profileService me (versionKey v) mode
      unfold Deployment.act lockVersion
      rw [active]
      exact taken
  | _ =>
      obtain ⟨audience, log, rfl⟩ := alike
      exact ⟨_, _, rfl⟩

theorem Alike.run (alike : Alike s t) (actions : List Action) : Alike (s.run actions) (t.run actions) := by
  induction actions generalizing s t with
  | nil => exact alike
  | cons a rest ih => exact ih (alike.act a)

end ContainerProfiles.Deployment
