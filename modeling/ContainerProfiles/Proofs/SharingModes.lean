import ContainerProfiles.Proofs.Agendas

namespace ContainerProfiles

-- Whether a resource is tracked as a shared one.

theorem Profile.desired_of_shared {p : Profile} {env : Environment} {r : ResourceId} (shared : p.sharedMode r = true) :
    r ∈ p.desired env := by
  unfold sharedMode at shared
  cases last : (p.explicitItems.filter (·.resource.identity = r)).getLast? with
  | none =>
      rw [last] at shared
      cases shared
  | some item =>
      obtain ⟨explicit, named⟩ := List.mem_filter.mp (List.mem_of_getLast? last)
      refine List.mem_append_right _ (List.mem_map.mpr ⟨item, explicit, ?_⟩)
      exact of_decide_eq_true named

-- What a pass leaves, compared with what its profile declares and with what was there before.
structure FollowsMode (effective : Profile) (env : Environment) (before left : List Installed) : Prop where
  ids : ∀ r, r ∈ Provisioner.resourceIds left ↔ r ∈ effective.desired env
  kept : ∀ i ∈ before, i.identity ∈ effective.desired env → i ∈ left
  new : ∀ i ∈ left, i ∈ before ∨
    i.identity ∉ Provisioner.resourceIds before ∧ i.shared = effective.sharedMode i.identity
  declared : ∀ r ∈ effective.desired env, (∀ i ∈ left, i.identity = r → i.shared = effective.sharedMode r) ↔
    ∀ i ∈ before, i.identity = r → i.shared = effective.sharedMode r

namespace Provisioner

variable {p : Provisioner} {runtime : RuntimeType} {effective : Profile} {installed : List Installed}
  {inUse : ResourceId → Bool} {pass : Pass} {i : Installed}

theorem Orderly.cases (orderly : p.Orderly runtime effective installed inUse pass) :
    p.Idle installed pass ∨ ∃ plan performed rest, Planned effective p.repository.environment plan ∧
      p.Progress installed inUse (agenda installed plan) pass performed rest := by
  cases configured : (p.applyConfigurations runtime effective.configurationItems).1 with
  | error e => exact .inl (orderly.misconfigured e configured).2
  | ok _ =>
      by_cases resolved :
          ((effective.environment p.repository.environment).resolve effective.requirements).unsatisfied = []
      · exact .inr (orderly.followed configured resolved)
      · exact .inl (orderly.unresolved resolved)

-- However far the pass gets, what it installs is in the mode of its profile.
theorem Orderly.new (orderly : p.Orderly runtime effective installed inUse pass) (left : i ∈ pass.installed) :
    i ∈ installed ∨ i.identity ∉ resourceIds installed ∧ i.shared = effective.sharedMode i.identity := by
  rcases orderly.cases with idle | ⟨plan, performed, rest, planned, progress⟩
  · exact .inl (idle.installed ▸ left)
  · obtain ⟨new, parted, modes⟩ := progress.tracked
    rw [parted] at left
    refine (List.mem_append.mp left).imp List.mem_of_mem_filter fun fresh => ?_
    have listed : (i.identity, i.shared) ∈ new.map fun i => (i.identity, i.shared) :=
      List.mem_map.mpr ⟨i, fresh, rfl⟩
    rw [modes] at listed
    obtain ⟨w, installs, same⟩ := List.mem_map.mp listed
    obtain ⟨named, mode⟩ := Prod.mk.inj same
    have step : .install w ∈ agenda installed plan :=
      progress.parted ▸ List.mem_append_left rest (mem_wanted.mp installs)
    obtain ⟨asked, missing⟩ := install_mem_agenda.mp step
    rw [← named, ← mode]
    exact ⟨missing, planned.mode asked⟩

-- And it never takes away what the profile wants.
theorem Orderly.kept (orderly : p.Orderly runtime effective installed inUse pass) (there : i ∈ installed)
    (wanted : i.identity ∈ effective.desired p.repository.environment) : i ∈ pass.installed := by
  rcases orderly.cases with idle | ⟨plan, performed, rest, planned, progress⟩
  · exact idle.installed ▸ there
  · obtain ⟨new, parted, _⟩ := progress.tracked
    have stays : i ∉ released performed := by
      intro gone
      have step : .release i ∈ agenda installed plan :=
        progress.parted ▸ List.mem_append_left rest (mem_released.mp gone)
      refine (release_mem_agenda.mp step).2 ?_
      rw [planned.ids, List.mem_eraseDups]
      exact wanted
    rw [parted]
    exact List.mem_append_left _ (List.mem_filter.mpr ⟨there, decide_eq_true stays⟩)

theorem reconcile_followsMode
    (orderly : p.Orderly runtime effective installed inUse (p.reconcile runtime effective installed))
    (done : (p.reconcile runtime effective installed).outcome = .ok ()) :
    FollowsMode effective p.repository.environment installed (p.reconcile runtime effective installed).installed := by
  refine ⟨fun r => reconcile_ids done, fun i => orderly.kept, fun i => orderly.new, fun r wanted => ⟨?_, ?_⟩⟩
  · intro modes i there named
    exact modes i (orderly.kept there (named ▸ wanted)) named
  · intro modes i left named
    rcases orderly.new left with old | ⟨_, mode⟩
    · exact modes i old named
    · exact named ▸ mode

end Provisioner

namespace Deployment

variable {s t u : Deployment} {last : ContainerId → Option LastPass} {id : ContainerId} {c : Container}
  {pass : LastPass} {i : Installed} {r : ResourceId}

-- A pass on the way to `t` installed it, as the profile of that pass has it.
def Placed (s t : Deployment) (id : ContainerId) (i : Installed) : Prop :=
  ∃ u c caller effective, s.Later u ∧ u.containers.live.get? c.identity = some c ∧ c.identity = id ∧
    i.identity ∉ c.installedIds ∧ i ∈ (u.passOf c effective).installed ∧
    i.shared = effective.sharedMode i.identity ∧ (u.reconcile caller c effective).2.Later t

theorem Placed.later (placed : s.Placed t id i) (later : t.Later u) : s.Placed u id i := by
  obtain ⟨v, c, caller, effective, before, live, named, absent, left, mode, after⟩ := placed
  exact ⟨v, c, caller, effective, before, live, named, absent, left, mode, after.trans later⟩

section Run

variable (start : s.forgiving.Ledger) (empty : ∀ id, s.containers.live.get? id = none) (history : s.History t last)
include start empty history

theorem History.follows : ∀ id c, t.containers.live.get? id = some c → ∀ pass, last id = some pass → pass.succeeded →
    FollowsMode pass.effective pass.offer pass.before c.installed := by
  refine history.every (P := fun _ _ known installed => ∀ pass, known = some pass → pass.succeeded →
    FollowsMode pass.effective pass.offer pass.before installed) ?_ empty ?_ ?_ ?_
  · exact fun _ _ _ _ _ _ holds => holds
  · exact fun _ _ _ none => by cases none
  · exact fun _ _ _ _ _ _ _ _ none => by cases none
  · intro t last c caller effective before live _ pass known done
    cases known
    exact Provisioner.reconcile_followsMode ((before.ledger start).orderly live effective) done

theorem History.placed : ∀ id c, t.containers.live.get? id = some c → ∀ i ∈ c.installed, s.Placed t id i := by
  refine history.every (P := fun t id _ installed => ∀ i ∈ installed, s.Placed t id i) ?_ empty ?_ ?_ ?_
  · exact fun _ _ _ _ _ on holds i there => (holds i there).later on
  · exact fun _ _ _ none => by cases none
  · exact fun _ _ _ _ _ fewer holds i there => holds i (fewer there)
  · intro t last c caller effective before live holds i left
    have on : t.Later (t.reconcile caller c effective).2 := ⟨_, .passed caller effective .start live⟩
    rcases ((before.ledger start).orderly live effective).new left with old | ⟨absent, mode⟩
    · exact (holds i old).later on
    · exact ⟨t, c, caller, effective, ⟨_, before⟩, live, rfl, absent, left, mode, .refl _⟩

end Run

-- The last pass over the container went through, for a profile that shares the resource, and it was not there for the
-- container alone.
structure Shares (t : Deployment) (last : ContainerId → Option LastPass) (r : ResourceId) (id : ContainerId)
    (c : Container) (pass : LastPass) : Prop where
  live : t.containers.live.get? id = some c
  passed : last id = some pass
  succeeded : pass.succeeded
  shared : pass.effective.sharedMode r = true
  common : ∀ i ∈ pass.before, i.identity = r → i.shared = true

theorem Shares.tracked (shares : t.Shares last r id c pass)
    (follows : FollowsMode pass.effective pass.offer pass.before c.installed) :
    r ∈ c.installedIds ∧ ∀ i ∈ c.installed, i.identity = r → i.shared = true := by
  have wanted : r ∈ pass.effective.desired pass.offer := Profile.desired_of_shared shares.shared
  have declared := follows.declared r wanted
  rw [shares.shared] at declared
  exact ⟨(follows.ids r).mpr wanted, declared.mpr shares.common⟩

theorem Conserves.installed_once (conserves : t.Conserves)
    (known : ∀ id c pass, t.Shares last r id c pass →
      FollowsMode pass.effective pass.offer pass.before c.installed)
    (one : ∃ id c pass, t.Shares last r id c pass)
    (all : ∀ id c, t.containers.live.get? id = some c → r ∈ c.installedIds → ∃ pass, t.Shares last r id c pass) :
    t.provisioner.repository.installs.count r = t.provisioner.repository.uninstalls.count r + 1 := by
  have alone : t.containers.list.countP (·.tracks r false) = 0 := by
    refine List.countP_eq_zero.mpr fun c member tracks => ?_
    obtain ⟨id, live⟩ := Dict.mem_values.mp member
    obtain ⟨i, there, both⟩ := List.any_eq_true.mp tracks
    obtain ⟨named, mode⟩ := Bool.and_eq_true_iff.mp both
    have named : i.identity = r := of_decide_eq_true named
    obtain ⟨pass, shares⟩ := all id c live (List.mem_map.mpr ⟨i, there, named⟩)
    have shared := (shares.tracked (known id c pass shares)).2 i there named
    cases shared.symm.trans (of_decide_eq_true mode)
  have together : t.containers.list.any (·.tracks r true) = true := by
    obtain ⟨id, c, pass, shares⟩ := one
    obtain ⟨tracked, modes⟩ := shares.tracked (known id c pass shares)
    obtain ⟨i, there, named⟩ := List.mem_map.mp tracked
    refine List.any_eq_true.mpr ⟨c, Dict.mem_values.mpr ⟨id, shares.live⟩, List.any_eq_true.mpr ⟨i, there, ?_⟩⟩
    rw [named, modes i there named]
    simp
  rw [(conserves.1 r).1, alone, if_pos together]

-- What holds of the modes after any history: for the next pass, for the last one, and for all that is tracked.
structure KeepsModes (s t : Deployment) (last : ContainerId → Option LastPass) : Prop where
  passes : ∀ id c effective, t.containers.live.get? id = some c → (t.passOf c effective).outcome = .ok () →
    FollowsMode effective t.provisioner.repository.environment c.installed (t.passOf c effective).installed
  since : ∀ id c, t.containers.live.get? id = some c → ∀ pass, last id = some pass → pass.succeeded →
    FollowsMode pass.effective pass.offer pass.before c.installed
  placed : ∀ id c, t.containers.live.get? id = some c → ∀ i ∈ c.installed, s.Placed t id i
  once : ∀ r, (∃ id c pass, t.Shares last r id c pass) →
    (∀ id c, t.containers.live.get? id = some c → r ∈ c.installedIds → ∃ pass, t.Shares last r id c pass) →
    t.provisioner.repository.installs.count r = t.provisioner.repository.uninstalls.count r + 1

theorem history_keepsModes {supplied : Environment} {failing : List ResourceId}
    (built : build chosen stored { repository := { environment := supplied, failing } } heard time = .ok s)
    (history : s.History t last) : s.KeepsModes t last := by
  have start := build_forgiving built
  have ledger := history.ledger start
  have follows := history.follows start (build_empty built)
  refine ⟨fun id c effective live done => ?_, follows, history.placed start (build_empty built), fun r => ?_⟩
  · exact Provisioner.reconcile_followsMode (ledger.orderly live effective) done
  · have conserves : t.Conserves := ledger.conserves
    exact conserves.installed_once fun id c pass shares =>
      follows id c shares.live pass shares.passed shares.succeeded

theorem history_keepsModes_shared :
    ∃ s t last c pass, build {} (staged [declaring "site" true] { name := "repository" }).store
        { repository := { environment := { name := "repository" }, failing := [] } } {} "" = .ok s ∧
      s.History t last ∧ t.Shares last "app:1.0.0" "a" c pass ∧ s.KeepsModes t last := by
  let before := unprovisionedOver [declaring "site" true]
  have built := build_staged [declaring "site" true] { name := "repository" }
  have done : (before.passOf createdStarted (siteMerged true)).outcome = .ok () := by
    have once : (Provisioner.resourceIds createdStarted.installed).Nodup := List.nodup_nil
    rw [passOf, Provisioner.reconcile_follows once rfl (plan_siteMerged rfl true)]
    rfl
  obtain ⟨last, staged⟩ := History.turns (build_forgiving built) staging
  have dressed : History _ before last := staged.dressed "a" fun c live => by
    cases live
    exact ⟨rfl, rfl⟩
  have passed := dressed.passed (c := createdStarted) none (siteMerged true) rfl
  have live : (before.reconcile none createdStarted (siteMerged true)).2.containers.live.get? "a" =
      some { createdStarted with installed := (before.passOf createdStarted (siteMerged true)).installed } := by
    rw [reconcile_containers, ContainerRegistry.get?_modify]
    rfl
  exact ⟨_, _, _, _, _, built, passed, ⟨live, if_pos rfl, done, rfl, nofun⟩, history_keepsModes built passed⟩

-- The container has the resource for itself, and it stays so when its profiles share the resource.
theorem changed_mode_stays :
    ∃ s c effective, build {} (staged mixed { name := "repository" }).store
        { repository := { environment := { name := "repository" }, failing := [] } } {} "" = .ok s ∧
      let before := s.turns (staging ++ [.action (.perform "main" none (.startContainer "a"))])
      let t := before.modify "a" fun _ => c
      before.prepareAddition "main" "a" ["web"] = .ok c ∧ t.containers.live.get? "a" = some c ∧
      c.state = .started ∧ t.effectiveFor "main" .first c.profiles = .ok effective ∧
      (t.passOf c effective).outcome = .ok () ∧ effective.sharedMode "app:1.0.0" = true ∧
      (t.passOf c effective).installed.map (fun i => (i.identity, i.shared)) = [("app:1.0.0", false)] := by
  let c : Container := { createdStarted with profiles := ["site", "web"], installed := [alone] }
  let t := provisionedMixed.modify "a" fun _ => c
  let effective := Profile.merge (Profile.effectiveIdentityFor .first ["site", "web"]) .first mixed
  have computed : t.effectiveFor "main" .first ["site", "web"] = .ok effective :=
    effectiveFor_of_walk rfl rfl (.fresh List.not_mem_nil List.not_mem_nil rfl .done
      (.fresh (by decide) List.not_mem_nil rfl .done .done))
  have planned : t.provisioner.plan effective = .ok [⟨{ identity := "app:1.0.0" }, true⟩] :=
    Provisioner.plan_unrequiring rfl
  have once : (Provisioner.resourceIds c.installed).Nodup := List.nodup_singleton _
  have passed : t.passOf c effective = ⟨.ok (), t.provisioner, [alone]⟩ := by
    rw [passOf, Provisioner.reconcile_follows once rfl planned]
    rfl
  refine ⟨_, c, effective, build_staged mixed _, ?_⟩
  rw [turns_provisionedMixed]
  refine ⟨rfl, rfl, rfl, computed, congrArg Pass.outcome passed, rfl, ?_⟩
  exact congrArg (fun p => p.installed.map fun i => (i.identity, i.shared)) passed

end Deployment
end ContainerProfiles
