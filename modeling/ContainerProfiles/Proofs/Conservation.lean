import ContainerProfiles.Proofs.Ledger
import ContainerProfiles.Proofs.PassedStarts

namespace ContainerProfiles

-- Conservation of resources over every run: the journal has one open install for every resource a container has
-- for itself and one for every resource that is shared, and no operation ever fails because something was
-- uninstalled before.

def OperationError.OfUninstall (e : OperationError) : Prop :=
  ∃ cause, e = .provision cause ∧ cause.OfUninstall

abbrev Clean (x : Except OperationError α) : Prop := Never OperationError.OfUninstall x

theorem Harmless.clean {x : Except OperationError α} (harmless : Harmless x) : Clean x := by
  rintro e failed ⟨cause, same, _⟩
  exact harmless e failed ⟨cause, same⟩

instance : OperationError.Foreign OperationError.OfUninstall := by
  constructor <;> simp [OperationError.OfUninstall]

namespace Deployment

variable {s : Deployment} (me : Thread) (caller : Option String)

theorem ofStore_clean (s : Deployment) (result : α) (written : Except StoreError Unit × Store) :
    Clean (s.ofStore result written).1 := by
  obtain ⟨outcome, store⟩ := written
  cases outcome with
  | error e => simp [ofStore, OperationError.OfUninstall]
  | ok _ => exact never_ok _

theorem andThen_clean {first : Outcome α} {second : α → Deployment → Outcome β} (begins : Clean first.1)
    (goes : ∀ x t, first = (.ok x, t) → Clean (second x t).1) : Clean (andThen first second).1 := by
  obtain ⟨outcome, t⟩ := first
  cases outcome with
  | error e => exact begins.failed rfl
  | ok x => exact goes x t rfl

theorem changeAndProvision_clean (ledger : s.Ledger) {id : ContainerId} {c changed : Container}
    (live : s.containers.live.get? id = some c) (reassigned : Reassigned s me c changed) :
    Clean (s.changeAndProvision me caller changed).1 := by
  unfold changeAndProvision
  split
  · rename_i e t failed
    refine (never_error e).mpr ?_
    rintro ⟨cause, rfl, bad⟩
    exact ((ledger.reassign live reassigned.unmoved).provision me caller _).2 cause (congrArg Prod.fst failed) bad
  · exact (get_harmless _ _).clean

theorem addVersion_clean (s : Deployment) (listed : ProfileVersion) (profiles : List Profile) :
    Clean (s.addVersion me listed profiles).1 := by
  unfold addVersion
  cases prepared : s.prepareVersion me listed profiles with
  | error e => exact (s.prepareVersion_never me listed profiles).failed prepared
  | ok _ => exact s.ofStore_clean _ _

theorem removeVersion_clean (s : Deployment) (v : Version) : Clean (s.removeVersion me v).1 := by
  unfold removeVersion
  cases prepared : s.prepareVersionRemoval me v with
  | error e => exact (s.prepareVersionRemoval_never me v).failed prepared
  | ok _ => exact s.ofStore_clean _ _

theorem addProfile_clean (s : Deployment) (p : Profile) : Clean (s.addProfile me p).1 := by
  unfold addProfile
  cases prepared : s.prepareProfile me p with
  | error e => exact (s.prepareProfile_never me p).failed prepared
  | ok _ => exact s.ofStore_clean _ _

theorem removeProfile_clean (s : Deployment) (v : Version) (id : ProfileId) :
    Clean (s.removeProfile me v id).1 := by
  unfold removeProfile
  cases prepared : s.prepareProfileRemoval me v id with
  | error e => exact (s.prepareProfileRemoval_never me v id).failed prepared
  | ok _ => exact s.ofStore_clean _ _

theorem replaceProfile_clean (s : Deployment) (p : Profile) : Clean (s.replaceProfile me p caller).1 := by
  unfold replaceProfile
  cases prepared : s.prepareReplacement me p with
  | error e => exact (s.prepareReplacement_never me p).failed prepared
  | ok _ =>
      rcases s.storeReplacement p with ⟨outcome, written⟩
      cases outcome with
      | error e => simp [ofStore, OperationError.OfUninstall]
      | ok _ => exact never_ok _

theorem create_clean (s : Deployment) (r : ContainerRequest) : Clean (s.create me r).1 :=
  s.settle_never (Harmless.clean (by simp))

theorem stopContainer_clean (s : Deployment) (id : ContainerId) : Clean (s.stopContainer me id).1 :=
  s.settle_never (Harmless.clean (by simp))

theorem addEndpoint_clean (s : Deployment) (id : ContainerId) (endpoint : Endpoint) :
    Clean (s.addEndpoint me id endpoint).1 := s.settle_never (Harmless.clean (by simp))

theorem setAttribute_clean (s : Deployment) (id : ContainerId) (key value : String) :
    Clean (s.setAttribute me id key value).1 := s.settle_never (Harmless.clean (by simp))

theorem assign_clean (ledger : s.Ledger) {id : ContainerId} {x : Except OperationError Container}
    (prepared : Harmless x)
    (reassigns : ∀ changed, x = .ok changed → ∃ c, s.containers.live.get? id = some c ∧ Reassigned s me c changed) :
    Clean (s.assign me caller x).1 := by
  cases x with
  | error e => exact prepared.clean
  | ok changed =>
      obtain ⟨c, live, reassigned⟩ := reassigns changed rfl
      exact changeAndProvision_clean me caller ledger live reassigned

theorem startContainer_clean (ledger : s.Ledger) (id : ContainerId) :
    Clean (s.startContainer me id caller).1 :=
  assign_clean me caller ledger (s.prepareStart_harmless me id) fun _ => prepareStart_ok

theorem assignVersion_clean (ledger : s.Ledger) (id : ContainerId) (v : Version) :
    Clean (s.assignVersion me id v caller).1 :=
  assign_clean me caller ledger (s.prepareVersionChange_harmless me id v) fun _ => prepareVersionChange_ok

theorem addProfiles_clean (ledger : s.Ledger) (id : ContainerId) (ids : List ProfileId) :
    Clean (s.addProfiles me id ids caller).1 :=
  assign_clean me caller ledger (s.prepareAddition_harmless me id ids) fun _ => prepareAddition_ok

theorem removeProfiles_clean (ledger : s.Ledger) (id : ContainerId) (ids : List ProfileId) :
    Clean (s.removeProfiles me id ids caller).1 := by
  unfold removeProfiles
  split
  · rename_i e refused
    have found : Harmless (do s.containerService.check; s.forChange me id "remove-profiles") := by simp
    exact found.clean.failed refused
  · rename_i c found
    obtain ⟨_, _, passed⟩ := bind_eq_ok.mp found
    dsimp only
    split
    · exact never_ok _
    · exact assign_clean me caller ledger (s.prepareRemoval_never me c _) fun _ prepared =>
        ⟨c, forChange_live passed, prepareRemoval_ok prepared⟩

theorem destroy_clean (ledger : s.Ledger) (id : ContainerId) : Clean (s.destroy me id caller).1 := by
  unfold destroy
  cases prepared : s.prepareDestruction me id with
  | error e => exact (s.prepareDestruction_harmless me id).clean.failed prepared
  | ok changed =>
      obtain ⟨c, live, same⟩ := prepareDestruction_ok prepared
      have installed : changed.installed = c.installed := by rw [same]; split <;> rfl
      have done := (Provisioner.releaseAll_balanced (ledger.split live)).1
      rw [← installed] at done
      dsimp only
      rw [done]
      exact never_ok _

theorem updateProfile_clean (s : Deployment) (p : Profile) : Clean (s.updateProfile me p caller).1 := by
  have replaced := s.replaceProfile_clean me none p
  unfold updateProfile
  cases checked : s.containerService.check with
  | error e => exact (component_never _).failed checked
  | ok _ =>
      rcases result : s.replaceProfile me p none with ⟨outcome, t⟩
      rw [result] at replaced
      cases outcome with
      | error e => exact replaced.failed rfl
      | ok _ => exact never_ok _

theorem ensureVersion_clean (s : Deployment) : Clean (s.ensureVersion me).1 := by
  unfold ensureVersion
  cases listed : s.versions with
  | error e => exact s.versions_never.failed listed
  | ok versions =>
      dsimp only
      split
      · exact never_ok _
      · exact andThen_clean (s.addVersion_clean me _ _) fun _ _ _ => never_ok _

theorem ensureProfile_clean (s : Deployment) : Clean (s.ensureProfile me).1 := by
  unfold ensureProfile
  cases listed : s.getVersion me s.defaultVersion with
  | error e => exact (s.getVersion_never me _).failed listed
  | ok _ =>
      dsimp only
      split
      · exact never_ok _
      · split
        · simp [OperationError.OfUninstall]
        · exact andThen_clean (s.addProfile_clean me _) fun _ _ _ => never_ok _

theorem ensureContainer_clean (ledger : s.Ledger) : Clean (s.ensureContainer me).1 := by
  unfold ensureContainer
  dsimp only
  refine andThen_clean ?_ fun _ t created => ?_
  · split
    · exact never_ok _
    · exact andThen_clean (s.create_clean me _) fun _ _ _ => never_ok _
  · have opened : t.Ledger := by
      have changes : Changes s t := by
        have last := congrArg Prod.snd created
        dsimp only at last
        rw [← last]
        split
        · exact .refl
        · exact andThen_changes (s.create_change me _) fun _ _ => .refl
      exact changes_keep ledger (fun _ _ => Change.ledger) changes
    cases found : t.getContainer me s.settings.currentContainer with
    | error e => exact (t.getContainer_harmless me _).clean.failed found
    | ok c =>
        dsimp only
        split
        · exact never_ok _
        · exact startContainer_clean me none opened _

theorem start_clean (ledger : s.Ledger) : Clean (s.start me).1 := by
  have switched : Ledger { s with
      profileService := s.profileService.activate
      containerService := s.containerService.activate } := ledger.frame rfl rfl
  unfold start
  refine andThen_clean (ensureVersion_clean me _) fun _ t versioned => ?_
  have first := changes_keep switched (fun _ _ => Change.ledger) (ensureVersion_changes _ me)
  rw [versioned] at first
  refine andThen_clean (t.ensureProfile_clean me) fun _ u profiled => ?_
  have second := changes_keep first (fun _ _ => Change.ledger) (t.ensureProfile_changes me)
  rw [profiled] at second
  exact andThen_clean (ensureContainer_clean me second) fun _ _ _ => never_ok _

theorem perform_clean (ledger : s.Ledger) (op : Operation) : Clean (s.perform me caller op).1 := by
  have looked : ∀ {α : Type} (answer : α → Reply) {r : Except OperationError α}, Clean r →
      Clean (s.looking answer r).1 := fun answer _ clean => (never_map answer).mpr clean
  cases op with
  | start => exact acting_never _ (start_clean me ledger)
  | stop => exact never_ok _
  | versions => exact looked _ s.versions_never
  | addVersion listed profiles => exact acting_never _ (s.addVersion_clean me listed profiles)
  | removeVersion v => exact acting_never _ (s.removeVersion_clean me v)
  | getVersion v => exact looked _ (s.getVersion_never me v)
  | addProfile p => exact acting_never _ (s.addProfile_clean me p)
  | replaceProfile p => exact acting_never _ (s.replaceProfile_clean me caller p)
  | removeProfile v id => exact acting_never _ (s.removeProfile_clean me v id)
  | getProfile v id => exact looked _ (s.getProfile_never me v id)
  | getProfiles v => exact looked _ (s.getProfiles_never me v)
  | effective v id => exact looked _ (s.effective_never me v id)
  | effectiveFor v ids => exact looked _ (s.effectiveFor_never me v ids)
  | lineage v ids => exact looked _ (s.lineage_never me v ids)
  | linked v id => exact looked _ (s.linked_never me v id)
  | checkAssignment handle v ids => exact looked _ (s.checkAssignment_never handle v ids)
  | create r => exact acting_never _ (s.create_clean me r)
  | startContainer id => exact acting_never _ (startContainer_clean me caller ledger id)
  | stopContainer id => exact acting_never _ (s.stopContainer_clean me id)
  | destroy id => exact acting_never _ (destroy_clean me caller ledger id)
  | assignVersion id v => exact acting_never _ (assignVersion_clean me caller ledger id v)
  | addProfiles id ids => exact acting_never _ (addProfiles_clean me caller ledger id ids)
  | removeProfiles id ids => exact acting_never _ (removeProfiles_clean me caller ledger id ids)
  | updateProfile p => exact acting_never _ (s.updateProfile_clean me caller p)
  | getContainer id => exact looked _ (s.getContainer_harmless me id).clean
  | listContainers => exact looked _ s.listContainers_harmless.clean
  | currentContainer => exact looked _ (s.currentContainer_harmless me).clean
  | containerEffective id => exact looked _ (s.containerEffective_harmless me id).clean
  | addEndpoint id endpoint => exact acting_never _ (s.addEndpoint_clean me id endpoint)
  | setAttribute id key value => exact acting_never _ (s.setAttribute_clean me id key value)

end Deployment

namespace Container

def tracks (c : Container) (id : ResourceId) (shared : Bool) : Bool :=
  c.installed.any (fun i => i.identity = id && i.shared = shared)

theorem countP_tracks {c : Container} (once : c.installedIds.Nodup) (id : ResourceId) (shared : Bool) :
    c.installed.countP (fun i => i.identity = id && i.shared = shared) =
      if c.tracks id shared then 1 else 0 := by
  have bound : c.installed.countP (fun i => i.identity = id && i.shared = shared) ≤ 1 := by
    calc c.installed.countP (fun i => i.identity = id && i.shared = shared)
        ≤ c.installed.countP (fun i => i.identity = id) :=
          List.countP_mono_left fun i _ both => (Bool.and_eq_true_iff.mp both).1
      _ = c.installedIds.count id := by
          rw [installedIds, List.count, List.countP_map]
          rfl
      _ ≤ 1 := List.nodup_iff_count.mp once id
  split
  · rename_i tracked
    obtain ⟨i, member, here⟩ := List.any_eq_true.mp tracked
    exact Nat.le_antisymm bound (List.countP_pos_iff.mpr ⟨i, member, here⟩)
  · rename_i untracked
    refine List.countP_eq_zero.mpr fun i member here => ?_
    exact untracked (List.any_eq_true.mpr ⟨i, member, here⟩)

end Container

theorem ContainerRegistry.countP_held {r : ContainerRegistry} (once : ∀ c ∈ r.list, c.installedIds.Nodup)
    (id : ResourceId) (shared : Bool) :
    r.held.countP (fun i => i.identity = id && i.shared = shared) = r.list.countP (·.tracks id shared) := by
  unfold held
  generalize r.list = containers at once
  induction containers with
  | nil => rfl
  | cons c rest ih =>
      rw [List.flatMap_cons, List.countP_append, List.countP_cons, Nat.add_comm]
      rw [Container.countP_tracks (once c List.mem_cons_self), ih fun d later => once d (.tail _ later)]

namespace Provisioner

-- One handle for each shared resource, under its identity.
theorem countP_shared {p : Provisioner} {held : List Installed} (balanced : p.Balanced held)
    (id : ResourceId) : (p.shared.values.map (·.handle)).countP (fun h => h.resource.identity = id) =
      if 0 < p.sharedUsers id then 1 else 0 := by
  have keyed : (p.shared.values.map (·.handle)).countP (fun h => h.resource.identity = id) =
      p.shared.keys.count id := by
    rw [Dict.values, Dict.keys, List.map_map, List.count, List.countP_map, List.countP_map]
    refine List.countP_congr fun e member => ?_
    have same := (balanced.common e.1 e.2 (Dict.mem_entries.mp member)).1
    simp [same]
  rw [keyed, List.Nodup.count p.shared.keys_nodup]
  refine ite_congr (propext ?_) (fun _ => rfl) fun _ => rfl
  rw [Dict.mem_keys, Dict.contains_iff]
  constructor
  · rintro ⟨use, found⟩
    rw [sharedUsers_of_found found]
    exact (balanced.common id use found).2
  · intro used
    cases found : p.shared.get? id with
    | none => simp [sharedUsers, found] at used
    | some use => exact ⟨use, rfl⟩

theorem journal_of_balanced {p : Provisioner} {held : List Installed} (balanced : p.Balanced held)
    (id : ResourceId) : p.repository.installs.count id = p.repository.uninstalls.count id +
      held.countP (fun i => i.identity = id && i.shared = false) +
        if 0 < p.sharedUsers id then 1 else 0 := by
  have alone : ((held.filter (fun i => !i.shared)).map (·.handle)).countP
      (fun h => h.resource.identity = id) = held.countP (fun i => i.identity = id && i.shared = false) := by
    rw [List.countP_map, List.countP_filter]
    refine List.countP_congr fun i member => ?_
    cases shared : i.shared with
    | true => simp
    | false => simp [balanced.alone i member shared]
  rw [balanced.tracks.journal id, liveHandles, List.countP_append, alone, countP_shared balanced,
    Nat.add_assoc]

end Provisioner

namespace Deployment

-- Private installs are open once for each container that tracks the resource, shared ones once for all
-- of them; nothing is tracked twice on a container, and no number was uninstalled twice.
def Conserves (s : Deployment) : Prop :=
  (∀ id,
    s.provisioner.repository.installs.count id =
        s.provisioner.repository.uninstalls.count id + s.containers.list.countP (·.tracks id false) +
          (if s.containers.list.any (·.tracks id true) then 1 else 0) ∧
      s.provisioner.sharedUsers id = s.containers.list.countP (·.tracks id true)) ∧
  (∀ c ∈ s.containers.list, c.installedIds.Nodup) ∧
  s.provisioner.repository.spent.Nodup

variable {s : Deployment}

theorem Ledger.conserves (ledger : s.Ledger) : s.Conserves := by
  have once : ∀ c ∈ s.containers.list, c.installedIds.Nodup := fun c member => by
    obtain ⟨id, live⟩ := Dict.mem_values.mp member
    exact ledger.once id c live
  refine ⟨fun id => ?_, once, ledger.balanced.tracks.once⟩
  have users : s.provisioner.sharedUsers id = s.containers.list.countP (·.tracks id true) := by
    rw [ledger.balanced.users id, ← ContainerRegistry.countP_held once]
    simp
  refine ⟨?_, users⟩
  rw [Provisioner.journal_of_balanced ledger.balanced id, ContainerRegistry.countP_held once, users]
  refine congrArg _ (ite_congr (propext ?_) (fun _ => rfl) fun _ => rfl)
  rw [List.countP_pos_iff, List.any_eq_true]

theorem build_ledger
    (built : build chosen stored { repository := { environment, failing } } heard time = .ok s) : s.Ledger := by
  simp only [build, bind_eq_ok, pure_eq_ok] at built
  obtain ⟨_, _, _, _, rfl⟩ := built
  refine ⟨⟨rfl, Repository.tracks_empty environment failing, nofun, nofun, fun _ => rfl⟩, ?_, ?_⟩
  · intro id c live
    cases live
  · intro id c live
    cases live

-- Only what stands in front of a repository refuses an uninstall, so the run has no such refusal.
theorem run_conserves {actions : List Action}
    (built : build chosen stored { repository := { environment, failing } } heard time = .ok s)
    (willing : ∀ id, Action.refuse (.uninstall id) ∉ actions) :
    (s.run actions).Conserves ∧ ∀ me caller op, Clean ((s.run actions).perform me caller op).1 := by
  have ledger : (s.run actions).Ledger :=
    run_keeps (build_ledger built) fun t a member ledger =>
      act_ledger ledger fun id same => willing id (same ▸ member)
  exact ⟨ledger.conserves, fun me caller op => perform_clean me caller ledger op⟩

-- Of two started containers one is destroyed. It gives back what it has for itself, and what both share stays for the
-- other one.
theorem run_conserves_destroyed :
    ∃ s, build {} (.memory {}) { repository := { environment := loggers, failing := [] } } {} "" = .ok s ∧
      let actions := launching ++ [doing (.destroy "a")]
      let t := s.run actions
      (∀ id, Action.refuse (.uninstall id) ∉ actions) ∧
      t.provisioner.repository.installs = ["log:1.0.0", "lib:1.0.0", "app:1.0.0", "log:1.0.0", "app:1.0.0"] ∧
      t.provisioner.repository.uninstalls = ["app:1.0.0", "log:1.0.0"] ∧
      t.provisioner.sharedUsers "lib:1.0.0" = 1 ∧
      t.Conserves ∧ ∀ me caller op, Clean (t.perform me caller op).1 := by
  have built := build_unstarted [logger]
  have willing : ∀ id, Action.refuse (.uninstall id) ∉ launching ++ [doing (.destroy "a")] := by
    simp [launching, settling, doing]
  have conserves := run_conserves built willing
  refine ⟨unstarted [logger], built, willing, ?_, ?_, ?_, conserves⟩
  · rw [run_append, run_launching]
    rfl
  · rw [run_append, run_launching]
    rfl
  · rw [run_append, run_launching]
    rfl

end Deployment
end ContainerProfiles
