import ContainerProfiles.Proofs.EventProtocol
import ContainerProfiles.Proofs.ExchangedProfiles
import ContainerProfiles.Proofs.FailedWrites

namespace ContainerProfiles.Deployment

-- An update of a profile. The started containers that descend from it are provisioned again, one pass for each in
-- the order of their identities; everyone else keeps what they have and hears nothing.

variable {admits : Version → Prop} {s t u w : Deployment} {me : Thread} {caller : Option String} {p : Profile}
  {c : Container}

-- No lock is held by anyone. Locks are as they were at first once all their handles are given back.
def Unlocked (s : Deployment) : Prop := ∀ key, s.locks.state key = {}

theorem Unlocked.permit (unlocked : s.Unlocked) (me : Thread) (key : String) (mode : LockMode) :
    s.locks.permit me key mode = .ok () := by
  unfold LockTable.permit
  rw [unlocked key]
  cases mode <;> rfl

-- The profile is in the lineage of the container.
def InLineage (s : Deployment) (me : Thread) (p : Profile) (c : Container) : Prop :=
  c.version = some p.version ∧ ∃ ids, s.lineage me p.version c.profiles = .ok ids ∧ p.identity ∈ ids

theorem inherits_iff : s.inherits me c p = .ok true ↔ s.InLineage me p c := by
  unfold inherits InLineage
  by_cases version : c.version = some p.version
  · rw [if_pos version]
    cases s.lineage me p.version c.profiles with
    | error e => simp [bind, Except.bind]
    | ok ids => simp [version, bind, Except.bind, pure, Except.pure]
  · rw [if_neg version]
    simp [version, pure, Except.pure]

-- Whether the container gets a pass.
def selects (s : Deployment) (me : Thread) (p : Profile) (c : Container) : Bool :=
  c.isStarted && match s.inherits me c p with
    | .ok descends => descends
    | .error _ => false

theorem selects_iff : s.selects me p c ↔ c.state = .started ∧ s.InLineage me p c := by
  rw [← inherits_iff]
  unfold selects Container.isStarted
  cases s.inherits me c p with
  | error e => simp
  | ok descends => cases descends <;> simp

-- What the container is provisioned with.
def merged (s : Deployment) (me : Thread) (p : Profile) (c : Container) : Profile :=
  (s.effectiveFor me p.version c.profiles).toOption.getD p

theorem merged_of_lineage (inLineage : s.InLineage me p c) :
    s.effectiveFor me p.version c.profiles = .ok (s.merged me p c) := by
  obtain ⟨_, ids, answered, _⟩ := inLineage
  simp only [lineage, bind_eq_ok] at answered
  obtain ⟨order, ordered, _⟩ := answered
  unfold merged effectiveFor
  rw [ordered]
  rfl

-- The same store under the same locks, so the same answers.
structure Serves (s t : Deployment) : Prop where
  store : t.store = s.store
  locks : t.locks = s.locks
  service : t.profileService = s.profileService

theorem Serves.order (serves : Serves s t) : t.order = s.order := by
  funext me v roots
  unfold Deployment.order Deployment.permitVersion Deployment.load Deployment.storedVersion
  rw [serves.store, serves.locks, serves.service]

theorem Serves.inherits (serves : Serves s t) : t.inherits = s.inherits := by
  funext me c p
  unfold Deployment.inherits Deployment.lineage
  rw [serves.order]

theorem Serves.effectiveFor (serves : Serves s t) : t.effectiveFor = s.effectiveFor := by
  funext me v roots
  unfold Deployment.effectiveFor
  rw [serves.order]

theorem reconcile_serves (serves : Serves s t) (caller : Option String) (c : Container) (merged : Profile) :
    Serves s (t.reconcile caller c merged).2 := by
  unfold reconcile
  dsimp only
  split <;> exact ⟨serves.store, serves.locks, serves.service⟩

theorem provision_inLineage (serves : Serves u w) (inLineage : u.InLineage me p c) (caller : Option String)
    (live : w.containers.live.get? c.identity = some c) : w.provision me caller c.identity =
      if c.isStarted then w.reconcile caller c (u.merged me p c) else (.ok (), w) := by
  unfold provision
  rw [live]
  dsimp only
  rw [inLineage.1]
  cases c.isStarted with
  | false => rfl
  | true =>
      dsimp only
      rw [serves.effectiveFor, merged_of_lineage inLineage]
      rfl

theorem reprovision_eq (serves : Serves u w) (unlocked : u.Unlocked) (me : Thread) (caller : Option String)
    (p : Profile) (live : w.containers.live.get? c.identity = some c) :
    w.reprovision me caller p c.identity =
      if u.selects me p c then (w.reconcile caller c (u.merged me p c)).2 else w := by
  have granted : w.permitContainer me c.identity .write = .ok () := by
    unfold Deployment.permitContainer
    rw [serves.locks, unlocked.permit]
    rfl
  unfold reprovision selects
  rw [granted, get_eq_ok.mpr live]
  simp only [bind, Except.bind]
  rw [serves.inherits]
  cases inherits : u.inherits me c p with
  | error e => simp
  | ok descends =>
      cases descends with
      | false => simp
      | true =>
          dsimp only
          rw [provision_inLineage serves (inherits_iff.mp inherits) caller live]
          cases c.isStarted <;> rfl

theorem reprovisions_eq (cs : List Container) (distinct : (cs.map (·.identity)).Nodup) (serves : Serves u w)
    (unlocked : u.Unlocked) (me : Thread) (caller : Option String) (p : Profile)
    (live : ∀ c ∈ cs, w.containers.live.get? c.identity = some c) :
    (cs.map (·.identity)).foldl (fun w id => w.reprovision me caller p id) w =
      (cs.filter (u.selects me p)).foldl (fun w c => (w.reconcile caller c (u.merged me p c)).2) w := by
  induction cs generalizing w with
  | nil => rfl
  | cons c rest ih =>
      obtain ⟨fresh, distinct⟩ := List.nodup_cons.mp distinct
      rw [List.map_cons, List.foldl_cons, reprovision_eq serves unlocked me caller p (live c List.mem_cons_self)]
      by_cases selected : u.selects me p c
      · rw [if_pos selected, List.filter_cons_of_pos selected, List.foldl_cons]
        refine ih distinct (reconcile_serves serves caller c _) fun d member => ?_
        have other : d.identity ≠ c.identity := fun same => fresh (List.mem_map.mpr ⟨d, member, same⟩)
        rw [reconcile_containers, ContainerRegistry.get?_modify, if_neg other]
        exact live d (.tail _ member)
      · rw [if_neg selected, List.filter_cons_of_neg selected]
        exact ih distinct serves fun d member => live d (.tail _ member)

def heirs (s : Deployment) (me : Thread) (p : Profile) : List Container :=
  s.containers.list.filter (s.selects me p)

-- Looking among the users of the version leaves none of them out.
theorem heirs_eq (s : Deployment) (me : Thread) (p : Profile) : s.heirs me p =
    (s.containers.list.filter (fun c => c.version = some p.version && true)).filter (s.selects me p) := by
  unfold heirs
  rw [List.filter_filter]
  refine List.filter_congr fun c _ => ?_
  cases selected : s.selects me p c with
  | false => rfl
  | true => simp [(selects_iff.mp selected).2.1]

theorem mem_heirs (forest : s.containers.Forest) : c ∈ s.heirs me p ↔
    s.containers.live.get? c.identity = some c ∧ c.state = .started ∧ s.InLineage me p c := by
  unfold heirs
  rw [List.mem_filter, selects_iff, ContainerRegistry.list, Dict.mem_values]
  refine and_congr_left fun _ => ⟨?_, fun live => ⟨_, live⟩⟩
  rintro ⟨id, live⟩
  exact forest.keyed id c live ▸ live

theorem heirs_ordered (forest : s.containers.Forest) (me : Thread) (p : Profile) :
    ((s.heirs me p).map (·.identity)).Pairwise (fun one two => compare one two = .lt) := by
  have sorted := s.containers.live.keys_sorted
  rw [← ContainerRegistry.list_identities forest] at sorted
  exact sorted.sublist (List.filter_sublist.map _)

theorem InLineage.descends (backed : s.store.Backed admits) (inLineage : s.InLineage me p c) :
    s.Descends p c := by
  obtain ⟨version, ids, answered, member⟩ := inLineage
  exact (lineage_descends backed version answered).mp member

theorem Serves.inLineage (serves : Serves s t) : t.InLineage me p c ↔ s.InLineage me p c := by
  rw [← inherits_iff, ← inherits_iff, serves.inherits]

theorem passes_tell (heirs : List Container) (w : Deployment) (caller : Option String)
    (merged : Container → Profile) :
    ∃ blocks, Tells w caller blocks.flatten (heirs.foldl (fun w c => (w.reconcile caller c (merged c)).2) w) ∧
      List.Forall₂ (fun c block => PassBlock c.identity (merged c).identity block) heirs blocks := by
  induction heirs generalizing w with
  | nil => exact ⟨[], .quiet rfl rfl, .nil⟩
  | cons c rest ih =>
      obtain ⟨block, tells, _, told⟩ := w.reconcile_reports caller c (merged c)
      obtain ⟨blocks, later, each⟩ := ih (w.reconcile caller c (merged c)).2
      exact ⟨block :: blocks, tells.trans later, .cons told each⟩

theorem passes_silent {heirs : List Container} {blocks : List (List ProvisionEvent)}
    {merged : Container → Profile} {id : ContainerId}
    (each : List.Forall₂ (fun c block => PassBlock c.identity (merged c).identity block) heirs blocks)
    (others : ∀ c ∈ heirs, c.identity ≠ id) : of id blocks.flatten = [] := by
  induction each with
  | nil => rfl
  | @cons c block heirs blocks told _ ih =>
      have parted : of id (block ++ blocks.flatten) = of id block ++ of id blocks.flatten := List.filter_append ..
      rw [List.flatten_cons, parted, ih fun d member => others d (.tail _ member), List.append_nil]
      exact of_other told.block.about (Ne.symm (others c List.mem_cons_self))

theorem passes_serve (heirs : List Container) (serves : Serves u w) (caller : Option String)
    (merged : Container → Profile) :
    Serves u (heirs.foldl (fun w c => (w.reconcile caller c (merged c)).2) w) := by
  induction heirs generalizing w with
  | nil => exact serves
  | cons c rest ih => exact ih (reconcile_serves serves caller c (merged c))

theorem passes_others {heirs : List Container} {id : ContainerId} (others : ∀ c ∈ heirs, c.identity ≠ id)
    (w : Deployment) (caller : Option String) (merged : Container → Profile) :
    (heirs.foldl (fun w c => (w.reconcile caller c (merged c)).2) w).containers.live.get? id =
      w.containers.live.get? id := by
  induction heirs generalizing w with
  | nil => rfl
  | cons c rest ih =>
      have kept : (w.reconcile caller c (merged c)).2.containers.live.get? id = w.containers.live.get? id := by
        rw [reconcile_containers, ContainerRegistry.get?_modify, if_neg (Ne.symm (others c List.mem_cons_self))]
      exact (ih (fun d member => others d (.tail _ member)) _).trans kept

theorem Serves.load (serves : Serves s t) : t.load = s.load := by
  funext v
  unfold Deployment.load Deployment.storedVersion
  rw [serves.store]

theorem Exchange.serves {before : VersionState} (exchange : Exchange s p before t) (serves : Serves t u) :
    Exchange s p before u where
  loaded := exchange.loaded
  present := exchange.present
  reloaded := by
    rw [serves.load]
    exact exchange.reloaded
  keyed := exchange.keyed
  walked := exchange.walked
  others v other := by
    rw [serves.load]
    exact exchange.others v other
  versions := by
    rw [serves.store]
    exact exchange.versions
  locks := serves.locks.trans exchange.locks
  service := serves.service.trans exchange.service

-- Of the deployment only the store is another one, and listeners hear of it.
theorem replaceProfile_done (done : s.replaceProfile me p caller = (.ok q, u)) :
    u = announceProfile { s with store := u.store } caller { version := p.version, profile := p.identity } := by
  unfold replaceProfile at done
  cases prepared : s.prepareReplacement me p with
  | error e =>
      rw [prepared] at done
      cases done
  | ok _ =>
      rcases written : s.storeReplacement p with ⟨outcome, store⟩
      rw [prepared, written] at done
      cases outcome with
      | error e => cases done
      | ok _ =>
          cases done
          rfl

-- What an update comes to. `heirs` are the containers that get a pass, each against its `merged` profile.
structure Updated (s : Deployment) (me : Thread) (caller : Option String) (p : Profile) (t : Deployment)
    (heirs : List Container) (merged : Container → Profile) (blocks : List (List ProvisionEvent)) : Prop where
  -- The profile is stored in the place of the one of its identity, and nothing else in the store is another one.
  stored : ∃ before, s.load p.version = .ok before ∧ before.profiles.contains p.identity ∧
    t.load p.version = .ok (before.put p)
  others : ∀ v, v ≠ p.version → t.load v = s.load v
  versions : t.store.versions = s.store.versions
  -- Whoever does not descend from the profile keeps everything and hears nothing.
  effective : ∀ c v who, ¬ s.Descends p c → c.version = some v →
    t.effectiveFor who v c.profiles = s.effectiveFor who v c.profiles
  untouched : ∀ id c, s.containers.live.get? id = some c → ¬ s.Descends p c →
    t.containers.live.get? id = some c ∧ of id blocks.flatten = []
  -- Nobody joins or leaves the descendants.
  descends : ∀ c, t.Descends p c ↔ s.Descends p c
  lineage : ∀ c who ids, c.version = some p.version → s.lineage who p.version c.profiles = .ok ids →
    (p.identity ∈ ids ↔ s.Descends p c) ∧
      ∃ later, t.lineage who p.version c.profiles = .ok later ∧ (p.identity ∈ later ↔ p.identity ∈ ids)
  -- The started descendants get one pass each, in order, whatever comes of the passes before.
  ordered : (heirs.map (·.identity)).Pairwise (fun one two => compare one two = .lt)
  chosen : ∀ c, c ∈ heirs ↔
    s.containers.live.get? c.identity = some c ∧ c.state = .started ∧ t.InLineage me p c
  against : ∀ c ∈ heirs, t.effectiveFor me p.version c.profiles = .ok (merged c)
  passed : t = heirs.foldl (fun u c => (u.reconcile caller c (merged c)).2)
    (announceProfile { s with store := t.store } none { version := p.version, profile := p.identity })
  told : Tells s caller blocks.flatten t
  each : List.Forall₂ (fun c block => PassBlock c.identity (merged c).identity block) heirs blocks

theorem updateProfile_eq (active : s.containerService.active) (unlocked : u.Unlocked)
    (replaced : s.replaceProfile me p none = (.ok p, u)) (forest : u.containers.Forest) (caller : Option String) :
    s.updateProfile me p caller =
      (.ok p, (u.heirs me p).foldl (fun w c => (w.reconcile caller c (u.merged me p c)).2) u) := by
  have ready : s.containerService.check = .ok () := by
    unfold Component.check
    rw [if_pos active]
  have distinct := usersOf_nodup forest p.version fun _ => true
  unfold updateProfile
  rw [ready, replaced]
  dsimp only
  unfold usersOf at distinct ⊢
  rw [heirs_eq, reprovisions_eq _ distinct ⟨rfl, rfl, rfl⟩ unlocked]
  intro c member
  obtain ⟨id, live⟩ := Dict.mem_values.mp (List.mem_filter.mp member).1
  exact forest.keyed id c live ▸ live

theorem updateProfile_updated (backed : s.store.Backed admits) (forest : s.containers.Forest)
    (active : s.containerService.active) (unlocked : s.Unlocked)
    (accepted : (s.replaceProfile me p none).1 = .ok q) (caller : Option String) :
    ∃ t heirs merged blocks, s.updateProfile me p caller = (.ok p, t) ∧
      s.Updated me caller p t heirs merged blocks := by
  rcases s.replaceProfile_cases me p none with ⟨e, u, refused, _⟩ | ⟨u, replaced, done⟩
  · rw [refused] at accepted
    cases accepted
  have containers : u.containers = s.containers := by
    have same := s.replaceProfile_containers me p none
    rwa [replaced] at same
  have quiet := s.replaceProfile_quiet me caller none p
  rw [replaced] at quiet
  have kept : u.containers.Forest := containers ▸ forest
  obtain ⟨backed', before, exchange⟩ := done.exchange backed
  have ended := updateProfile_eq active (fun key => exchange.locks ▸ unlocked key) replaced kept caller
  obtain ⟨blocks, tells, each⟩ := passes_tell (u.heirs me p) u caller (u.merged me p)
  have serves : Serves u ((u.heirs me p).foldl (fun w c => (w.reconcile caller c (u.merged me p c)).2) u) :=
    passes_serve _ ⟨rfl, rfl, rfl⟩ caller _
  refine ⟨_, u.heirs me p, u.merged me p, blocks, ended, ?_⟩
  have others : ∀ id, (∀ c ∈ u.heirs me p, c.identity ≠ id) →
      ((u.heirs me p).foldl (fun w c => (w.reconcile caller c (u.merged me p c)).2) u).containers.live.get? id =
        u.containers.live.get? id :=
    fun _ away => passes_others away u caller (u.merged me p)
  generalize last : (u.heirs me p).foldl (fun w c => (w.reconcile caller c (u.merged me p c)).2) u = t
    at tells serves others
  have whole := exchange.serves serves
  have backed'' : t.store.Backed admits := serves.store ▸ backed'
  have chosen : ∀ c, c ∈ u.heirs me p ↔
      s.containers.live.get? c.identity = some c ∧ c.state = .started ∧ t.InLineage me p c := by
    intro c
    rw [mem_heirs kept, containers, serves.inLineage]
  refine ⟨⟨before, whole.loaded, whole.present, whole.reloaded⟩, whole.others, whole.versions, ?_, ?_, ?_, ?_,
    heirs_ordered kept me p, chosen, ?_, ?_, quiet.trans tells, each⟩
  · exact fun c v who apart version => whole.effectiveFor_apart version apart who
  · intro id c live apart
    have away : ∀ d ∈ u.heirs me p, d.identity ≠ id := by
      intro d member same
      obtain ⟨live', _, inLineage⟩ := (chosen d).mp member
      rw [same, live] at live'
      cases live'
      exact apart (whole.descends.mp (inLineage.descends backed''))
    refine ⟨?_, passes_silent each away⟩
    rw [others id away, containers]
    exact live
  · exact fun c => whole.descends
  · exact fun c who ids => whole.lineage_keeps backed backed''
  · intro c member
    rw [serves.effectiveFor]
    exact merged_of_lineage ((mem_heirs kept).mp member).2.2
  · have begun := replaceProfile_done replaced
    rw [serves.store, ← begun, last]

-- At any time an update that is accepted reaches exactly the started descendants of the profile.
theorem turns_updated {supplied : Provisioner} (built : build chosen stored supplied heard time = .ok s)
    (opened : stored.Opened admits) {ts : List Turn} (admitted : s.Admitted admits ts)
    (active : (s.turns ts).containerService.active) (unlocked : (s.turns ts).Unlocked)
    (accepted : ((s.turns ts).replaceProfile me p none).1 = .ok q) (caller : Option String) :
    ∃ t heirs merged blocks, (s.turns ts).updateProfile me p caller = (.ok p, t) ∧
      (s.turns ts).Updated me caller p t heirs merged blocks := by
  have fresh : s.store = stored ∧ s.containers = {} := by
    simp only [build, bind_eq_ok, pure_eq_ok] at built
    obtain ⟨_, _, _, _, rfl⟩ := built
    exact ⟨rfl, rfl⟩
  obtain ⟨rfl, unused⟩ := fresh
  have forest : (s.turns ts).containers.Forest :=
    turns_keep (P := fun t => t.containers.Forest) (unused ▸ ContainerRegistry.forest_empty)
      fun _ x _ holds => turn_forest holds x
  exact updateProfile_updated (turns_backed opened admitted) forest active unlocked accepted caller

-- The way up from the site, and what each of its containers comes to on it.
def reroutedOrder : List Profile := [siteProfiles[0], siteProfiles[2], redirected, siteProfiles[3]]

def reroutedEffective : Profile :=
  Profile.merge (Profile.effectiveIdentityFor siteVersion ["site"]) siteVersion reroutedOrder

theorem walk_rerouted : Catalog.Walk (siteState.put redirected).profiles [] [] ["site"] reroutedOrder := by
  have core : Catalog.Walk (siteState.put redirected).profiles ["right", "left", "site"] [] ["core"] _ :=
    .fresh List.not_mem_nil (by decide) rfl .done .done
  have right : Catalog.Walk (siteState.put redirected).profiles ["left", "site"] [] ["right"] _ :=
    .fresh List.not_mem_nil (by decide) rfl core .done
  have both : Catalog.Walk (siteState.put redirected).profiles ["site"] [] ["left", "right"] _ :=
    .fresh List.not_mem_nil (by decide) rfl right (.again (by decide) .done)
  exact .fresh List.not_mem_nil List.not_mem_nil rfl both .done

theorem plan_rerouted {q : Provisioner} (supplied : q.repository.environment = loggers) :
    q.plan reroutedEffective = .ok [⟨logger, false⟩, ⟨library, true⟩, ⟨newerApplication, false⟩] := by
  have resolved : (reroutedEffective.environment q.repository.environment).resolve reroutedEffective.requirements =
      { resources := [logger] } := by
    rw [supplied]
    exact Environment.settle_of_settles (.chosen List.not_mem_nil (by decide) rfl .done)
  rw [Provisioner.plan_of_found resolved rfl]
  rfl

def renewed (log app : Nat) : List Installed :=
  [⟨"log:1.0.0", ⟨log, logger⟩, false⟩, ⟨"lib:1.0.0", ⟨1, library⟩, true⟩,
    ⟨"app:2.0.0", ⟨app, newerApplication⟩, false⟩]

theorem order_rerouted : rerouted.order "main" siteVersion ["site"] = .ok reroutedOrder :=
  order_of_walk rfl rfl walk_rerouted

theorem heirs_rerouted : rerouted.heirs "main" redirected =
    [onSite "a" .started (siteInstalled 0 2), onSite "b" .started (siteInstalled 3 4)] := by
  have inherits : ∀ id installed, rerouted.selects "main" redirected (onSite id .started installed) := by
    intro id installed
    exact selects_iff.mpr ⟨rfl, rfl, _, lineage_eq_ok.mpr ⟨_, order_rerouted, rfl⟩, by decide⟩
  have other : ¬ rerouted.selects "main" redirected root := by
    intro selected
    cases (selects_iff.mp selected).2.1
  have listed : rerouted.containers.list =
      [onSite "a" .started (siteInstalled 0 2), onSite "b" .started (siteInstalled 3 4), root] := rfl
  rw [heirs, listed, List.filter_cons_of_pos (inherits _ _), List.filter_cons_of_pos (inherits _ _),
    List.filter_cons_of_neg other]
  rfl

-- As the first pass leaves it, and as the second one does.
def renewedOne : Deployment :=
  { rerouted with
    containers := (populated (onSite "a" .started (renewed 0 5)) (onSite "b" .started (siteInstalled 3 4))).containers
    provisioner.repository.journal := rerouted.provisioner.repository.journal ++
      [⟨.uninstall, "app:1.0.0"⟩, ⟨.install, "app:2.0.0"⟩]
    provisioner.repository.issued := 6
    provisioner.repository.spent := [2] }

def renewedBoth : Deployment :=
  { renewedOne with
    containers := (populated (onSite "a" .started (renewed 0 5)) (onSite "b" .started (renewed 3 6))).containers
    provisioner.repository.journal := renewedOne.provisioner.repository.journal ++
      [⟨.uninstall, "app:1.0.0"⟩, ⟨.install, "app:2.0.0"⟩]
    provisioner.repository.issued := 7
    provisioner.repository.spent := [4, 2] }

theorem updateProfile_redirected (forest : bothStarted.containers.Forest) :
    bothStarted.updateProfile "main" redirected none = (.ok redirected, renewedBoth) := by
  have computed : rerouted.effectiveFor "main" redirected.version ["site"] = .ok reroutedEffective :=
    effectiveFor_of_order order_rerouted
  have merged : ∀ id installed, rerouted.merged "main" redirected (onSite id .started installed) = reroutedEffective :=
    fun _ _ => congrArg (fun answer => answer.toOption.getD redirected) computed
  have once : ∀ log app, (Provisioner.resourceIds (siteInstalled log app)).Nodup := by
    intro log app
    change ["log:1.0.0", "lib:1.0.0", "app:1.0.0"].Nodup
    decide
  have first : (rerouted.reconcile none (onSite "a" .started (siteInstalled 0 2)) reroutedEffective).2 =
      renewedOne := by
    have passed : rerouted.passOf (onSite "a" .started (siteInstalled 0 2)) reroutedEffective = _ :=
      Provisioner.reconcile_follows (once 0 2) rfl (plan_rerouted rfl)
    rw [reconcile_passed passed rfl]
    rfl
  have later : (renewedOne.reconcile none (onSite "b" .started (siteInstalled 3 4)) reroutedEffective).2 =
      renewedBoth := by
    have passed : renewedOne.passOf (onSite "b" .started (siteInstalled 3 4)) reroutedEffective = _ :=
      Provisioner.reconcile_follows (once 3 4) rfl (plan_rerouted rfl)
    rw [reconcile_passed passed rfl]
    rfl
  rw [updateProfile_eq rfl (fun _ => rfl) replaceProfile_redirected forest, heirs_rerouted, List.foldl_cons,
    List.foldl_cons, merged, merged, first, later]
  rfl

-- Two started containers are brought onto the new way up; the current one is on another version and stays as it is.
theorem turns_updated_redirected :
    ∃ s, build {} (.memory {}) { repository := { environment := loggers, failing := [] } } {} "" = .ok s ∧
      let t := s.turns (launching.map .action)
      t.load siteVersion = .ok siteState ∧ (t.replaceProfile "main" redirected none).1 = .ok redirected ∧
        ∃ u heirs merged blocks, t.updateProfile "main" redirected none = (.ok redirected, u) ∧
          t.Updated "main" none redirected u heirs merged blocks ∧
          (∀ c, c ∈ heirs ↔ c ∈ [onSite "a" .started (siteInstalled 0 2), onSite "b" .started (siteInstalled 3 4)]) ∧
          u.containers.live.get? "root" = some root ∧
          u.provisioner.repository.uninstalls = ["app:1.0.0", "app:1.0.0"] ∧
          ∀ id ∈ ["a", "b"], ∃ c, u.containers.live.get? id = some c ∧
            c.installedIds = ["log:1.0.0", "lib:1.0.0", "app:2.0.0"] := by
  have ends : (unstarted [logger]).turns (launching.map .action) = bothStarted :=
    (turns_actions _ _).trans run_launching
  have forest : ((unstarted [logger]).turns (launching.map .action)).containers.Forest :=
    turns_keep (P := fun t => t.containers.Forest) ContainerRegistry.forest_empty fun _ x _ holds => turn_forest holds x
  have active : ((unstarted [logger]).turns (launching.map .action)).containerService.active := by
    rw [ends]
    rfl
  have unlocked : ((unstarted [logger]).turns (launching.map .action)).Unlocked := by
    rw [ends]
    exact fun _ => rfl
  have accepted : (((unstarted [logger]).turns (launching.map .action)).replaceProfile "main" redirected none).1 =
      .ok redirected := by
    rw [ends]
    exact congrArg Prod.fst replaceProfile_redirected
  obtain ⟨u, heirs, merged, blocks, updates, updated⟩ :=
    turns_updated (build_unstarted [logger]) .memory (fun _ _ _ _ _ _ => trivial) active unlocked accepted none
  rw [ends] at forest
  have left : u = renewedBoth := by
    rw [ends, updateProfile_redirected forest] at updates
    exact (congrArg Prod.snd updates).symm
  refine ⟨unstarted [logger], build_unstarted [logger], ?_, accepted, u, heirs, merged, blocks, updates, updated, ?_⟩
  · rw [ends]
    exact load_site rfl
  · subst left
    have serves : Serves rerouted renewedBoth := ⟨rfl, rfl, rfl⟩
    refine ⟨fun c => ?_, rfl, rfl, ?_⟩
    · have descends : c ∈ rerouted.heirs "main" redirected ↔ _ := mem_heirs forest
      rw [heirs_rerouted, ← serves.inLineage] at descends
      rw [updated.chosen c, descends, ends]
      rfl
    · exact List.forall_mem_cons.mpr ⟨⟨_, rfl, rfl⟩, List.forall_mem_singleton.mpr ⟨_, rfl, rfl⟩⟩

end ContainerProfiles.Deployment
