import ContainerProfiles.Proofs.MoreRoots
import ContainerProfiles.Proofs.Plans
import ContainerProfiles.Proofs.Runs
import ContainerProfiles.Proofs.Settling

namespace ContainerProfiles

-- Starts that go through: what such a start makes of the container and of the deployment around it.

namespace Deployment

variable {s t : Deployment} {me : Thread} {caller : Option String} {id : ContainerId} {c d : Container} {p : Profile}
  {pass : Pass}

-- The pass is against the effective profile of what the start has committed.
theorem changeAndProvision_passes (live : s.containers.live.get? d.identity = some c) (running : d.state = .started)
    (version : d.version = some v) (computed : s.effectiveFor me v d.profiles = .ok p) (caller : Option String) :
    let t := s.modify d.identity fun _ => d
    s.changeAndProvision me caller d =
      (((t.passOf d p).outcome.mapError .provision).map fun _ => { d with installed := (t.passOf d p).installed },
        (t.reconcile caller d p).2) := by
  intro t
  have there : t.containers.live.get? d.identity = some d := modify_there live
  have passes : t.provision me caller d.identity = t.reconcile caller d p :=
    t.provision_passes me caller there running version computed
  have outcome := t.reconcile_outcome caller d p
  have after : (t.reconcile caller d p).2.containers.live.get? d.identity =
      some { d with installed := (t.passOf d p).installed } := by
    rw [reconcile_containers, ContainerRegistry.get?_modify, if_pos rfl, there]
    rfl
  unfold changeAndProvision
  rw [passes]
  rcases ends : t.reconcile caller d p with ⟨result, u⟩
  rw [ends] at outcome after
  cases passed : (t.passOf d p).outcome with
  | error e =>
      rw [passed] at outcome
      cases outcome
      rfl
  | ok _ =>
      rw [passed] at outcome
      cases outcome
      exact congrArg (·, u) (get_eq_ok.mpr after)

-- A pass that goes through is told at its beginning and at its end.
theorem reconcile_passed (passed : s.passOf c p = pass) (done : pass.outcome = .ok ()) :
    s.reconcile caller c p = (.ok (),
      ((s.announce caller { container := c.identity, stage := .provisioning, profile := some p.identity }).announce
        caller { container := c.identity, stage := .provisioned, profile := some p.identity }).finishPass
          c.identity pass) := by
  unfold passOf at passed
  unfold reconcile
  dsimp only [announce] at passed ⊢
  rw [passed, done]

theorem startContainer_passed (prepared : s.prepareStart me id = .ok d)
    (live : s.containers.live.get? d.identity = some c) (running : d.state = .started) (version : d.version = some v)
    (computed : s.effectiveFor me v d.profiles = .ok p) (passed : s.passOf d p = pass)
    (done : pass.outcome = .ok ()) : s.startContainer me id caller =
      (.ok { d with installed := pass.installed },
        (((s.modify d.identity fun _ => d).announce caller
          { container := d.identity, stage := .provisioning, profile := some p.identity }).announce
            caller { container := d.identity, stage := .provisioned, profile := some p.identity }).finishPass
              d.identity pass) := by
  have again : (s.modify d.identity fun _ => d).passOf d p = pass := passed
  unfold startContainer
  rw [prepared]
  dsimp only
  rw [changeAndProvision_passes live running version computed, again, done, reconcile_passed again done]
  rfl

theorem ensureContainer_creates (absent : ¬ s.containers.contains s.settings.currentContainer)
    (made : s.create me s.currentRequest = (.ok c, t)) (got : t.getContainer me s.settings.currentContainer = .ok d)
    (idle : d.isStarted = false) : s.ensureContainer me = t.startContainer me s.settings.currentContainer none := by
  unfold currentRequest at made
  unfold ensureContainer
  dsimp only
  rw [if_neg absent, made]
  unfold andThen
  dsimp only
  rw [got]
  exact if_neg (Bool.eq_false_iff.mp idle)

end Deployment

-- Without parents, items and attributes.
def Profile.bare (id : ProfileId) (v : Version) : Profile := { identity := id, version := v }

theorem Profile.validate_bare {id : ProfileId} (named : Text.blank id = false) (v : Version) :
    (bare id v).validate = .ok () := by
  unfold validate bare
  rw [named]
  rfl

namespace Deployment

def storing (profiles : List Profile) : StoredVersion := { attributes := ∅, profiles := .ofProfiles profiles }

-- What is built from the default settings over an empty memory, and what its first start makes of it one after the
-- other: the version, the default profile, and the current container with that profile.
def unstarted (offered : List Resource) : Deployment :=
  { settings := {}, defaultVersion := .first, store := .memory {}, clock := "", locks := { timeout := 10000 }
    provisioner := { repository := { environment := { name := "repository", resources := offered } } } }

theorem build_unstarted (offered : List Resource) :
    build {} (.memory {})
      { repository := { environment := { name := "repository", resources := offered }, failing := [] } } {} "" =
        .ok (unstarted offered) := rfl

def versioned (offered : List Resource) : Deployment :=
  (unstarted offered).opened (.memory { versions := Dict.insert ∅ .first (storing []) })

def profiled (offered : List Resource) : Deployment :=
  (unstarted offered).opened (.memory { versions := Dict.insert ∅ .first (storing [.bare "default" .first]) })

def rootCreated : Container := { identity := "root", version := some .first, profiles := ["default"] }

def root : Container := { rootCreated with state := .started }

def inhabited (offered : List Resource) (c : Container) : Deployment :=
  { profiled offered with containers.live := Dict.insert ∅ "root" c }

def begun (offered : List Resource) : Deployment := { inhabited offered root with current := some "root" }

theorem ensureProfile_versioned (offered : List Resource) :
    (versioned offered).ensureProfile "main" = (.ok (), profiled offered) := by
  have prepared : (versioned offered).prepareProfile "main" (.bare "default" .first) = .ok () := by
    simp only [prepareProfile, bind_eq_ok, guard_eq_ok]
    exact ⟨(), rfl, _, rfl, Bool.false_ne_true, VersionState.check_alone rfl rfl rfl rfl rfl⟩
  have built : ((Profile.start (versioned offered).settings.defaultProfile).withVersion
      (versioned offered).defaultVersion).build = .ok (.bare "default" .first) := by
    change (do (Profile.bare "default" .first).validate; return Profile.bare "default" .first) = _
    rw [Profile.validate_bare rfl]
    rfl
  have listed : (versioned offered).getVersion "main" (versioned offered).defaultVersion =
      .ok { version := .first, profiles := [], attributes := ∅ } := rfl
  unfold ensureProfile
  rw [listed, built]
  dsimp only
  rw [if_neg List.not_mem_nil, addProfile, prepared]
  rfl

-- A bare profile asks for nothing, so there is nothing to do for it.
theorem ensureContainer_profiled (offered : List Resource) :
    (profiled offered).ensureContainer "main" = (.ok root, inhabited offered root) := by
  let merged := Profile.merge (Profile.effectiveIdentityFor .first ["default"]) .first [.bare "default" .first]
  have shown : ¬ Text.blank "root" = true := by decide
  have unparented : ¬ (profiled offered).currentRequest.parent = some "root" := (Option.some_ne_none "root").symm
  have checked : (profiled offered).checkRequest "main" (profiled offered).currentRequest = .ok () := by
    simp only [checkRequest, bind_eq_ok, guard_eq_ok]
    exact ⟨(), rfl, shown, unparented, (), rfl, (), rfl, Bool.false_ne_true, rfl⟩
  have made : (profiled offered).create "main" (profiled offered).currentRequest =
      (.ok rootCreated, inhabited offered rootCreated) := by
    rw [create_eq, checked]
    rfl
  have got : (inhabited offered rootCreated).getContainer "main" "root" = .ok rootCreated := rfl
  have prepared : (inhabited offered rootCreated).prepareStart "main" "root" = .ok root := rfl
  have computed : (inhabited offered rootCreated).effectiveFor "main" .first ["default"] = .ok merged :=
    effectiveFor_of_walk rfl rfl (.fresh List.not_mem_nil List.not_mem_nil rfl .done .done)
  have once : (Provisioner.resourceIds root.installed).Nodup := List.nodup_nil
  have passed : (inhabited offered rootCreated).passOf root merged = ⟨.ok (), (unstarted offered).provisioner, []⟩ :=
    Provisioner.reconcile_follows once rfl (Provisioner.plan_unrequiring rfl)
  have absent : ¬ (profiled offered).containers.contains "root" := Bool.false_ne_true
  refine (ensureContainer_creates absent made got rfl).trans ?_
  exact startContainer_passed prepared rfl rfl rfl computed passed rfl

theorem start_unstarted (offered : List Resource) : (unstarted offered).start "main" = (.ok root, begun offered) := by
  have version : ((unstarted offered).opened (unstarted offered).store).ensureVersion "main" =
      (.ok (), versioned offered) := rfl
  rw [start_eq, andThen_of_ok version, andThen_of_ok (ensureProfile_versioned offered),
    andThen_of_ok (ensureContainer_profiled offered)]
  rfl

end Deployment

def logger : Resource := { identity := "log:1.0.0", capabilities := [⟨"feature", "log"⟩] }

def loggers : Environment := { name := "repository", resources := [logger] }

def logging : Requirement := { ns := "feature", name := "log" }

-- The last profile of the version inherits from the first one on two ways. It comes to a resource that all containers
-- share, one that each has for itself, and one that is found for its requirement.
def siteVersion : Version := { major := 2, minor := 0, patch := 0 }

def layer (id : ProfileId) (parents : List ProfileId) (items : List Item) : Profile :=
  { identity := id, version := siteVersion, parents, items }

def library : Resource := { identity := "lib:1.0.0" }

def application : Resource := { identity := "app:1.0.0" }

def siteProfiles : List Profile := [
  layer "core" [] [.resource { id := "lib", resource := library, shared := true }],
  layer "left" ["core"] [.resource { id := "app", resource := application }],
  layer "right" ["core"] [.requirement { id := "log", requirement := logging }],
  layer "site" ["left", "right"] []]

def siteListed : ProfileVersion := { version := siteVersion, profiles := [], attributes := ∅ }

-- As it is read.
def siteState : VersionState :=
  .ofProfiles { siteListed with profiles := ["core", "left", "right", "site"] } siteProfiles

namespace Catalog

theorem walk_core {opened : List ProfileId} (fresh : "core" ∉ opened) :
    Walk siteState.profiles opened [] ["core"] (siteProfiles.take 1) :=
  .fresh List.not_mem_nil fresh rfl .done .done

theorem walk_left : Walk siteState.profiles [] [] ["left"] (siteProfiles.take 2) :=
  .fresh List.not_mem_nil List.not_mem_nil rfl (walk_core (by decide)) .done

theorem walk_right : Walk siteState.profiles [] [] ["right"] [siteProfiles[0], siteProfiles[2]] :=
  .fresh List.not_mem_nil List.not_mem_nil rfl (walk_core (by decide)) .done

theorem walk_site : Walk siteState.profiles [] [] ["site"] siteProfiles :=
  .fresh List.not_mem_nil List.not_mem_nil rfl
    (.fresh List.not_mem_nil (by decide) rfl (walk_core (by decide))
      (.fresh (by decide) (by decide) rfl (.again (by decide) .done) .done))
    .done

theorem siteProfiles_fit : ∀ p ∈ siteProfiles, siteState.profiles.Fits siteVersion p := by
  have walks : ∀ p ∈ siteProfiles, ∃ order, siteState.profiles.linearize [p.identity] = .ok order := by
    simp only [siteProfiles, List.forall_mem_cons, linearize_eq_ok]
    exact ⟨⟨_, walk_core List.not_mem_nil⟩, ⟨_, walk_left⟩, ⟨_, walk_right⟩, ⟨_, walk_site⟩, nofun⟩
  have rest : ∀ p ∈ siteProfiles, p.validate = .ok () ∧ p.isEffective = false ∧ p.version = siteVersion ∧
      ∀ parent ∈ p.parents, siteState.profiles.contains parent := by
    decide +kernel
  intro p member
  obtain ⟨valid, plain, version, parents⟩ := rest p member
  exact ⟨valid, plain, version, parents, walks p member⟩

end Catalog

-- The left way up leads through the right one from now on, and has another resource on it.
def newerApplication : Resource := { identity := "app:2.0.0" }

def redirected : Profile := layer "left" ["right"] [.resource { id := "app", resource := newerApplication }]

theorem Catalog.redirected_fits : (siteState.put redirected).profiles.Fits siteVersion redirected where
  valid := by decide +kernel
  plain := by decide +kernel
  version := rfl
  parents := by decide +kernel
  walked := by
    have core : Walk (siteState.put redirected).profiles ["right", "left"] [] ["core"] _ :=
      .fresh List.not_mem_nil (by decide) rfl .done .done
    have right : Walk (siteState.put redirected).profiles ["left"] [] ["right"] _ :=
      .fresh List.not_mem_nil (by decide) rfl core .done
    exact ⟨_, linearize_eq_ok.mpr (.fresh List.not_mem_nil List.not_mem_nil rfl right .done)⟩

namespace Deployment

-- The version is added, two containers are created on it and started one after the other.
def stocking (site : StoredVersion) : Store :=
  .memory { versions := (Dict.insert ∅ .first (storing [.bare "default" .first])).insert siteVersion site }

def stocked : Deployment := { begun [logger] with store := stocking (storing siteProfiles) }

def onSite (id : ContainerId) (state : LifecycleState) (installed : List Installed) : Container :=
  { identity := id, state, version := some siteVersion, profiles := ["site"], installed }

def populated (a b : Container) : Deployment :=
  { stocked with containers.live := ((Dict.insert ∅ "root" root).insert "a" a).insert "b" b }

def peopled : Deployment := populated (onSite "a" .created []) (onSite "b" .created [])

-- What a pass over a container leaves there, where the numbers of its own installations are these.
def siteInstalled (log app : Nat) : List Installed :=
  [⟨"log:1.0.0", ⟨log, logger⟩, false⟩, ⟨"lib:1.0.0", ⟨1, library⟩, true⟩, ⟨"app:1.0.0", ⟨app, application⟩, false⟩]

def installing (ids : List ResourceId) : List InstallRecord := ids.map fun id => ⟨.install, id⟩

def oneStarted : Deployment :=
  { populated (onSite "a" .started (siteInstalled 0 2)) (onSite "b" .created []) with
    provisioner.repository.journal := installing ["log:1.0.0", "lib:1.0.0", "app:1.0.0"]
    provisioner.repository.issued := 3
    provisioner.shared := Dict.insert ∅ "lib:1.0.0" ⟨⟨1, library⟩, 1⟩ }

def bothStarted : Deployment :=
  { populated (onSite "a" .started (siteInstalled 0 2)) (onSite "b" .started (siteInstalled 3 4)) with
    provisioner.repository.journal :=
      installing ["log:1.0.0", "lib:1.0.0", "app:1.0.0", "log:1.0.0", "app:1.0.0"]
    provisioner.repository.issued := 5
    provisioner.shared := Dict.insert ∅ "lib:1.0.0" ⟨⟨1, library⟩, 2⟩ }

theorem addVersion_site : ((begun [logger]).addVersion "main" siteListed siteProfiles).2 = stocked := by
  have prepared : (begun [logger]).prepareVersion "main" siteListed siteProfiles =
      .ok (.ofProfiles siteListed siteProfiles) := by
    simp only [prepareVersion, bind_eq_ok, guard_eq_ok, mapError_eq_ok, pure_eq_ok]
    refine ⟨(), rfl, none, rfl, Bool.false_ne_true, fun fewer => fewer rfl, (), forM_eq_ok.mpr ?_, trivial⟩
    exact fun p member => VersionState.check_of_fits (Catalog.siteProfiles_fit p member)
  unfold addVersion
  rw [prepared]
  rfl

def siteEffective : Profile :=
  Profile.merge (Profile.effectiveIdentityFor siteVersion ["site"]) siteVersion siteProfiles

theorem load_site {s : Deployment} (stored : s.store = stocked.store) : s.load siteVersion = .ok siteState := by
  unfold load storedVersion
  rw [stored]
  rfl

theorem effectiveFor_site {s : Deployment} (permitted : s.permitVersion "main" siteVersion .read = .ok ())
    (stored : s.store = stocked.store) : s.effectiveFor "main" siteVersion ["site"] = .ok siteEffective :=
  effectiveFor_of_walk permitted (load_site stored) Catalog.walk_site

theorem plan_site {p : Provisioner} (supplied : p.repository.environment = loggers) :
    p.plan siteEffective = .ok [⟨logger, false⟩, ⟨library, true⟩, ⟨application, false⟩] := by
  have resolved : (siteEffective.environment p.repository.environment).resolve siteEffective.requirements =
      { resources := [logger] } := by
    rw [supplied]
    exact Environment.settle_of_settles (.chosen List.not_mem_nil (by decide) rfl .done)
  rw [Provisioner.plan_of_found resolved rfl]
  rfl

theorem startContainer_one : peopled.startContainer "main" "a" none =
    (.ok (onSite "a" .started (siteInstalled 0 2)), oneStarted) := by
  have once : (Provisioner.resourceIds (onSite "a" .started []).installed).Nodup := List.nodup_nil
  have passed : peopled.passOf (onSite "a" .started []) siteEffective = _ :=
    Provisioner.reconcile_follows once rfl (plan_site rfl)
  have computed := effectiveFor_site (s := peopled) rfl rfl
  rw [startContainer_passed (d := onSite "a" .started []) rfl rfl rfl rfl computed passed rfl]
  rfl

theorem startContainer_other : oneStarted.startContainer "main" "b" none =
    (.ok (onSite "b" .started (siteInstalled 3 4)), bothStarted) := by
  have once : (Provisioner.resourceIds (onSite "b" .started []).installed).Nodup := List.nodup_nil
  have passed : oneStarted.passOf (onSite "b" .started []) siteEffective = _ :=
    Provisioner.reconcile_follows once rfl (plan_site rfl)
  have computed := effectiveFor_site (s := oneStarted) rfl rfl
  rw [startContainer_passed (d := onSite "b" .started []) rfl rfl rfl rfl computed passed rfl]
  rfl

def requesting (id : ContainerId) : ContainerRequest :=
  { identity := id, version := some siteVersion, profiles := ["site"] }

def doing (op : Operation) : Action := .perform "main" none op

def settling : List Action :=
  [doing .start, doing (.addVersion siteListed siteProfiles), doing (.create (requesting "a")),
    doing (.create (requesting "b")), doing (.startContainer "a")]

def launching : List Action := settling ++ [doing (.startContainer "b")]

theorem run_settling : (unstarted [logger]).run settling = oneStarted := by
  have begins : (unstarted [logger]).act (doing .start) = begun [logger] :=
    congrArg Prod.snd (start_unstarted [logger])
  have stocks : (begun [logger]).act (doing (.addVersion siteListed siteProfiles)) = stocked := addVersion_site
  have creates : (stocked.act (doing (.create (requesting "a")))).act (doing (.create (requesting "b"))) = peopled :=
    rfl
  have starts : peopled.act (doing (.startContainer "a")) = oneStarted := congrArg Prod.snd startContainer_one
  simp only [run, settling, List.foldl_cons, List.foldl_nil, begins, stocks, creates, starts]

theorem run_launching : (unstarted [logger]).run launching = bothStarted := by
  rw [launching, run_append, run_settling]
  exact congrArg Prod.snd startContainer_other

def rerouted : Deployment :=
  { bothStarted with
    store := stocking { attributes := ∅, profiles := (Catalog.ofProfiles siteProfiles).insert "left" redirected } }

theorem replaceProfile_redirected : bothStarted.replaceProfile "main" redirected none = (.ok redirected, rerouted) := by
  have prepared : bothStarted.prepareReplacement "main" redirected = .ok () := by
    simp only [prepareReplacement, bind_eq_ok]
    refine ⟨(), rfl, siteState, load_site rfl, siteProfiles[1], rfl, ?_⟩
    exact VersionState.check_of_fits Catalog.redirected_fits
  unfold replaceProfile
  rw [prepared]
  rfl

end Deployment
end ContainerProfiles
