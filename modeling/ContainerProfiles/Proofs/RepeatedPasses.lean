import ContainerProfiles.Proofs.Agendas
import ContainerProfiles.Proofs.BlindPasses
import ContainerProfiles.Proofs.Updates

namespace ContainerProfiles

-- A pass that goes through, and the same pass once more. Every target that the profile configures for this runtime
-- then holds what its configurations say, the later ones over the earlier ones, and no other target is touched.

theorem Attributes.get?_foldl_extend {base : Attributes} {before : List Attributes} {k : String}
    (settled : base.get? k = lastMention k before) (cs : List Configuration) :
    (cs.foldl (fun merged c => merged.extend c.attributes.entries) base).get? k =
      lastMention k (before ++ cs.map (·.attributes)) := by
  induction cs generalizing base before with
  | nil => rw [List.map_nil, List.append_nil, List.foldl_nil, settled]
  | cons c rest ih =>
      rw [List.foldl_cons, List.map_cons, List.append_cons]
      refine ih ?_
      rw [get?_extend, lastMention_concat, settled]

namespace ConfigurationItem

-- The configurations that admit the runtime, in their order.
def saidFor (item : ConfigurationItem) (runtime : RuntimeType) : List Attributes :=
  (item.configurations.filter (·.admits runtime)).map (·.attributes)

-- Under each key the last of them that mentions it.
def Union (said : List Attributes) (a : Attributes) : Prop := ∀ k, a.get? k = lastMention k said

theorem attributesFor_eq_some {item : ConfigurationItem} {runtime : RuntimeType} {a : Attributes}
    (chosen : item.attributesFor runtime = some a) : Union (item.saidFor runtime) a := by
  unfold attributesFor at chosen
  split at chosen
  · cases chosen
  · cases chosen
    intro k
    have nothing : (∅ : Attributes).get? k = lastMention k [] := rfl
    exact Attributes.get?_foldl_extend nothing _

theorem attributesFor_eq_none {item : ConfigurationItem} {runtime : RuntimeType} :
    item.attributesFor runtime = none ↔ item.saidFor runtime = [] := by
  unfold attributesFor saidFor
  rw [List.map_eq_nil_iff]
  split
  · rename_i none
    exact iff_of_true rfl none
  · rename_i some
    exact iff_of_false nofun some

end ConfigurationItem

namespace Provisioner

variable {p q : Provisioner} {runtime : RuntimeType} {items : List ConfigurationItem} {target : String}
  {attributes : Attributes} {effective : Profile} {installed : List Installed} {plan : List Wanted}

-- Nothing speaks against configuring the target.
def Configurable (p : Provisioner) (target : String) : Prop := target ≠ "" ∧ ¬ p.refusals.targets.contains target

theorem configure_sets (done : p.configure target attributes = .ok q) :
    p.Configurable target ∧ ∃ targets, q = { p with targets } ∧
      ∀ other, targets.held.get? other = if other = target then some attributes else p.targets.held.get? other := by
  rw [configure_eq] at done
  unfold Targets.apply at done
  split at done
  · cases done
  · rename_i willing
    split at done
    · cases done
    · rename_i named
      split at done
      · rename_i held
        cases done
        refine ⟨⟨named, willing⟩, _, rfl, fun other => ?_⟩
        split
        · rename_i same
          rw [same, held]
        · rfl
      · cases done
        exact ⟨⟨named, willing⟩, _, rfl, fun other => Dict.get?_insert ..⟩

-- No write where the target holds it already.
theorem configure_held (free : p.Configurable target) (held : p.targets.held.get? target = some attributes) :
    p.configure target attributes = .ok p := by
  rw [configure_eq, if_neg free.2, Targets.apply, if_neg free.1, if_pos held]
  rfl

-- The targets that are configured hold what was chosen for them, and no others have changed.
structure Configured (runtime : RuntimeType) (items : List ConfigurationItem) (p q : Provisioner) : Prop where
  free : ∀ item ∈ items, ∀ a, item.attributesFor runtime = some a → p.Configurable item.id
  set : ∀ item ∈ items, ∀ a, item.attributesFor runtime = some a → q.targets.held.get? item.id = some a
  others : ∀ target, (∀ item ∈ items, item.id = target → item.attributesFor runtime = none) →
    q.targets.held.get? target = p.targets.held.get? target

theorem applyConfigurations_sets (once : (items.map (·.id)).Nodup)
    (done : (p.applyConfigurations runtime items).1 = .ok ()) :
    Configured runtime items p (p.applyConfigurations runtime items).2 := by
  induction items generalizing p with
  | nil => exact ⟨nofun, nofun, fun _ _ => rfl⟩
  | cons item rest ih =>
      obtain ⟨new, later⟩ := List.nodup_cons.mp once
      unfold applyConfigurations at done ⊢
      cases chosen : item.attributesFor runtime with
      | none =>
          rw [chosen] at done
          obtain ⟨free, set, others⟩ := ih later done
          have unchosen : ∀ a, item.attributesFor runtime ≠ some a := fun a some => by cases chosen.symm.trans some
          refine ⟨?_, ?_, fun target none => others target fun other there => none other (.tail _ there)⟩
          · exact List.forall_mem_cons.mpr ⟨fun a some => (unchosen a some).elim, free⟩
          · exact List.forall_mem_cons.mpr ⟨fun a some => (unchosen a some).elim, set⟩
      | some attributes =>
          rw [chosen] at done
          dsimp only at done ⊢
          cases configured : p.configure item.id attributes with
          | error e =>
              rw [configured] at done
              cases done
          | ok q =>
              rw [configured] at done
              dsimp only at done ⊢
              obtain ⟨able, targets, rfl, held⟩ := configure_sets configured
              -- No later item goes by the same identity, so what is set here stays.
              obtain ⟨free, set, others⟩ := ih later done
              refine ⟨?_, ?_, fun target none => ?_⟩
              · exact List.forall_mem_cons.mpr ⟨fun _ _ => able, free⟩
              · refine List.forall_mem_cons.mpr ⟨fun a some => ?_, set⟩
                cases chosen.symm.trans some
                rw [others item.id fun other there same => (new (List.mem_map.mpr ⟨other, there, same⟩)).elim, held,
                  if_pos rfl]
              · rw [others target fun other there => none other (.tail _ there), held, if_neg]
                intro same
                cases chosen.symm.trans (none item List.mem_cons_self same.symm)

theorem applyConfigurations_held
    (free : ∀ item ∈ items, ∀ a, item.attributesFor runtime = some a → p.Configurable item.id)
    (held : ∀ item ∈ items, ∀ a, item.attributesFor runtime = some a → p.targets.held.get? item.id = some a) :
    p.applyConfigurations runtime items = (.ok (), p) := by
  induction items with
  | nil => rfl
  | cons item rest ih =>
      have later := ih (fun other there => free other (.tail _ there)) fun other there => held other (.tail _ there)
      unfold applyConfigurations
      cases chosen : item.attributesFor runtime with
      | none => exact later
      | some a =>
          dsimp only
          rw [configure_held (free item List.mem_cons_self a chosen) (held item List.mem_cons_self a chosen)]
          exact later

-- Configurations went in, the plan was made, and the rest of the pass acted on other things.
structure Passes (p : Provisioner) (runtime : RuntimeType) (effective : Profile) (pass : Pass) (q : Provisioner)
    (plan : List Wanted) : Prop where
  configured : p.applyConfigurations runtime effective.configurationItems = (.ok (), q)
  planned : p.plan effective = .ok plan
  acted : Acts q pass.provisioner

theorem passes_of_done (done : (p.reconcile runtime effective installed).outcome = .ok ()) :
    ∃ q plan, p.Passes runtime effective (p.reconcile runtime effective installed) q plan := by
  refine p.reconcile_elim runtime effective installed
    (P := fun pass => pass.outcome = .ok () → ∃ q plan, p.Passes runtime effective pass q plan)
    (fun _ _ _ => nofun) (fun _ _ _ _ => nofun) ?_ ?_ done
  · intro e _ _ _ _ _ _ failed done
    cases failed.symm.trans done
  · rintro targets plan _ configured planned rfl _ _
    exact ⟨_, plan, configured, planned, (releaseFrom_acts _ _ [] installed.reverse).trans (installMissing_acts _ _ plan)⟩

theorem agenda_nil (same : ∀ id, id ∈ resourceIds installed ↔ id ∈ wantedIds plan) : agenda installed plan = [] := by
  have kept : installed.reverse.filter (fun i => i.identity ∉ wantedIds plan) = [] := by
    refine List.filter_eq_nil_iff.mpr fun i there unwanted => of_decide_eq_true unwanted ((same _).mp ?_)
    exact List.mem_map_of_mem (List.mem_reverse.mp there)
  have present : plan.filter (fun w => w.resource.identity ∉ resourceIds installed) = [] := by
    refine List.filter_eq_nil_iff.mpr fun w there missing => of_decide_eq_true missing ((same _).mpr ?_)
    exact List.mem_map_of_mem there
  rw [agenda, kept, present]
  rfl

theorem reconcile_configures (items : (effective.configurationItems.map (·.id)).Nodup)
    (done : (p.reconcile runtime effective installed).outcome = .ok ()) :
    Configured runtime effective.configurationItems p (p.reconcile runtime effective installed).provisioner := by
  obtain ⟨q, plan, configured, _, _, _, _, _, acted⟩ := passes_of_done done
  have sets := applyConfigurations_sets items (congrArg Prod.fst configured)
  rw [configured] at sets
  rw [acted]
  exact ⟨sets.free, sets.set, sets.others⟩

-- Nothing is written, released or installed by the second pass.
theorem reconcile_again (once : (resourceIds installed).Nodup)
    (items : (effective.configurationItems.map (·.id)).Nodup)
    (done : (p.reconcile runtime effective installed).outcome = .ok ()) :
    (p.reconcile runtime effective installed).provisioner.reconcile runtime effective
        (p.reconcile runtime effective installed).installed =
      ⟨.ok (), (p.reconcile runtime effective installed).provisioner,
        (p.reconcile runtime effective installed).installed⟩ := by
  have configured := reconcile_configures items done
  have tracked : ∀ id, id ∈ resourceIds (p.reconcile runtime effective installed).installed ↔
      id ∈ effective.desired p.repository.environment := fun _ => reconcile_ids done
  have distinct := p.reconcile_nodup runtime effective once
  have terms := p.reconcile_terms runtime effective installed
  obtain ⟨_, plan, _, planned, _⟩ := passes_of_done done
  generalize p.reconcile runtime effective installed = pass at configured tracked distinct terms
  have refusals : pass.provisioner.refusals = p.refusals := congrArg (·.1) terms
  have offer : pass.provisioner.repository.environment = p.repository.environment := congrArg (·.2.1) terms
  have free : ∀ item ∈ effective.configurationItems, ∀ a, item.attributesFor runtime = some a →
      pass.provisioner.Configurable item.id := by
    intro item there a chosen
    rw [Configurable, refusals]
    exact configured.free item there a chosen
  have nothing : agenda pass.installed plan = [] := by
    refine agenda_nil fun id => ?_
    rw [tracked, (planned_of_plan planned).ids, List.mem_eraseDups]
  have unwritten := applyConfigurations_held free configured.set
  rw [reconcile_follows distinct unwritten ((plan_congr offer effective).trans planned), nothing]
  rfl

end Provisioner

theorem configurationIds_sublist (items : List Item) :
    ((items.filterMap Item.configuration?).map (·.id)).Sublist (items.map Item.id) := by
  induction items with
  | nil => exact .refl _
  | cons item rest ih =>
      cases item with
      | configuration item => exact ih.cons_cons item.id
      | resource item => exact ih.cons item.id
      | requirement item => exact ih.cons item.id

theorem ContainerRegistry.modify_same {r : ContainerRegistry} {id : ContainerId} {c : Container}
    {change : Container → Container} (live : r.live.get? id = some c) (same : change c = c) :
    r.modify id change = r := by
  have entries : r.live.insert id c = r.live := by
    refine Dict.ext_get? fun other => ?_
    rw [Dict.get?_insert]
    split
    · rename_i here
      rw [here, live]
    · rfl
  rw [modify, live]
  dsimp only
  rw [same, entries]

namespace Deployment

variable {s t : Deployment} {last : ContainerId → Option LastPass} {me : Thread} {caller : Option String}
  {id : ContainerId} {c : Container} {v : Version} {effective : Profile}

-- Items of one identity have grown together in an effective profile.
theorem effectiveFor_items (computed : s.effectiveFor me v ids = .ok effective) :
    (effective.configurationItems.map (·.id)).Nodup := by
  simp only [effectiveFor, bind_eq_ok, pure_eq_ok] at computed
  obtain ⟨order, _, rfl⟩ := computed
  exact (configurationIds_sublist _).nodup (Profile.ids_merge _ v order ▸ nodup_eraseDups _)

-- What a pass is given to do.
structure Due (t : Deployment) (me : Thread) (id : ContainerId) (c : Container) (v : Version) (effective : Profile) :
    Prop where
  live : t.containers.live.get? id = some c
  started : c.state = .started
  version : c.version = some v
  computed : t.effectiveFor me v c.profiles = .ok effective

theorem Due.passes (due : t.Due me id c v effective) (caller : Option String) :
    t.provision me caller id = t.reconcile caller c effective :=
  t.provision_passes me caller due.live due.started due.version due.computed

theorem Due.done (due : t.Due me id c v effective) (done : (t.provision me caller id).1 = .ok ()) :
    (t.passOf c effective).outcome = .ok () := by
  rw [due.passes caller, reconcile_outcome] at done
  cases result : (t.passOf c effective).outcome with
  | error e =>
      rw [result] at done
      cases done
  | ok _ => rfl

-- The same is due after the pass, of a container that tracks something else.
theorem Due.again (due : t.Due me id c v effective) (named : c.identity = id) :
    (t.provision me caller id).2.Due me id { c with installed := (t.passOf c effective).installed } v effective := by
  subst named
  have serves : Serves t (t.reconcile caller c effective).2 := reconcile_serves ⟨rfl, rfl, rfl⟩ caller c effective
  rw [due.passes caller]
  refine ⟨?_, due.started, due.version, ?_⟩
  · rw [reconcile_containers, ContainerRegistry.get?_modify, if_pos rfl, due.live]
    rfl
  · rw [serves.effectiveFor]
    exact due.computed

-- What the targets hold after a pass for the profile.
structure Applied (runtime : RuntimeType) (effective : Profile) (before after : Targets) : Prop where
  union : ∀ item ∈ effective.configurationItems, item.saidFor runtime ≠ [] →
    ∃ a, after.held.get? item.id = some a ∧ ConfigurationItem.Union (item.saidFor runtime) a
  others : ∀ target, (∀ item ∈ effective.configurationItems, item.id = target → item.saidFor runtime = []) →
    after.held.get? target = before.held.get? target

-- Provisioning succeeds and leaves all accounts and containers as they are.
structure Still (t : Deployment) (me : Thread) (caller : Option String) (id : ContainerId) : Prop where
  outcome : (t.provision me caller id).1 = .ok ()
  provisioner : (t.provision me caller id).2.provisioner = t.provisioner
  containers : (t.provision me caller id).2.containers = t.containers

theorem provision_configures (due : t.Due me id c v effective) (done : (t.provision me caller id).1 = .ok ()) :
    Applied t.settings.runtime effective t.provisioner.targets (t.provision me caller id).2.provisioner.targets := by
  have configured := Provisioner.reconcile_configures (effectiveFor_items due.computed) (due.done done)
  rw [due.passes caller, reconcile_provisioner]
  refine ⟨fun item there said => ?_, fun target none => ?_⟩
  · cases chosen : item.attributesFor t.settings.runtime with
    | none => exact (said (ConfigurationItem.attributesFor_eq_none.mp chosen)).elim
    | some a => exact ⟨a, configured.set item there a chosen, ConfigurationItem.attributesFor_eq_some chosen⟩
  · exact configured.others target fun item there same =>
      ConfigurationItem.attributesFor_eq_none.mpr (none item there same)

theorem provision_still (due : t.Due me id c v effective) (once : c.installedIds.Nodup) (named : c.identity = id)
    (done : (t.provision me caller id).1 = .ok ()) (again : Option String) :
    (t.provision me caller id).2.Still me again id := by
  let u := (t.provision me caller id).2
  let d : Container := { c with installed := (t.passOf c effective).installed }
  have next : u.Due me id d v effective := due.again named
  have provisioner : u.provisioner = (t.passOf c effective).provisioner := by
    change (t.provision me caller id).2.provisioner = _
    rw [due.passes caller, reconcile_provisioner]
  have settings : u.settings = t.settings := by
    change (t.provision me caller id).2.settings = _
    rw [due.passes caller]
    unfold reconcile
    dsimp only
    split <;> rfl
  have repeated : u.passOf d effective = ⟨.ok (), u.provisioner, d.installed⟩ := by
    rw [passOf, provisioner, settings]
    exact Provisioner.reconcile_again once (effectiveFor_items due.computed) (due.done done)
  have here : u.containers.live.get? d.identity = some d := by
    have own : d.identity = id := named
    rw [own]
    exact next.live
  refine ⟨?_, ?_, ?_⟩
  · rw [next.passes again, reconcile_outcome, repeated]
    rfl
  · rw [next.passes again, reconcile_provisioner, repeated]
  · rw [next.passes again, reconcile_containers, repeated]
    exact ContainerRegistry.modify_same here rfl

theorem passes_configure_and_repeat {supplied : Environment} {failing : List ResourceId}
    (built : build chosen stored { repository := { environment := supplied, failing } } heard time = .ok s)
    (history : s.History t last) (due : t.Due me id c v effective) (caller : Option String)
    (done : (t.provision me caller id).1 = .ok ()) :
    Applied t.settings.runtime effective t.provisioner.targets (t.provision me caller id).2.provisioner.targets ∧
      ∀ again, (t.provision me caller id).2.Still me again id := by
  have ledger := history.ledger (build_forgiving built)
  have once : c.installedIds.Nodup := ledger.once id c due.live
  have named : c.identity = id := ledger.named id c due.live
  exact ⟨provision_configures due done, fun again => provision_still due once named done again⟩

-- One configuration for every runtime, one that is laid over it, and one for another runtime.
def tuned : Profile :=
  { identity := "site", version := .first
    items := [.configuration { id := "web", configurations := [
      { name := "default", attributes := Dict.insert (Dict.insert ∅ "host" "a") "port" "80" },
      { name := "local", attributes := Dict.insert ∅ "port" "8080" },
      { name := "karaf", attributes := Dict.insert ∅ "host" "b",
        directives := Dict.insert ∅ Directives.includeKey "karaf" }] }] }

def tunedMerged : Profile := Profile.merge (Profile.effectiveIdentityFor .first ["site"]) .first [tuned]

theorem passes_configure_and_repeat_tuned :
    ∃ s t last, build {} (staged [tuned] { name := "repository" }).store
        { repository := { environment := { name := "repository" }, failing := [] } } {} "" = .ok s ∧
      s.History t last ∧ t.Due "main" "a" createdStarted .first tunedMerged ∧
      (t.provision "main" none "a").1 = .ok () ∧
      (Applied t.settings.runtime tunedMerged t.provisioner.targets
          (t.provision "main" none "a").2.provisioner.targets ∧
        ∀ again, (t.provision "main" none "a").2.Still "main" again "a") ∧
      (t.provision "main" none "a").2.provisioner.targets.held.get? "web" =
        some (Dict.insert (Dict.insert ∅ "host" "a") "port" "8080") := by
  let t := ((staged [tuned] { name := "repository" }).turns staging).modify "a" fun _ => createdStarted
  have built := build_staged [tuned] { name := "repository" }
  obtain ⟨last, staged⟩ := History.turns (build_forgiving built) staging
  have history : History _ t last := staged.dressed "a" fun c live => by
    cases live
    exact ⟨rfl, rfl⟩
  have due : t.Due "main" "a" createdStarted .first tunedMerged :=
    ⟨rfl, rfl, rfl, effectiveFor_of_walk rfl rfl (.fresh List.not_mem_nil List.not_mem_nil rfl .done .done)⟩
  have planned : ∀ targets, ({ t.provisioner with targets } : Provisioner).plan tunedMerged = .ok [] :=
    fun _ => Provisioner.plan_unrequiring rfl
  have pass : t.passOf createdStarted tunedMerged = ⟨.ok (), { t.provisioner with targets :=
      { held := Dict.insert ∅ "web" (Dict.insert (Dict.insert ∅ "host" "a") "port" "8080"), writes := 1 } }, []⟩ := by
    have once : (Provisioner.resourceIds createdStarted.installed).Nodup := List.nodup_nil
    rw [passOf, Provisioner.reconcile_follows once rfl (planned _)]
    rfl
  have done : (t.provision "main" none "a").1 = .ok () := by
    rw [due.passes none, reconcile_outcome, pass]
    rfl
  refine ⟨_, t, last, built, history, due, done, passes_configure_and_repeat built history due none done, ?_⟩
  rw [due.passes none, reconcile_provisioner, pass]
  rfl

end Deployment
end ContainerProfiles
