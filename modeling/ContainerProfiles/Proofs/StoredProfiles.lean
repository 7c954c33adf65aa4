import ContainerProfiles.Proofs.PassedStarts

namespace ContainerProfiles

-- What is stored at any time.

namespace LinkedProfile

-- A profile that was added is found, whatever becomes of its parents.
theorem link?_isSome {order : List Profile} {id : ProfileId} (member : id ∈ Catalog.identities order) :
    ∃ l, link? order id = some l := by
  have kept : ∀ (order : List Profile) (built : Dict ProfileId LinkedProfile),
      (id ∈ Catalog.identities order ∨ built.contains id) →
        ∃ l, (order.foldl add built).get? id = some l := by
    intro order
    induction order with
    | nil =>
        rintro built (none | old)
        · cases none
        · exact Dict.contains_iff.mp old
    | cons p rest ih =>
        intro built known
        refine ih _ ?_
        rcases known with listed | old
        · rcases List.mem_cons.mp listed with rfl | later
          · exact .inr (Dict.contains_insert.mpr (.inl rfl))
          · exact .inl later
        · exact .inr (Dict.contains_insert.mpr (.inr old))
  exact kept order ∅ (.inl member)

end LinkedProfile

namespace Deployment

variable {s t : Deployment} {me : Thread}

theorem Change.store_cases (change : Change s t) :
    s.StoreChange t.store ∨ ∃ me p u, Replaced s me p u ∧ t.store = u.store := by
  cases change with
  | stored edit => exact .inl edit
  | reassigned caller _ _ =>
      refine .inl ?_
      rw [(changeAndProvision_beside ..).store]
      exact .same s
  | updated caller replaced => exact .inr ⟨_, _, _, replaced, (reprovisions_beside ..).store⟩
  | _ => exact .inl (.same s)

theorem Replaced.replaces (replaced : Replaced s me p t) (memory : s.store = .memory m)
    (sound : m.Sound) : ∃ n, t.store = .memory n ∧ m.Replaces p n := by
  obtain ⟨caller, e, prepared, stored⟩ := replaced
  rcases replacement_change memory sound prepared with ⟨_, refused⟩ | ⟨n, accepted, edit⟩
  · cases stored.symm.trans refused
  · cases stored.symm.trans accepted
    exact ⟨n, rfl, edit⟩

def Stored (s : Deployment) : Prop := ∃ m, s.store = .memory m ∧ m.Sound

theorem Replaced.stored (replaced : Replaced s me p t) (holds : s.Stored) : t.Stored := by
  obtain ⟨m, memory, sound⟩ := holds
  obtain ⟨n, after, edit⟩ := replaced.replaces memory sound
  exact ⟨n, after, edit.sound sound⟩

theorem Change.stored_kept (change : Change s t) (holds : s.Stored) : t.Stored := by
  rcases change.store_cases with edits | ⟨me, p, u, replaced, same⟩
  · obtain ⟨m, memory, sound⟩ := holds
    obtain ⟨n, after, edit⟩ := edits m memory sound
    exact ⟨n, after, edit.sound sound⟩
  · obtain ⟨n, after, sound⟩ := replaced.stored holds
    exact ⟨n, same.trans after, sound⟩

theorem act_stored (holds : s.Stored) (a : Action) : (s.act a).Stored := by
  by_cases operation : ∃ me caller op, a = .perform me caller op
  · obtain ⟨me, caller, op, rfl⟩ := operation
    exact perform_keeps holds (fun _ _ => Change.stored_kept) (fun _ _ _ => Replaced.stored) me caller op
  · obtain ⟨m, memory, sound⟩ := holds
    have aside := s.act_aside (a := a) fun me caller op same => operation ⟨me, caller, op, same⟩
    exact ⟨m, aside.1.trans memory, sound⟩

theorem run_stored (holds : s.Stored) (actions : List Action) : (s.run actions).Stored :=
  run_keeps holds fun _ a _ holds => act_stored holds a

-- Every question about the ancestors of `roots` is answered from `listed` once the version is locked.
def Answers (s : Deployment) (v : Version) (roots : List ProfileId) (listed : List Profile) : Prop :=
  ∀ me, let granted := s.permitVersion me v .read
    s.lineage me v roots = granted.map (fun _ => listed.map Profile.identity) ∧
    s.effectiveFor me v roots =
      granted.map (fun _ => Profile.merge (Profile.effectiveIdentityFor v roots) v listed) ∧
    ∀ id, roots = [id] →
      s.effective me v id =
        granted.map (fun _ => Profile.merge (Profile.effectiveIdentity id) v listed) ∧
      ∃ l, LinkedProfile.link? listed id = some l ∧ s.linked me v id = granted.map (fun _ => l)

theorem order_of_stored {roots : List ProfileId} {listed : List Profile} (memory : s.store = .memory m)
    (sound : m.Sound) (found : m.versions.get? v = some entry)
    (walked : entry.profiles.linearize roots = .ok listed) (me : Thread) :
    s.order me v roots = (s.permitVersion me v .read).map (fun _ => listed) := by
  unfold Deployment.order
  cases s.permitVersion me v .read with
  | error e => rfl
  | ok _ =>
      have loaded := (load_eq_ok memory sound).mpr ⟨entry, found, rfl⟩
      exact bind_eq_ok.mpr ⟨(), rfl, bind_eq_ok.mpr ⟨_, loaded, VersionState.linearize_eq_ok.mpr walked⟩⟩

theorem answers_of_stored {roots : List ProfileId} {listed : List Profile} (memory : s.store = .memory m)
    (sound : m.Sound) (found : m.versions.get? v = some entry)
    (walked : entry.profiles.linearize roots = .ok listed) : s.Answers v roots listed := by
  intro me
  have ordered := order_of_stored memory sound found walked me
  refine ⟨?_, ?_, ?_⟩
  · rw [lineage, ordered]
    cases s.permitVersion me v .read <;> rfl
  · rw [effectiveFor, ordered]
    cases s.permitVersion me v .read <;> rfl
  · rintro id rfl
    have member : id ∈ Catalog.identities listed :=
      (Catalog.mem_linearize (sound v entry found).keyed walked).mpr ⟨id, List.mem_cons_self, .refl⟩
    obtain ⟨l, linked⟩ := LinkedProfile.link?_isSome member
    refine ⟨?_, l, linked, ?_⟩
    · rw [effective, ordered]
      cases s.permitVersion me v .read <;> rfl
    · rw [Deployment.linked, ordered]
      cases s.permitVersion me v .read with
      | error e => rfl
      | ok _ =>
          dsimp only [Except.map, bind, Except.bind]
          rw [linked]
          rfl

-- The store is in memory and everything in it fits together.
def Consistent (s : Deployment) : Prop :=
  ∃ m, s.store = .memory m ∧ ∀ v entry, m.versions.get? v = some entry →
    (∀ id p, entry.profiles.get? id = some p →
      p.version = v ∧ p.identity = id ∧ p.validate = .ok () ∧
        ¬ Profile.effectiveMark.toList <+: p.identity.toList ∧
        ∀ parent ∈ p.parents, entry.profiles.contains parent) ∧
    (∀ id, ¬ Relation.TransGen entry.profiles.Inherits id id) ∧
    ∀ roots, (∀ id ∈ roots, entry.profiles.contains id) →
      ∃ listed, entry.profiles.linearize roots = .ok listed ∧ s.Answers v roots listed

theorem Stored.consistent (holds : s.Stored) : s.Consistent := by
  obtain ⟨m, memory, sound⟩ := holds
  refine ⟨m, memory, fun v entry found => ?_⟩
  have fitting := sound v entry found
  refine ⟨fun id p held => ?_, fitting.acyclic, fun roots stored => ?_⟩
  · refine ⟨fitting.version id p held, fitting.keyed id p held, fitting.valid id p held, ?_, ?_⟩
    · intro marked
      have plain := fitting.plain id p held
      rw [Profile.isEffective, List.isPrefixOf_iff_prefix.mpr marked] at plain
      cases plain
    · exact fun parent declared => fitting.closed id parent ⟨p, held, declared⟩
  · obtain ⟨listed, walked⟩ := Catalog.linearize_succeeds fitting.closed fitting.acyclic stored
    exact ⟨listed, walked, answers_of_stored memory sound found walked⟩

theorem run_consistent (empty : s.store = .memory {}) (actions : List Action) :
    (s.run actions).Consistent :=
  (run_stored ⟨{}, empty, MemoryStore.sound_empty⟩ actions).consistent

-- One of two ways up is led through the other while containers run with them.
theorem run_consistent_redirected :
    ∃ s, build {} (.memory {}) { repository := { environment := loggers, failing := [] } } {} "" = .ok s ∧
      s.store = .memory {} ∧
      let t := s.run (launching ++ [doing (.replaceProfile redirected)])
      (s.run launching).load siteVersion = .ok siteState ∧
      t.load siteVersion = .ok (siteState.put redirected) ∧ t.Consistent := by
  have consistent := run_consistent (s := unstarted [logger]) rfl (launching ++ [doing (.replaceProfile redirected)])
  have replaced : bothStarted.run [doing (.replaceProfile redirected)] = rerouted :=
    congrArg Prod.snd replaceProfile_redirected
  refine ⟨unstarted [logger], build_unstarted [logger], rfl, ?_, ?_, consistent⟩
  · rw [run_launching]
    exact load_site rfl
  · rw [run_append, run_launching, replaced]
    rfl

end Deployment
end ContainerProfiles
