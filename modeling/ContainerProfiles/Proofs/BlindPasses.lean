import ContainerProfiles.Proofs.Ledger

namespace ContainerProfiles

-- Which resources a pass leaves on a container follows from the profile, from what the repository offers and from
-- which resources were there before.

-- Apart from its handle.
def Installed.plain (i : Installed) : Installed := { i with handle := ⟨0, { identity := i.identity }⟩ }

namespace Provisioner

variable {p q : Provisioner} {installed others : List Installed}

theorem configure_eq (p : Provisioner) (target : String) (attributes : Attributes) :
    p.configure target attributes =
      if p.refusals.targets.contains target then .error (.targetRefused target)
      else (p.targets.apply target attributes).map fun done => { p with targets := done.2 } := by
  unfold configure
  split
  · rfl
  · cases p.targets.apply target attributes <;> rfl

theorem apply_congr (t u : Targets) (target : String) (attributes : Attributes) :
    (t.apply target attributes = .error .emptyTarget ∧ u.apply target attributes = .error .emptyTarget) ∨
      ∃ ts us, t.apply target attributes = .ok ts ∧ u.apply target attributes = .ok us := by
  unfold Targets.apply
  by_cases empty : target = ""
  · exact .inl ⟨if_pos empty, if_pos empty⟩
  · right
    rw [if_neg empty, if_neg empty]
    split <;> split <;> exact ⟨_, _, rfl, rfl⟩

theorem configure_congr (same : q.refusals = p.refusals) (target : String) (attributes : Attributes) :
    (∃ e, p.configure target attributes = .error e ∧ q.configure target attributes = .error e) ∨
      ∃ ps qs, p.configure target attributes = .ok { p with targets := ps } ∧
        q.configure target attributes = .ok { q with targets := qs } := by
  rw [configure_eq, configure_eq, same]
  split
  · exact .inl ⟨_, rfl, rfl⟩
  · rcases apply_congr p.targets q.targets target attributes with ⟨one, two⟩ | ⟨ps, qs, one, two⟩
    · rw [one, two]
      exact .inl ⟨_, rfl, rfl⟩
    · rw [one, two]
      exact .inr ⟨ps.2, qs.2, rfl, rfl⟩

theorem applyConfigurations_congr (same : q.refusals = p.refusals) (runtime : RuntimeType)
    (items : List ConfigurationItem) :
    (q.applyConfigurations runtime items).1 = (p.applyConfigurations runtime items).1 := by
  induction items generalizing p q with
  | nil => rfl
  | cons item rest ih =>
      unfold applyConfigurations
      split
      · exact ih same
      · rename_i attributes _
        rcases configure_congr same item.id attributes with ⟨e, one, two⟩ | ⟨ps, qs, one, two⟩
        · rw [one, two]
        · rw [one, two]
          exact ih same

theorem plan_congr (offer : q.repository.environment = p.repository.environment) (effective : Profile) :
    q.plan effective = p.plan effective := by
  unfold plan
  rw [offer]

theorem any_plain {installed : List Installed} (id : ResourceId) :
    (installed.map Installed.plain).any (fun i => i.identity = id) =
      installed.any (fun i => i.identity = id) := by
  rw [List.any_map]
  rfl

theorem put_willing (willing : p.repository.failing = []) (r : Resource) (common : Bool) :
    ∃ i q, p.put r common = .ok (i, q) ∧ i.plain = Installed.plain ⟨r.identity, ⟨0, r⟩, common⟩ ∧
      q.repository.failing = [] := by
  have installs : ∃ handle q, p.install r = .ok (handle, q) ∧ q.repository.failing = [] := by
    unfold install Repository.install
    simp only [willing, List.not_mem_nil, if_false]
    exact ⟨_, _, rfl, rfl⟩
  obtain ⟨handle, q, done, still⟩ := installs
  cases common with
  | false =>
      refine ⟨⟨r.identity, handle, false⟩, q, ?_, rfl, still⟩
      rw [put_eq, if_neg (by simp), done]
      rfl
  | true =>
      rw [put_eq, if_pos rfl]
      unfold installShared
      cases p.shared.get? r.identity with
      | some use => exact ⟨⟨r.identity, use.handle, true⟩, _, rfl, rfl, willing⟩
      | none =>
          rw [done]
          exact ⟨⟨r.identity, handle, true⟩, _, rfl, rfl, still⟩

-- Where no install fails, what is missing is installed.
theorem installMissing_willing {present : List Installed} (willing : p.repository.failing = [])
    (willing' : q.repository.failing = [])
    (same : present.map Installed.plain = installed.map Installed.plain) (wanted : List Wanted) :
    (q.installMissing present wanted).outcome = (p.installMissing installed wanted).outcome ∧
      (q.installMissing present wanted).installed.map Installed.plain =
        (p.installMissing installed wanted).installed.map Installed.plain := by
  induction wanted generalizing p q installed present with
  | nil => exact ⟨rfl, same⟩
  | cons w rest ih =>
      have there : present.any (fun i => i.identity = w.resource.identity) =
          installed.any (fun i => i.identity = w.resource.identity) := by
        rw [← any_plain, same, any_plain]
      unfold installMissing
      rw [there]
      split
      · exact ih willing willing' same
      · obtain ⟨i, p', one, plain, still⟩ := put_willing willing w.resource w.shared
        obtain ⟨j, q', two, plain', still'⟩ := put_willing willing' w.resource w.shared
        rw [one, two]
        refine ih still still' ?_
        rw [List.map_append, List.map_append, same, List.map_singleton, List.map_singleton, plain, plain']

section Two

variable {present elsewhere : List Installed} (balanced : p.Balanced (installed ++ others))
  (balanced' : q.Balanced (present ++ elsewhere)) (terms : q.terms = p.terms)
  (willing : p.repository.failing = [])
  (same : present.map Installed.plain = installed.map Installed.plain)

include balanced balanced' terms willing same

-- Every release goes through, so what is left over follows from the plan.
theorem exchange_congr (stays : ResourceId → Bool) (wanted : List Wanted) :
    let one := p.releaseUnwanted stays installed
    let two := q.releaseUnwanted stays present
    one.outcome = .ok () ∧ two.outcome = .ok () ∧
      (two.provisioner.installMissing two.installed wanted).outcome =
        (one.provisioner.installMissing one.installed wanted).outcome ∧
      (two.provisioner.installMissing two.installed wanted).installed.map Installed.plain =
        (one.provisioner.installMissing one.installed wanted).installed.map Installed.plain := by
  intro one two
  have done : one.outcome = .ok () := (releaseUnwanted_balanced stays balanced).1
  have done' : two.outcome = .ok () := (releaseUnwanted_balanced stays balanced').1
  have kept : one.provisioner.terms = p.terms := p.releaseFrom_terms stays [] installed.reverse
  have kept' : two.provisioner.terms = p.terms := (q.releaseFrom_terms stays [] present.reverse).trans terms
  have left : two.installed.map Installed.plain = one.installed.map Installed.plain := by
    have filtered : ∀ l : List Installed, (l.filter fun i => stays i.identity).map Installed.plain =
        (l.map Installed.plain).filter fun i => stays i.identity := by
      intro l
      rw [List.filter_map]
      rfl
    rw [releaseUnwanted_installed done, releaseUnwanted_installed done', filtered, filtered, same]
  refine ⟨done, done', installMissing_willing ?_ ?_ left wanted⟩
  · exact (congrArg (·.2.2) kept).trans willing
  · exact (congrArg (·.2.2) kept').trans willing

theorem reconcile_congr (runtime : RuntimeType) (effective : Profile) :
    (q.reconcile runtime effective present).outcome = (p.reconcile runtime effective installed).outcome ∧
      (q.reconcile runtime effective present).installed.map Installed.plain =
        (p.reconcile runtime effective installed).installed.map Installed.plain := by
  have refusals : q.refusals = p.refusals := congrArg (·.1) terms
  have offer : q.repository.environment = p.repository.environment := congrArg (·.2.1) terms
  have applied := applyConfigurations_congr refusals runtime effective.configurationItems
  obtain ⟨ps, first⟩ := p.applyConfigurations_eq runtime effective.configurationItems
  obtain ⟨qs, second⟩ := q.applyConfigurations_eq runtime effective.configurationItems
  unfold reconcile
  rcases one : p.applyConfigurations runtime effective.configurationItems with ⟨outcome, p'⟩
  rcases two : q.applyConfigurations runtime effective.configurationItems with ⟨outcome', q'⟩
  rw [one] at applied first
  rw [two] at applied second
  cases first
  cases second
  cases applied
  cases outcome with
  | error e => exact ⟨rfl, same⟩
  | ok _ =>
      dsimp only
      rw [plan_congr (p := { p with targets := ps }) (q := { q with targets := qs }) offer]
      cases ({ p with targets := ps } : Provisioner).plan effective with
      | error e => exact ⟨rfl, same⟩
      | ok plan =>
          obtain ⟨done, done', result⟩ := exchange_congr (balanced.retarget ps) (balanced'.retarget qs)
            terms willing same (fun id => plan.any fun w => w.resource.identity = id) plan
          dsimp only
          rw [done, done']
          exact result

end Two

end Provisioner
end ContainerProfiles
