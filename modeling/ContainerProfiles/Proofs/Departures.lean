import ContainerProfiles.Proofs.Absences
import ContainerProfiles.Proofs.RepeatedStarts

namespace ContainerProfiles

-- What became of an identity. After any turns it names a live container, or one that was destroyed and is not
-- back, or none that ever was; an operation addressed to it that is to change the container tells the three apart.

open ContainerRegistry (Survives)

namespace Deployment

variable {s t : Deployment} {id : ContainerId} {ts : List Turn} {x : Turn}

theorem absent_iff {r : ContainerRegistry} : r.live.get? id = none ↔ r.contains id = false := by
  unfold ContainerRegistry.contains Dict.contains
  cases r.live.get? id <;> simp

-- Either all containers survive or one of them is destroyed.
theorem Course.survives_or (course : Course s x t) :
    Survives x.Halts s.containers t.containers ∨
      ∃ me caller gone c changed left, x = .action (.perform me caller (.destroy gone)) ∧
        s.containers.live.get? gone = some c ∧ s.destroy me gone caller = (.ok left, t) ∧
        t = s.removed caller changed gone := by
  cases course with
  | onward carries => exact .inl carries.containers
  | started _ carries => exact .inl (carries.containers.weaken fun _ => False.elim)
  | destroyed live destroyed => exact .inr ⟨_, _, _, _, _, _, rfl, live, destroyed, rfl⟩

theorem removed_marks {c : Container} (live : s.containers.live.get? id = some c) (caller : Option String)
    (changed : Container) (other : ContainerId) :
    (s.removed caller changed id).containers.isDestroyed other ↔ other = id ∨ s.containers.isDestroyed other := by
  unfold ContainerRegistry.isDestroyed
  rw [removed_destroyed caller changed live, KeySet.add]
  exact Dict.contains_insert

-- A container leaves by being destroyed, which is remembered.
theorem Course.leaves (course : Course s x t) (there : s.containers.contains id)
    (absent : t.containers.live.get? id = none) :
    t.containers.isDestroyed id ∧
      ∃ me caller left, x = .action (.perform me caller (.destroy id)) ∧ (s.destroy me id caller).1 = .ok left := by
  rcases course.survives_or with survives | ⟨me, caller, gone, c, changed, left, rfl, live, destroyed, rfl⟩
  · cases (absent_iff.mp absent).symm.trans (survives.contains there)
  · obtain ⟨d, before⟩ := Dict.contains_iff.mp there
    rw [get?_removed, before] at absent
    split at absent
    · rename_i same
      subst same
      exact ⟨(removed_marks live caller changed id).mpr (.inl rfl), me, caller, left, rfl, congrArg Prod.fst destroyed⟩
    · cases absent

-- What was destroyed and is not back stays remembered.
theorem Course.remembers (course : Course s x t) (gone : s.containers.isDestroyed id)
    (absent : t.containers.live.get? id = none) : t.containers.isDestroyed id := by
  rcases course.survives_or with survives | ⟨_, caller, _, _, changed, _, _, live, _, rfl⟩
  · refine (survives.known id gone).resolve_right fun back => ?_
    cases (absent_iff.mp absent).symm.trans back
  · exact (removed_marks live caller changed id).mpr (.inr gone)

-- What was not there cannot be destroyed.
theorem Course.spares (course : Course s x t) (absent : s.containers.live.get? id = none)
    (gone : t.containers.isDestroyed id) : s.containers.isDestroyed id := by
  rcases course.survives_or with survives | ⟨_, caller, _, _, changed, _, _, live, _, rfl⟩
  · exact survives.gone id gone
  · rcases (removed_marks live caller changed id).mp gone with rfl | before
    · cases absent.symm.trans live
    · exact before

-- Nobody has a destroyed container in hand: the live ones are not destroyed, the current one is live.
structure Tidy (s : Deployment) : Prop where
  forest : s.containers.Forest
  held : ∀ id, s.current = some id → s.containers.contains id
  alive : ∀ id c, s.containers.live.get? id = some c → c.state ≠ .destroyed

theorem Tidy.turn_held (tidy : Tidy s) (x : Turn) (current : (s.turn x).current = some id) :
    (s.turn x).containers.contains id := by
  have course := turn_course tidy.forest x
  by_cases before : s.current = some id
  · refine Bool.of_not_eq_false fun absent => ?_
    -- Only an end of this container takes it away, and the current container has none.
    obtain ⟨_, me, caller, _, rfl, _⟩ := course.leaves (tidy.held id before) (absent_iff.mpr absent)
    rw [turn_current before (x := .action (.perform me caller (.destroy id))) rfl, tidy.held id before] at absent
    cases absent
  · generalize s.turn x = t at course current
    cases course with
    | onward carries => exact absurd (carries.current.symm.trans current) before
    | started _ _ live =>
        cases current
        exact Dict.contains_iff.mpr ⟨_, live⟩
    | destroyed => exact absurd current before

theorem Tidy.turn_alive (tidy : Tidy s) (x : Turn) {c : Container}
    (live : (s.turn x).containers.live.get? id = some c) : c.state ≠ .destroyed := by
  intro dead
  rcases (turn_course tidy.forest x).survives_or with survives | ⟨_, _, _, _, _, _, _, _, _, removed⟩
  · obtain ⟨d, before, dead⟩ := survives.alive id c live dead
    exact tidy.alive id d before dead
  · rw [removed, get?_removed] at live
    split at live
    · cases live
    · obtain ⟨d, before, rfl⟩ := Option.map_eq_some_iff.mp live
      exact tidy.alive id d before dead

theorem Tidy.turn (tidy : Tidy s) (x : Turn) : Tidy (s.turn x) where
  forest := turn_forest tidy.forest x
  held := fun _ => tidy.turn_held x
  alive := fun _ _ => tidy.turn_alive x

theorem Tidy.turns (tidy : Tidy s) (ts : List Turn) : Tidy (s.turns ts) :=
  turns_keep tidy fun _ x _ holds => holds.turn x

theorem tidy_of_build {stored : Store} {supplied : Provisioner}
    (built : build chosen stored supplied heard time = .ok s) :
    Tidy s ∧ ∀ id, s.containers.isDestroyed id = false := by
  simp only [build, bind_eq_ok, pure_eq_ok] at built
  obtain ⟨_, _, _, _, rfl⟩ := built
  refine ⟨⟨ContainerRegistry.forest_empty, ?_, ?_⟩, fun _ => rfl⟩
  · intro id current
    cases current
  · intro id c live
    cases live

-- It was destroyed, and since then it has not been there again.
def Departed (s : Deployment) (ts : List Turn) (id : ContainerId) : Prop :=
  ∃ before me caller after left,
    let destroyed := before ++ [.action (.perform me caller (.destroy id))]
    ts = destroyed ++ after ∧ ((s.turns before).destroy me id caller).1 = .ok left ∧
      ∀ later, later <+: after → (s.turns (destroyed ++ later)).containers.live.get? id = none

-- It has never been there.
def Unheard (s : Deployment) (ts : List Turn) (id : ContainerId) : Prop :=
  ∀ before, before <+: ts → (s.turns before).containers.live.get? id = none

theorem turns_concat (s : Deployment) (ts : List Turn) (x : Turn) : s.turns (ts ++ [x]) = (s.turns ts).turn x :=
  s.turns_append ts [x]

-- What holds at first and goes on holding as long as the container is absent.
theorem turns_absent {P : Deployment → Prop} (start : P s) (unheard : Unheard s ts id)
    (step : ∀ t x, t.containers.live.get? id = none → (t.turn x).containers.live.get? id = none → P t →
      P (t.turn x)) : P (s.turns ts) := by
  induction ts using List.reverseRecOn with
  | nil => exact start
  | append_singleton ts x ih =>
      have earlier := ih fun before within => unheard before (within.trans (List.prefix_append ts [x]))
      have after := unheard _ List.prefix_rfl
      rw [turns_concat] at after ⊢
      exact step _ x (unheard ts (List.prefix_append ts [x])) after earlier

theorem Unheard.unmarked (tidy : Tidy s) (fresh : s.containers.isDestroyed id = false) (unheard : Unheard s ts id) :
    (s.turns ts).containers.isDestroyed id = false := by
  refine (turns_absent (P := fun t => Tidy t ∧ t.containers.isDestroyed id = false) ⟨tidy, fresh⟩ unheard ?_).2
  intro t x absent _ holds
  refine ⟨holds.1.turn x, Bool.eq_false_iff.mpr fun gone => ?_⟩
  cases holds.2.symm.trans ((turn_course holds.1.forest x).spares absent gone)

theorem Departed.absent (departed : Departed s ts id) : (s.turns ts).containers.live.get? id = none := by
  obtain ⟨_, _, _, after, _, rfl, _, absent⟩ := departed
  exact absent after List.prefix_rfl

theorem Departed.marked (tidy : Tidy s) (departed : Departed s ts id) : (s.turns ts).containers.isDestroyed id := by
  obtain ⟨before, me, caller, after, left, rfl, destroyed, absent⟩ := departed
  have earlier : Tidy (s.turns before) := tidy.turns before
  have unheard : Unheard (s.turns (before ++ [.action (.perform me caller (.destroy id))])) after id := by
    intro later within
    rw [← turns_append]
    exact absent later within
  rw [turns_concat] at unheard
  rw [turns_append, turns_concat]
  have marked : ((s.turns before).turn (.action (.perform me caller (.destroy id)))).containers.isDestroyed id := by
    rcases (s.turns before).destroy_cases me id caller with ⟨e, failed, _⟩ | ⟨c, changed, _, live, removes⟩
    · cases failed.symm.trans destroyed
    · change ((s.turns before).destroy me id caller).2.containers.isDestroyed id
      rw [removes]
      exact (removed_marks live caller changed id).mpr (.inl rfl)
  refine (turns_absent (P := fun t => Tidy t ∧ t.containers.isDestroyed id) ⟨earlier.turn _, marked⟩ unheard ?_).2
  exact fun t x _ after holds => ⟨holds.1.turn x, (turn_course holds.1.forest x).remembers holds.2 after⟩

-- One of the three.
theorem Tidy.fate_cases (tidy : Tidy s) (ts : List Turn) (id : ContainerId) :
    (s.turns ts).containers.contains id ∨ Departed s ts id ∨ Unheard s ts id := by
  induction ts using List.reverseRecOn with
  | nil =>
      cases there : s.containers.contains id with
      | true => exact .inl there
      | false =>
          refine .inr (.inr fun before within => ?_)
          rw [List.prefix_nil.mp within]
          exact absent_iff.mpr there
  | append_singleton ts x ih =>
      cases there : (s.turns (ts ++ [x])).containers.contains id with
      | true => exact .inl rfl
      | false =>
          have absent := absent_iff.mpr there
          rcases ih with before | ⟨before, me, caller, after, left, rfl, destroyed, since⟩ | unheard
          · rw [turns_concat] at absent
            obtain ⟨_, me, caller, left, rfl, destroyed⟩ :=
              (turn_course (tidy.turns ts).forest x).leaves before absent
            refine .inr (.inl ⟨ts, me, caller, [], left, (List.append_nil _).symm, destroyed, fun later within => ?_⟩)
            rw [List.prefix_nil.mp within, List.append_nil, turns_concat]
            exact absent
          · refine .inr (.inl ⟨before, me, caller, after ++ [x], left, List.append_assoc .., destroyed, ?_⟩)
            intro later within
            rcases List.prefix_concat_iff.mp within with rfl | within
            · rwa [← List.append_assoc]
            · exact since later within
          · refine .inr (.inr fun before within => ?_)
            rcases List.prefix_concat_iff.mp within with rfl | within
            · exact absent
            · exact unheard before within

-- What the service answers once these turns are over, whatever is asked of it. What it refuses before it looks for
-- the container says nothing about it.
structure ToldApart (s : Deployment) (ts : List Turn) (id : ContainerId) : Prop where
  fate : (∃ c, (s.turns ts).containers.live.get? id = some c) ∨ Departed s ts id ∨ Unheard s ts id
  before : ∀ me op, Present ((s.turns ts).beforehand me op)
  live : ∀ c, (s.turns ts).containers.live.get? id = some c → ∀ me caller op, op.addressee? = some id →
    Present ((s.turns ts).perform me caller op).1
  departed : Departed s ts id → ∀ me caller op, op.addressee? = some id → (s.turns ts).perform me caller op =
    ((s.turns ts).beforehand me op >>= fun _ =>
      throw (if op.looks then .containerNotFound id else .invalidTransition id .destroyed op.aim), s.turns ts)
  unheard : Unheard s ts id → ∀ me caller op, op.addressee? = some id → (s.turns ts).perform me caller op =
    ((s.turns ts).beforehand me op >>= fun _ => throw (.containerNotFound id), s.turns ts)

-- However a deployment is used, the service knows of every identity what became of it.
theorem turns_told_apart {stored : Store} {supplied : Provisioner}
    (built : build chosen stored supplied heard time = .ok s) (ts : List Turn)
    (active : (s.turns ts).containerService.active) (id : ContainerId) : ToldApart s ts id := by
  obtain ⟨first, fresh⟩ := tidy_of_build built
  have tidy : Tidy (s.turns ts) := first.turns ts
  have elsewhere : (s.turns ts).containers.live.get? id = none → (s.turns ts).current ≠ some id := by
    intro absent current
    cases (absent_iff.mp absent).symm.trans (tidy.held id current)
  refine ⟨(first.fate_cases ts id).imp_left Dict.contains_iff.mp, (s.turns ts).beforehand_present, ?_, ?_, ?_⟩
  · intro c live me caller op addressed
    exact perform_present live (tidy.forest.keyed id c live) (tidy.alive id c live) addressed me caller
  · intro departed me caller op addressed
    rw [perform_absent active departed.absent (elsewhere departed.absent) addressed me caller, absence,
      departed.marked first]
    cases op.looks <;> rfl
  · intro unheard me caller op addressed
    have absent := unheard ts List.prefix_rfl
    rw [perform_absent active absent (elsewhere absent) addressed me caller, absence,
      unheard.unmarked first (fresh id)]
    rfl

-- Created and destroyed.
def passing : List Turn :=
  [.switch true true, .action (.perform "main" none (.create { identity := "a" })),
    .action (.perform "main" none (.destroy "a"))]

theorem turns_told_apart_passing :
    ∃ s, build {} (.memory {}) {} {} "" = .ok s ∧ (s.turns passing).containerService.active ∧
      ToldApart s passing "a" :=
  ⟨atRest, build_atRest, rfl, turns_told_apart build_atRest passing rfl "a"⟩

-- Who only looks at a destroyed container does not learn that it was there.
theorem departed_looks_unheard :
    ∃ s, build {} (.memory {}) {} {} "" = .ok s ∧ (s.turns passing).containerService.active ∧
      Departed s passing "a" ∧
      ((s.turns passing).perform "main" none (.getContainer "a")).1 = .error (.containerNotFound "a") := by
  refine ⟨atRest, build_atRest, rfl, ⟨passing.take 2, "main", none, [], _, rfl, rfl, fun later within => ?_⟩, rfl⟩
  rw [List.prefix_nil.mp within]
  rfl

end Deployment
end ContainerProfiles
