import ContainerProfiles.Proofs.Resolution
import Mathlib.Data.List.Flatten
import Mathlib.Data.List.Perm.Subperm
import Mathlib.Logic.Function.Iterate

namespace ContainerProfiles

-- The line of a resolution, round by round.

-- What is asked for and what any of the resources needs.
def closure (asked : List Requirement) (rs : List Resource) : List Requirement :=
  asked ++ rs.flatMap (·.requirements)

theorem mem_closure {asked : List Requirement} {rs : List Resource} {q : Requirement} :
    q ∈ closure asked rs ↔ q ∈ asked ∨ ∃ r ∈ rs, q ∈ r.requirements := by
  rw [closure, List.mem_append, List.mem_flatMap]

theorem closure_append (asked : List Requirement) (rs ss : List Resource) :
    closure asked (rs ++ ss) = closure asked rs ++ ss.flatMap (·.requirements) := by
  rw [closure, closure, List.flatMap_append, List.append_assoc]

-- More resources that occur once each need more.
theorem closure_length_le {asked : List Requirement} {rs ss : List Resource} (once : rs.Nodup) (known : rs ⊆ ss) :
    (closure asked rs).length ≤ (closure asked ss).length := by
  obtain ⟨picked, same, part⟩ := once.subperm known
  have needs : (rs.flatMap (·.requirements)).length = (picked.flatMap (·.requirements)).length :=
    (same.flatMap_right _).length_eq.symm
  have most : (picked.flatMap (·.requirements)).length ≤ (ss.flatMap (·.requirements)).length :=
    (part.flatMap _).length_le
  rw [closure, closure, List.length_append, List.length_append]
  omega

-- A line in which requirements stand, what has come up in it, and what came of that.
structure Line where
  seen : List Requirement := []
  found : Resolution := {}
  queue : List Requirement

namespace Environment

def opening (env : Environment) (asked : List Requirement) : Line := { queue := closure asked env.fixed }

def next (env : Environment) : Line → Line
  | ⟨seen, found, []⟩ => ⟨seen, found, []⟩
  | ⟨seen, found, q :: rest⟩ =>
      if q ∈ seen then ⟨seen, found, rest⟩
      else if env.provided found q then ⟨q :: seen, found, rest⟩
      else
        match env.best? q with
        | none => ⟨q :: seen, found.leave q, rest⟩
        | some r => ⟨q :: seen, found.choose r, rest ++ r.requirements⟩

-- What a round can do.
inductive Round (env : Environment) : Line → Line → Prop
  | ended : Round env ⟨seen, found, []⟩ ⟨seen, found, []⟩
  | again {q : Requirement} : q ∈ seen → Round env ⟨seen, found, q :: rest⟩ ⟨seen, found, rest⟩
  | met {q : Requirement} : q ∉ seen → env.provided found q →
      Round env ⟨seen, found, q :: rest⟩ ⟨q :: seen, found, rest⟩
  | chosen {q : Requirement} {r : Resource} : q ∉ seen → ¬ env.provided found q → env.best? q = some r →
      Round env ⟨seen, found, q :: rest⟩ ⟨q :: seen, found.choose r, rest ++ r.requirements⟩
  | unmet {q : Requirement} : q ∉ seen → ¬ env.provided found q → env.best? q = none →
      Round env ⟨seen, found, q :: rest⟩ ⟨q :: seen, found.leave q, rest⟩

variable {env : Environment} {seen queue asked : List Requirement} {found last : Resolution} {l m : Line}

theorem round_next (env : Environment) (l : Line) : Round env l (env.next l) := by
  rcases l with ⟨seen, found, _ | ⟨q, rest⟩⟩
  · exact .ended
  · by_cases old : q ∈ seen
    · rw [next, if_pos old]
      exact .again old
    · by_cases provided : env.provided found q
      · rw [next, if_neg old, if_pos provided]
        exact .met old provided
      · rw [next, if_neg old, if_neg provided]
        cases best : env.best? q with
        | none => exact .unmet old provided best
        | some r => exact .chosen old provided best

theorem Round.eq_next (round : Round env l m) : m = env.next l := by
  cases round with
  | ended => rfl
  | again old => rw [next, if_pos old]
  | met new provided => rw [next, if_neg new, if_pos provided]
  | chosen new unprovided best => rw [next, if_neg new, if_neg unprovided, best]
  | unmet new unprovided none => rw [next, if_neg new, if_neg unprovided, none]

theorem Round.iterate (round : Round env l m) (n : Nat) : env.next^[n + 1] l = env.next^[n] m := by
  rw [Function.iterate_succ_apply, ← round.eq_next]

-- What every round keeps holds after any number of them.
theorem keeps {P : Line → Prop} (step : ∀ l m, Round env l m → P l → P m) (start : P l) (n : Nat) :
    P (env.next^[n] l) := by
  induction n generalizing l with
  | zero => exact start
  | succ n ih => exact ih (step l _ (env.round_next l) start)

-- Every requirement in line takes a round, and so does every one that joins it.
theorem Settles.rounds (run : Settles env seen found queue last) :
    ∃ whole more, last.resources = found.resources ++ more ∧
      env.next^[(closure queue more).length] ⟨seen, found, queue⟩ = ⟨whole, last, []⟩ := by
  induction run with
  | @done seen found => exact ⟨seen, [], (List.append_nil _).symm, rfl⟩
  | again old _ ih =>
      obtain ⟨whole, more, grown, later⟩ := ih
      exact ⟨whole, more, grown, ((Round.again old).iterate _).trans later⟩
  | met new provided _ ih =>
      obtain ⟨whole, more, grown, later⟩ := ih
      exact ⟨whole, more, grown, ((Round.met new provided).iterate _).trans later⟩
  | @chosen seen found rest last q r new unprovided best _ ih =>
      -- What joins the line here is what the resource needs, so the rounds still count the whole closure.
      obtain ⟨whole, more, grown, later⟩ := ih
      refine ⟨whole, r :: more, ?_, ?_⟩
      · rw [grown, Resolution.choose, List.append_assoc, List.singleton_append]
      · have joined : closure (rest ++ r.requirements) more = closure rest (r :: more) := by
          rw [closure, closure, List.flatMap_cons, List.append_assoc]
        rw [joined] at later
        exact ((Round.chosen new unprovided best).iterate _).trans later
  | unmet new unprovided none _ ih =>
      obtain ⟨whole, more, grown, later⟩ := ih
      rw [leave_resources] at grown
      exact ⟨whole, more, grown, ((Round.unmet new unprovided none).iterate _).trans later⟩

theorem resolve_rounds (env : Environment) (asked : List Requirement) :
    ∃ whole, env.next^[(closure asked (env.fixed ++ (env.resolve asked).resources)).length] (env.opening asked) =
      ⟨whole, env.resolve asked, []⟩ := by
  obtain ⟨whole, more, grown, rounds⟩ := (settles_settle env [] {} (closure asked env.fixed)).rounds
  have selected : (env.resolve asked).resources = more := grown
  have all : closure asked (env.fixed ++ more) = closure (closure asked env.fixed) more := closure_append _ _ _
  rw [selected, all]
  exact ⟨whole, rounds⟩

-- So what every round keeps holds of what is resolved, with nothing left in line.
theorem resolve_keeps {P : Line → Prop} (step : ∀ l m, Round env l m → P l → P m) (start : P (env.opening asked)) :
    ∃ whole, P ⟨whole, env.resolve asked, []⟩ := by
  obtain ⟨whole, rounds⟩ := env.resolve_rounds asked
  exact ⟨whole, rounds ▸ keeps step start _⟩

-- The repository has nothing for it either.
def Unprovided (env : Environment) (q : Requirement) : Prop := ∀ r ∈ env.fixed ++ env.resources, ¬ r.provides q

theorem provided_iff (env : Environment) (found : Resolution) (q : Requirement) :
    env.provided found q ↔ ∃ r ∈ env.fixed ++ found.resources, r.provides q := List.any_eq_true

theorem better_fold_some (rs : List Resource) (b : Resource) : ∃ r, rs.foldl better (some b) = some r := by
  induction rs generalizing b with
  | nil => exact ⟨b, rfl⟩
  | cons s rest ih =>
      rw [List.foldl_cons, better]
      split <;> exact ih _

theorem better_fold_none {rs : List Resource} (none : rs.foldl better none = none) : rs = [] := by
  cases rs with
  | nil => rfl
  | cons b rest =>
      obtain ⟨r, some⟩ := better_fold_some rest b
      cases none.symm.trans some

theorem best?_none {q : Requirement} (none : env.best? q = none) : ∀ r ∈ env.resources, ¬ r.provides q :=
  List.filter_eq_nil_iff.mp (better_fold_none none)

theorem unprovided_of_best? {q : Requirement} (unmet : ¬ env.provided found q) (none : env.best? q = none) :
    env.Unprovided q := by
  intro r there provides
  rcases List.mem_append.mp there with fixed | stored
  · exact unmet ((provided_iff env found q).mpr ⟨r, List.mem_append_left _ fixed, provides⟩)
  · exact best?_none none r stored provides

-- A requirement is provided, or nothing provides it and it counts as unsatisfied unless it is optional.
def Judged (env : Environment) (found : Resolution) (q : Requirement) : Prop :=
  (∃ r ∈ env.fixed ++ found.resources, r.provides q) ∨
    env.Unprovided q ∧ (q ∈ found.unsatisfied ↔ q.optional = false)

theorem Judged.choose {q : Requirement} (judged : Judged env found q) (r : Resource) :
    Judged env (found.choose r) q := by
  refine judged.imp_left fun ⟨s, there, provides⟩ => ⟨s, ?_, provides⟩
  rw [Resolution.choose, ← List.append_assoc]
  exact List.mem_append_left _ there

theorem mem_leave {p q : Requirement} :
    p ∈ (found.leave q).unsatisfied ↔ p ∈ found.unsatisfied ∨ p = q ∧ q.optional = false := by
  unfold Resolution.leave
  split
  · rename_i optional
    simp [optional]
  · rename_i mandatory
    simp [mandatory]

theorem Judged.leave {p q : Requirement} (judged : Judged env found p) (other : p ≠ q) :
    Judged env (found.leave q) p := by
  refine judged.imp (fun provided => ?_) fun ⟨nowhere, counted⟩ => ⟨nowhere, ?_⟩
  · rwa [leave_resources]
  · rw [mem_leave, counted]
    simp [other]

-- What is due is what has come up and what is in line.
def Covers (env : Environment) (asked : List Requirement) (l : Line) : Prop :=
  ∀ q, q ∈ l.seen ∨ q ∈ l.queue ↔ q ∈ closure asked (env.fixed ++ l.found.resources)

theorem covers_opening (env : Environment) (asked : List Requirement) : Covers env asked (env.opening asked) := by
  intro q
  simp [opening]

theorem Round.covers (round : Round env l m) (covers : Covers env asked l) : Covers env asked m := by
  intro p
  have before := covers p
  cases round with
  | ended => exact before
  | @again seen found rest q old =>
      have known : p = q → p ∈ seen := fun same => same ▸ old
      simp only [List.mem_cons] at before ⊢
      tauto
  | met =>
      simp only [List.mem_cons] at before ⊢
      tauto
  | chosen =>
      simp only [closure_append, List.mem_append, List.mem_cons] at before
      simp only [Resolution.choose, ← List.append_assoc, closure_append, List.mem_append, List.mem_cons,
        List.flatMap_singleton]
      tauto
  | unmet =>
      rw [leave_resources]
      simp only [List.mem_cons] at before ⊢
      tauto

-- The chosen resources are different ones of the repository.
structure Drawn (env : Environment) (l : Line) : Prop where
  stored : l.found.resources ⊆ env.resources
  different : l.found.resources.Nodup

theorem Round.drawn (round : Round env l m) (drawn : Drawn env l) : Drawn env m := by
  cases round with
  | ended => exact drawn
  | again => exact ⟨drawn.stored, drawn.different⟩
  | met => exact ⟨drawn.stored, drawn.different⟩
  | @chosen seen found rest q r new unprovided best =>
      obtain ⟨stored, provides⟩ := best?_mem best
      have fresh : r ∉ found.resources := fun there =>
        unprovided ((provided_iff env found q).mpr ⟨r, List.mem_append_right _ there, provides⟩)
      refine ⟨List.append_subset.mpr ⟨drawn.stored, List.cons_subset.mpr ⟨stored, List.nil_subset _⟩⟩, ?_⟩
      exact drawn.different.append (List.nodup_singleton r) (List.disjoint_singleton.mpr fresh)
  | unmet =>
      refine ⟨?_, ?_⟩
      · rw [leave_resources]
        exact drawn.stored
      · rw [leave_resources]
        exact drawn.different

-- What has come up is judged, and what counts as unsatisfied came up, mattered, and counts once.
structure Judges (env : Environment) (l : Line) : Prop where
  judged : ∀ q ∈ l.seen, Judged env l.found q
  missed : ∀ q ∈ l.found.unsatisfied, q ∈ l.seen ∧ q.optional = false ∧ env.Unprovided q
  once : l.found.unsatisfied.Nodup

-- A requirement that is provided when it comes up.
theorem Judges.met {rest : List Requirement} {after : Resolution} {q : Requirement}
    (judges : Judges env ⟨seen, found, queue⟩) (kept : ∀ p, Judged env found p → Judged env after p)
    (same : after.unsatisfied = found.unsatisfied) (provided : ∃ r ∈ env.fixed ++ after.resources, r.provides q) :
    Judges env ⟨q :: seen, after, rest⟩ := by
  refine ⟨fun p up => ?_, fun p counted => ?_, same ▸ judges.once⟩
  · rcases List.mem_cons.mp up with rfl | up
    · exact .inl provided
    · exact kept p (judges.judged p up)
  · exact (judges.missed p (same ▸ counted)).imp_left (.tail _)

-- A requirement that nothing provides.
theorem Judges.unmet {rest : List Requirement} {q : Requirement} (judges : Judges env ⟨seen, found, queue⟩)
    (new : q ∉ seen) (nowhere : env.Unprovided q) : Judges env ⟨q :: seen, found.leave q, rest⟩ := by
  have uncounted : q ∉ found.unsatisfied := fun counted => new (judges.missed q counted).1
  refine ⟨fun p up => ?_, fun p counted => ?_, ?_⟩
  · rcases List.mem_cons.mp up with rfl | up
    · refine .inr ⟨nowhere, ?_⟩
      rw [mem_leave, or_iff_right uncounted, and_iff_right rfl]
    · exact (judges.judged p up).leave fun same => new (same ▸ up)
  · rcases mem_leave.mp counted with old | ⟨rfl, mandatory⟩
    · exact (judges.missed p old).imp_left (.tail _)
    · exact ⟨List.mem_cons_self, mandatory, nowhere⟩
  · unfold Resolution.leave
    split
    · exact judges.once
    · exact judges.once.append (List.nodup_singleton q) (List.disjoint_singleton.mpr uncounted)

theorem Round.judges (round : Round env l m) (judges : Judges env l) : Judges env m := by
  cases round with
  | ended => exact judges
  | again => exact ⟨judges.judged, judges.missed, judges.once⟩
  | met new provided => exact judges.met (fun _ => id) rfl ((provided_iff _ _ _).mp provided)
  | @chosen seen found rest q r new unprovided best =>
      have there : r ∈ env.fixed ++ (found.choose r).resources :=
        List.mem_append_right _ (List.mem_append_right _ (List.mem_singleton_self r))
      exact judges.met (fun _ judged => judged.choose r) rfl ⟨r, there, (best?_mem best).2⟩
  | unmet new unprovided none => exact judges.unmet new (unprovided_of_best? unprovided none)

theorem resolve_drawn (env : Environment) (asked : List Requirement) :
    (env.resolve asked).resources ⊆ env.resources ∧ (env.resolve asked).resources.Nodup := by
  have start : Drawn env (env.opening asked) := ⟨List.nil_subset _, List.nodup_nil⟩
  obtain ⟨_, stored, different⟩ := resolve_keeps (fun _ _ round drawn => round.drawn drawn) start
  exact ⟨stored, different⟩

theorem resolve_judges (env : Environment) (asked : List Requirement) :
    ∃ whole, Covers env asked ⟨whole, env.resolve asked, []⟩ ∧ Judges env ⟨whole, env.resolve asked, []⟩ := by
  have judges : Judges env (env.opening asked) := ⟨nofun, nofun, List.nodup_nil⟩
  have step : ∀ l m, Round env l m → Covers env asked l ∧ Judges env l → Covers env asked m ∧ Judges env m :=
    fun _ _ round both => ⟨round.covers both.1, round.judges both.2⟩
  exact resolve_keeps step ⟨covers_opening env asked, judges⟩

-- How long it takes, and what it answers for everything that is due.
structure Answered (env : Environment) (asked : List Requirement) (found : Resolution) : Prop where
  ended : ∃ n whole, env.next^[n] (env.opening asked) = ⟨whole, found, []⟩ ∧
    n = (closure asked (env.fixed ++ found.resources)).length ∧
    n ≤ (closure asked (env.fixed ++ env.resources)).length
  due : ∀ q ∈ closure asked (env.fixed ++ found.resources), Judged env found q
  missed : ∀ q ∈ found.unsatisfied,
    q ∈ closure asked (env.fixed ++ found.resources) ∧ q.optional = false ∧ env.Unprovided q
  once : found.unsatisfied.Nodup

theorem resolve_answered (env : Environment) (asked : List Requirement) :
    Answered env asked (env.resolve asked) := by
  obtain ⟨whole, covers, judged, missed, once⟩ := env.resolve_judges asked
  obtain ⟨_, rounds⟩ := env.resolve_rounds asked
  obtain ⟨stored, different⟩ := env.resolve_drawn asked
  have due : ∀ q, q ∈ whole ↔ q ∈ closure asked (env.fixed ++ (env.resolve asked).resources) := by
    intro q
    rw [← covers q]
    exact (or_iff_left List.not_mem_nil).symm
  refine ⟨⟨_, _, rounds, rfl, ?_⟩, fun q member => judged q ((due q).mpr member), fun q counted => ?_, once⟩
  · rw [closure_append, closure_append]
    exact closure_length_le different stored
  · exact (missed q counted).imp_left (due q).mp

end Environment
end ContainerProfiles
