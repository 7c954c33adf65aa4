import ContainerProfiles.Proofs.Worklists

namespace ContainerProfiles

-- Optional requirements on top of others that can be met. They never count as unsatisfied themselves, neither does
-- anything that was met before, and where the repository has nothing for them they change nothing.

namespace Environment

variable {env : Environment} {seen queue asked extra : List Requirement} {found last : Resolution} {q : Requirement}

-- Nobody misses it and nothing can be selected for it.
def idle (env : Environment) (q : Requirement) : Bool := q.optional && (env.best? q).isNone

-- The requirements that matter.
def live (env : Environment) (qs : List Requirement) : List Requirement := qs.filter fun q => !env.idle q

theorem idle_iff : env.idle q ↔ q.optional ∧ env.best? q = none := by
  rw [idle, Bool.and_eq_true, Option.isNone_iff_eq_none]

theorem mem_live : q ∈ env.live queue ↔ q ∈ queue ∧ ¬ env.idle q := by simp [live]

theorem mem_of_live (same : env.live queue = env.live seen) (busy : ¬ env.idle q) (member : q ∈ queue) :
    q ∈ seen := by
  have kept := mem_live.mpr ⟨member, busy⟩
  rw [same] at kept
  exact (mem_live.mp kept).1

theorem live_cons_idle (idle : env.idle q) (qs : List Requirement) : env.live (q :: qs) = env.live qs :=
  List.filter_cons_of_neg (by simpa using idle)

theorem live_cons_busy (busy : ¬ env.idle q) (qs : List Requirement) : env.live (q :: qs) = q :: env.live qs :=
  List.filter_cons_of_pos (by simpa using busy)

theorem live_cons_congr (same : env.live queue = env.live seen) : env.live (q :: queue) = env.live (q :: seen) := by
  unfold live at same ⊢
  rw [List.filter_cons, List.filter_cons, same]

theorem live_of_idle (idle : ∀ p ∈ queue, env.idle p) : env.live queue = [] := by
  simpa [live] using idle

theorem live_append (qs ps : List Requirement) : env.live (qs ++ ps) = env.live qs ++ env.live ps :=
  List.filter_append ..

-- The first one that matters stands behind others that do not.
theorem live_eq_cons {rest : List Requirement} (first : env.live queue = q :: rest) :
    ∃ before after, queue = before ++ q :: after ∧ (∀ p ∈ before, env.idle p) ∧ env.live after = rest := by
  obtain ⟨before, after, parted, passed, _, same⟩ := List.filter_eq_cons_iff.mp first
  exact ⟨before, after, parted, fun p member => by simpa using passed p member, same⟩

-- Whatever such a requirement meets when it comes up, the line goes on with what was found before.
theorem settles_past {before rest : List Requirement} (idle : ∀ p ∈ before, env.idle p)
    (on : ∀ more, env.live more = env.live seen → Settles env more found rest last) :
    Settles env seen found (before ++ rest) last := by
  induction before generalizing seen with
  | nil => exact on seen rfl
  | cons p before ih =>
      have first := idle p List.mem_cons_self
      have later : ∀ more, env.live more = env.live seen → Settles env more found (before ++ rest) last := by
        intro more same
        apply ih fun other member => idle other (.tail _ member)
        intro further grown
        exact on further (grown.trans same)
      have aside : Settles env (p :: seen) found (before ++ rest) last := later _ (live_cons_idle first seen)
      by_cases old : p ∈ seen
      · exact .again old (later seen rfl)
      · by_cases provided : env.provided found p
        · exact .met old provided aside
        · apply Settles.unmet old provided (idle_iff.mp first).2
          rwa [Resolution.leave, if_pos (idle_iff.mp first).1]

theorem settles_first {other line rest : List Requirement} (busy : ¬ env.idle q)
    (known : env.live other = env.live seen) (same : env.live line = env.live (q :: rest))
    (on : ∀ more after, env.live more = env.live seen → env.live after = env.live rest →
      Settles env more found (q :: after) last) : Settles env other found line last := by
  rw [live_cons_busy busy] at same
  obtain ⟨before, after, rfl, passed, tail⟩ := live_eq_cons same
  apply settles_past passed
  intro more grown
  exact on more after (grown.trans known) tail

-- So two lines in which the same requirements matter end alike. By induction on the run of one of them.
theorem Settles.alike (run : Settles env seen found queue last) {other line : List Requirement}
    (known : env.live other = env.live seen) (same : env.live line = env.live queue) :
    Settles env other found line last := by
  induction run generalizing other line with
  | done =>
      have idle : ∀ p ∈ line, env.idle p := by simpa [live] using same
      rw [← List.append_nil line]
      exact settles_past idle fun _ _ => .done
  | @again seen found rest last q old _ ih =>
      by_cases idle : env.idle q
      · exact ih known (same.trans (live_cons_idle idle rest))
      · apply settles_first idle known same
        intro more after all tail
        exact .again (mem_of_live all.symm idle old) (ih all tail)
  | @met seen found rest last q new provided _ ih =>
      by_cases idle : env.idle q
      · exact ih (known.trans (live_cons_idle idle seen).symm) (same.trans (live_cons_idle idle rest))
      · apply settles_first idle known same
        intro more after all tail
        exact .met (fun old => new (mem_of_live all idle old)) provided (ih (live_cons_congr all) tail)
  | @chosen seen found rest last q r new unprovided best _ ih =>
      have busy : ¬ env.idle q := fun idle => Option.some_ne_none r (best.symm.trans (idle_iff.mp idle).2)
      apply settles_first busy known same
      intro more after all tail
      have joined : env.live (after ++ r.requirements) = env.live (rest ++ r.requirements) := by
        rw [live_append, live_append, tail]
      exact .chosen (fun old => new (mem_of_live all busy old)) unprovided best (ih (live_cons_congr all) joined)
  | @unmet seen found rest last q new unprovided none _ ih =>
      by_cases idle : env.idle q
      · rw [Resolution.leave, if_pos (idle_iff.mp idle).1] at ih
        exact ih (known.trans (live_cons_idle idle seen).symm) (same.trans (live_cons_idle idle rest))
      · apply settles_first idle known same
        intro more after all tail
        exact .unmet (fun old => new (mem_of_live all idle old)) unprovided none (ih (live_cons_congr all) tail)

theorem best?_of_nobody (nobody : ∀ r ∈ env.resources, ¬ r.provides q) : env.best? q = none := by
  cases best : env.best? q with
  | none => rfl
  | some r => cases nobody r (best?_mem best).1 (best?_mem best).2

theorem resolve_idle (idle : ∀ q ∈ extra, env.idle q) : env.resolve (asked ++ extra) = env.resolve asked := by
  apply settle_of_settles
  apply (settles_settle env [] {} (asked ++ env.fixed.flatMap (·.requirements))).alike rfl
  rw [live_append, live_append, live_append, live_of_idle idle, List.append_nil]

theorem not_unprovided_iff : ¬ env.Unprovided q ↔ ∃ r ∈ env.fixed ++ env.resources, r.provides q := by
  unfold Unprovided
  push Not
  rfl

theorem judged_of_due (due : q ∈ closure asked (env.fixed ++ (env.resolve asked).resources)) :
    Judged env (env.resolve asked) q := by
  obtain ⟨whole, covers, judges⟩ := env.resolve_judges asked
  exact judges.judged q (((covers q).mpr due).resolve_right List.not_mem_nil)

theorem due_of_missed (counted : q ∈ (env.resolve asked).unsatisfied) :
    q ∈ closure asked (env.fixed ++ (env.resolve asked).resources) ∧ q.optional = false ∧ env.Unprovided q := by
  obtain ⟨whole, covers, judges⟩ := env.resolve_judges asked
  exact (judges.missed q counted).imp_left fun up => (covers q).mp (.inl up)

-- What nothing provides and yet matters counts, and there is nothing else that counts.
theorem missed_iff : q ∈ (env.resolve asked).unsatisfied ↔
    q ∈ closure asked (env.fixed ++ (env.resolve asked).resources) ∧ q.optional = false ∧ env.Unprovided q := by
  refine ⟨due_of_missed, ?_⟩
  rintro ⟨due, mandatory, nowhere⟩
  rcases judged_of_due due with ⟨r, there, provides⟩ | ⟨_, counted⟩
  · have stored := (env.resolve_drawn asked).1
    have known := (List.mem_append.mp there).imp_right fun found => stored found
    cases nowhere r (List.mem_append.mpr known) provides
  · exact counted.mpr mandatory

theorem missed_nodup (env : Environment) (asked : List Requirement) : (env.resolve asked).unsatisfied.Nodup := by
  obtain ⟨whole, _, judges⟩ := env.resolve_judges asked
  exact judges.once

-- What the resources need that are selected now and were not before.
def NewlyNeeded (before after : Resolution) (q : Requirement) : Prop :=
  ∃ r ∈ after.resources, r ∉ before.resources ∧ q ∈ r.requirements

structure Joined (env : Environment) (extra : List Requirement) (before after : Resolution) : Prop where
  idle : (∀ q ∈ extra, ∀ r ∈ env.resources, ¬ r.provides q) → after = before
  missed : ∀ q, q ∈ after.unsatisfied ↔ q.optional = false ∧ env.Unprovided q ∧ NewlyNeeded before after q
  spared : ∀ q ∈ extra, q ∉ after.unsatisfied
  once : after.unsatisfied.Nodup
  satisfied : after.satisfied ↔ ∀ r ∈ after.resources, r ∉ before.resources →
    Meets (env.fixed ++ env.resources) r.requirements

-- What is due with the optional ones was due without them, is optional, or is needed by a resource selected anew.
theorem due_joined (optional : ∀ p ∈ extra, p.optional) (mandatory : q.optional = false)
    (due : q ∈ closure (asked ++ extra) (env.fixed ++ (env.resolve (asked ++ extra)).resources)) :
    q ∈ closure asked (env.fixed ++ (env.resolve asked).resources) ∨
      NewlyNeeded (env.resolve asked) (env.resolve (asked ++ extra)) q := by
  rcases mem_closure.mp due with first | ⟨r, there, needs⟩
  · rcases List.mem_append.mp first with old | new
    · exact .inl (mem_closure.mpr (.inl old))
    · cases mandatory.symm.trans (optional q new)
  · rcases List.mem_append.mp there with fixed | found
    · exact .inl (mem_closure.mpr (.inr ⟨r, List.mem_append_left _ fixed, needs⟩))
    · by_cases before : r ∈ (env.resolve asked).resources
      · exact .inl (mem_closure.mpr (.inr ⟨r, List.mem_append_right _ before, needs⟩))
      · exact .inr ⟨r, found, before, needs⟩

theorem missed_joined (resolved : (env.resolve asked).satisfied) (optional : ∀ p ∈ extra, p.optional) :
    q ∈ (env.resolve (asked ++ extra)).unsatisfied ↔ q.optional = false ∧ env.Unprovided q ∧
      NewlyNeeded (env.resolve asked) (env.resolve (asked ++ extra)) q := by
  rw [missed_iff]
  constructor
  · rintro ⟨due, mandatory, nowhere⟩
    refine ⟨mandatory, nowhere, (due_joined optional mandatory due).resolve_left fun before => ?_⟩
    have counted := missed_iff.mpr ⟨before, mandatory, nowhere⟩
    rw [List.isEmpty_iff.mp resolved] at counted
    cases counted
  · rintro ⟨mandatory, nowhere, r, found, _, needs⟩
    exact ⟨mem_closure.mpr (.inr ⟨r, List.mem_append_right _ found, needs⟩), mandatory, nowhere⟩

theorem resolve_joined (resolved : (env.resolve asked).satisfied) (optional : ∀ p ∈ extra, p.optional) :
    Joined env extra (env.resolve asked) (env.resolve (asked ++ extra)) := by
  have missed := fun q => missed_joined (q := q) resolved optional
  refine ⟨fun nobody => ?_, missed, fun q joined counted => ?_, missed_nodup env _, ?_, ?_⟩
  · apply resolve_idle
    intro q joined
    exact idle_iff.mpr ⟨optional q joined, best?_of_nobody (nobody q joined)⟩
  · cases ((missed q).mp counted).1.symm.trans (optional q joined)
  · intro satisfied r found new q needs mandatory
    apply not_unprovided_iff.mp
    intro nowhere
    have counted := (missed q).mpr ⟨mandatory, nowhere, r, found, new, needs⟩
    rw [List.isEmpty_iff.mp satisfied] at counted
    cases counted
  · intro meets
    apply List.isEmpty_iff.mpr
    apply List.eq_nil_iff_forall_not_mem.mpr
    intro q counted
    obtain ⟨mandatory, nowhere, r, found, new, needs⟩ := (missed q).mp counted
    exact not_unprovided_iff.mpr (meets r found new q needs mandatory) nowhere

def feature (name : String) : Requirement := { ns := "feature", name }

def wish (name : String) : Requirement := { ns := Resource.identityNamespace, name, optional := true }

-- The only resource there is needs something that nobody provides.
def stranded : Environment :=
  { name := "repository", resources := [{ identity := "app:1.0.0", requirements := [feature "ghost"] }] }

theorem wish_fails_resolution : (stranded.resolve []).satisfied ∧ (wish "app").optional ∧
    ¬ (stranded.resolve ([] ++ [wish "app"])).satisfied := by
  have before : stranded.resolve [] = {} := settle_of_settles .done
  have after : stranded.resolve [wish "app"] = ⟨stranded.resources, [feature "ghost"]⟩ :=
    settle_of_settles (.chosen List.not_mem_nil (by decide) rfl (.unmet (by decide) (by decide) rfl .done))
  rw [List.nil_append, before, after]
  decide

-- The hub serves both plugs of the desk, unless a plug is there already; then an adapter serves the other.
def desk : Resource := { identity := "desk:1.0.0", requirements := [feature "port", feature "cable"] }
def plug : Resource := { identity := "plug:0.5.0", capabilities := [⟨"feature", "port"⟩] }
def hub : Resource := { identity := "hub:1.0.0", capabilities := [⟨"feature", "port"⟩, ⟨"feature", "cable"⟩] }
def adapter : Resource :=
  { identity := "adapter:2.0.0", capabilities := [⟨"feature", "cable"⟩], requirements := [feature "ghost"] }

def office : Environment := { name := "repository", resources := [desk, plug, hub, adapter] }

def furnishing : Requirement := { ns := Resource.identityNamespace, name := "desk" }

theorem resolve_joined_displaced : (office.resolve [furnishing]).satisfied ∧
    (∀ q ∈ [wish "plug"], q.optional) ∧
    Joined office [wish "plug"] (office.resolve [furnishing]) (office.resolve ([furnishing] ++ [wish "plug"])) ∧
    office.resolve [furnishing] = ⟨[desk, hub], []⟩ ∧
    office.resolve ([furnishing] ++ [wish "plug"]) = ⟨[desk, plug, adapter], [feature "ghost"]⟩ := by
  have before : office.resolve [furnishing] = ⟨[desk, hub], []⟩ :=
    settle_of_settles (.chosen List.not_mem_nil (by decide) rfl
      (.chosen (by decide) (by decide) rfl (.met (by decide) (by decide) .done)))
  have after : office.resolve ([furnishing] ++ [wish "plug"]) = ⟨[desk, plug, adapter], [feature "ghost"]⟩ :=
    settle_of_settles (.chosen List.not_mem_nil (by decide) rfl (.chosen (by decide) (by decide) rfl
      (.met (by decide) (by decide) (.chosen (by decide) (by decide) rfl
        (.unmet (by decide) (by decide) rfl .done)))))
  have satisfied : (office.resolve [furnishing]).satisfied := by rw [before]; rfl
  have optional : ∀ q ∈ [wish "plug"], q.optional := by decide
  exact ⟨satisfied, optional, resolve_joined satisfied optional, before, after⟩

end Environment
end ContainerProfiles
