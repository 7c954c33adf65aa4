import ContainerProfiles.Resource
import ContainerProfiles.Version.Order
import ContainerProfiles.Version.Reader

namespace ContainerProfiles

-- The resources a resolution may draw from, and how it chooses among them. Every requirement is settled in turn:
-- by a fixed resource, by one chosen before, or by the best one of the repository, whose own requirements then
-- join the line.

-- Fixed resources belong to the outcome already. Identities are distinct within either list.
structure Environment where
  name : String
  resources : List Resource := []
  fixed : List Resource := []

-- A resource whose identity is taken is not added.
def addDistinct (rs : List Resource) (r : Resource) : List Resource :=
  if rs.any (fun s => s.identity = r.identity) then rs else rs ++ [r]

structure Resolution where
  resources : List Resource := []
  unsatisfied : List Requirement := []
deriving DecidableEq

def Resolution.satisfied (r : Resolution) : Bool := r.unsatisfied.isEmpty

namespace Resource

def version? (r : Resource) : Option Version :=
  (ResourceId.version r.identity).bind (fun v => (Version.parse v).toOption)

-- A version that can be read is better than none; without versions the identities decide.
def compareVersions (r s : Resource) : Ordering :=
  match r.version?, s.version? with
  | some v, some w => compare v w
  | some _, none => .gt
  | none, some _ => .lt
  | none, none => compare r.identity s.identity

end Resource

namespace Environment

def addResource (env : Environment) (r : Resource) : Environment :=
  { env with resources := addDistinct env.resources r }

def addFixed (env : Environment) (r : Resource) : Environment :=
  { env with fixed := addDistinct env.fixed r }

def isFixed (env : Environment) (id : ResourceId) : Bool := env.fixed.any (fun r => r.identity = id)

-- Of several best ones the last stays.
def better (held : Option Resource) (r : Resource) : Option Resource :=
  match held with
  | none => some r
  | some b => if b.compareVersions r = .gt then some b else some r

def best? (env : Environment) (q : Requirement) : Option Resource :=
  (env.resources.filter (·.provides q)).foldl better none

theorem better_fold_mem {rs : List Resource} {held : Option Resource} {r : Resource}
    (h : rs.foldl better held = some r) : r ∈ rs ∨ held = some r := by
  induction rs generalizing held with
  | nil => exact .inr h
  | cons s rest ih =>
      rcases ih h with later | now
      · exact .inl (.tail _ later)
      · unfold better at now
        split at now
        · cases now; exact .inl (.head _)
        · split at now
          · exact .inr now
          · cases now; exact .inl (.head _)

theorem best?_mem {env : Environment} {q : Requirement} {r : Resource} (h : env.best? q = some r) :
    r ∈ env.resources ∧ r.provides q := by
  rcases better_fold_mem h with member | none
  · simpa using List.mem_filter.mp member
  · cases none

-- How many repository resources are still free to be chosen.
def unchosen (env : Environment) (chosen : List Resource) : Nat :=
  env.resources.countP (· ∉ chosen)

theorem free_lt {rs chosen : List Resource} {r : Resource} (member : r ∈ rs) (fresh : r ∉ chosen) :
    rs.countP (· ∉ chosen ++ [r]) < rs.countP (· ∉ chosen) := by
  induction rs with
  | nil => cases member
  | cons s rest ih =>
      have weaker : rest.countP (· ∉ chosen ++ [r]) ≤ rest.countP (· ∉ chosen) :=
        List.countP_mono_left (fun x _ => by simp; exact fun h _ => h)
      rcases List.mem_cons.mp member with rfl | later
      · simp only [List.countP_cons]
        simp [fresh] at weaker ⊢
        omega
      · have := ih later
        simp only [List.countP_cons]
        by_cases old : s ∈ chosen <;> by_cases same : s = r <;> simp [old, same] at this ⊢ <;> omega

theorem unchosen_lt {env : Environment} {chosen : List Resource} {q : Requirement} {r : Resource}
    (best : env.best? q = some r) (unmet : ¬ (env.fixed ++ chosen).any (·.provides q)) :
    env.unchosen (chosen ++ [r]) < env.unchosen chosen :=
  free_lt (best?_mem best).1 fun member =>
    unmet (List.any_eq_true.mpr ⟨r, List.mem_append.mpr (.inr member), (best?_mem best).2⟩)

def settle (env : Environment) (seen : List Requirement) (found : Resolution) :
    List Requirement → Resolution
  | [] => found
  | q :: rest =>
      if q ∈ seen then settle env seen found rest
      else if unmet : (env.fixed ++ found.resources).any (·.provides q) then
        settle env (q :: seen) found rest
      else
        match chosen : env.best? q with
        | none =>
            let found :=
              if q.optional then found else { found with unsatisfied := found.unsatisfied ++ [q] }
            settle env (q :: seen) found rest
        | some r =>
            have := unchosen_lt chosen unmet
            settle env (q :: seen) { found with resources := found.resources ++ [r] }
              (rest ++ r.requirements)
termination_by queue => (env.unchosen found.resources, queue.length)
decreasing_by
  · exact Prod.Lex.right _ (by simp)
  · exact Prod.Lex.right _ (by simp)
  · split <;> exact Prod.Lex.right _ (by simp)
  · exact Prod.Lex.left _ _ (by assumption)

def resolve (env : Environment) (requirements : List Requirement) : Resolution :=
  env.settle [] {} (requirements ++ env.fixed.flatMap (·.requirements))

end Environment
end ContainerProfiles
