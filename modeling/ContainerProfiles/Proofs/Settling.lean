import ContainerProfiles.Provision.Environment

namespace ContainerProfiles

-- The line of a resolution. One requirement after another comes up in it, and what a chosen resource needs joins at its
-- end.

-- A requirement that nothing provides.
def Resolution.leave (found : Resolution) (q : Requirement) : Resolution :=
  if q.optional then found else { found with unsatisfied := found.unsatisfied ++ [q] }

def Resolution.choose (found : Resolution) (r : Resource) : Resolution :=
  { found with resources := found.resources ++ [r] }

namespace Environment

-- What is there already when a requirement comes up.
abbrev provided (env : Environment) (found : Resolution) (q : Requirement) : Bool :=
  (env.fixed ++ found.resources).any (·.provides q)

inductive Settles (env : Environment) :
    List Requirement → Resolution → List Requirement → Resolution → Prop
  | done : Settles env seen found [] found
  | again {q : Requirement} : q ∈ seen → Settles env seen found rest last → Settles env seen found (q :: rest) last
  | met {q : Requirement} : q ∉ seen → env.provided found q → Settles env (q :: seen) found rest last →
      Settles env seen found (q :: rest) last
  | chosen {q : Requirement} {r : Resource} : q ∉ seen → ¬ env.provided found q → env.best? q = some r →
      Settles env (q :: seen) (found.choose r) (rest ++ r.requirements) last →
      Settles env seen found (q :: rest) last
  | unmet {q : Requirement} : q ∉ seen → ¬ env.provided found q → env.best? q = none →
      Settles env (q :: seen) (found.leave q) rest last → Settles env seen found (q :: rest) last

variable {env : Environment} {seen queue : List Requirement} {found last : Resolution}

theorem settles_settle (env : Environment) (seen : List Requirement) (found : Resolution) (queue : List Requirement) :
    Settles env seen found queue (env.settle seen found queue) := by
  induction seen, found, queue using settle.induct env with
  | case1 seen found =>
      rw [settle]
      exact .done
  | case2 seen found q rest old ih =>
      rw [settle, if_pos old]
      exact .again old ih
  | case3 seen found q rest new provided ih =>
      rw [settle, if_neg new, dif_pos provided]
      exact .met new provided ih
  | case4 seen found q rest new unprovided none _ ih =>
      rw [settle, if_neg new, dif_neg unprovided]
      split
      · exact .unmet new unprovided none ih
      · rename_i some
        cases none.symm.trans some
  | case5 seen found q rest new unprovided r best _ ih =>
      rw [settle, if_neg new, dif_neg unprovided]
      split
      · rename_i none
        cases best.symm.trans none
      · rename_i some
        cases best.symm.trans some
        exact .chosen new unprovided best ih

theorem settle_of_settles (run : Settles env seen found queue last) : env.settle seen found queue = last := by
  induction run with
  | done => rw [settle]
  | again old _ ih => rw [settle, if_pos old, ih]
  | met new provided _ ih => rw [settle, if_neg new, dif_pos provided, ih]
  | chosen new unprovided best _ ih =>
      rw [settle, if_neg new, dif_neg unprovided]
      split
      · rename_i none
        cases best.symm.trans none
      · rename_i some
        cases best.symm.trans some
        exact ih
  | unmet new unprovided none _ ih =>
      rw [settle, if_neg new, dif_neg unprovided]
      split
      · exact ih
      · rename_i some
        cases none.symm.trans some

end Environment
end ContainerProfiles
