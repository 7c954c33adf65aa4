import ContainerProfiles.Inheritance.Merge

namespace ContainerProfiles

-- A profile together with its parents, each again with its parents.

inductive LinkedProfile where
  | node (profile : Profile) (parents : List LinkedProfile)

namespace LinkedProfile

def profile : LinkedProfile → Profile
  | node p _ => p

def parents : LinkedProfile → List LinkedProfile
  | node _ ps => ps

def identity (l : LinkedProfile) : ProfileId := l.profile.identity

-- Parents that have no node of their own yet are left out.
def add (built : Dict ProfileId LinkedProfile) (p : Profile) : Dict ProfileId LinkedProfile :=
  built.insert p.identity (node p (p.parents.filterMap built.get?))

-- The node of `identity` after the profiles of `order` were added one after another.
def link? (order : List Profile) (identity : ProfileId) : Option LinkedProfile :=
  (order.foldl add ∅).get? identity

mutual

def list (listed : List Profile) : LinkedProfile → List Profile
  | node p ps =>
      let listed := listAll listed ps
      if p.identity ∈ listed.map Profile.identity then listed else listed ++ [p]

def listAll (listed : List Profile) : List LinkedProfile → List Profile
  | [] => listed
  | l :: rest =>
      if l.identity ∈ listed.map Profile.identity then listAll listed rest
      else listAll (list listed l) rest

end

-- The profile and all its ancestors, parents first, each once.
def lineage (l : LinkedProfile) : List Profile := list [] l

def effective (l : LinkedProfile) : Profile :=
  Profile.merge (Profile.effectiveIdentity l.identity) l.profile.version l.lineage

end LinkedProfile
end ContainerProfiles
