import ContainerProfiles.Proofs.Lineage

namespace ContainerProfiles.Catalog

-- Where a walk over the ancestors of some roots ends early. `Halt` gives the failing walks as a relation: whatever
-- comes before in the order of the walk is listed by then, and what comes next is still open or is not there.

open Relation

inductive Halt (c : Catalog) : List ProfileId → List Profile → List ProfileId → LineageError → Prop
  | closing {id : ProfileId} : id ∉ identities listed → id ∈ opened →
      Halt c opened listed (id :: rest) (.cycle (opened.headD id) id)
  | absent {id : ProfileId} : id ∉ identities listed → id ∉ opened → c.get? id = none →
      Halt c opened listed (id :: rest) (.missing id)
  | again {id : ProfileId} : id ∈ identities listed → Halt c opened listed rest e →
      Halt c opened listed (id :: rest) e
  | above {id : ProfileId} : id ∉ identities listed → id ∉ opened → c.get? id = some p →
      Halt c (id :: opened) listed p.parents e → Halt c opened listed (id :: rest) e
  | beside {id : ProfileId} : id ∉ identities listed → id ∉ opened → c.get? id = some p →
      Walk c (id :: opened) listed p.parents traced → Halt c opened (traced ++ [p]) rest e →
      Halt c opened listed (id :: rest) e

theorem halt_of_visit {c : Catalog} {opened : List ProfileId} {listed : List Profile}
    {ids : List ProfileId} (failed : c.visit opened listed ids = .error e) : Halt c opened listed ids e := by
  induction opened, listed, ids using visit.induct c generalizing e with
  | case1 opened listed =>
      rw [visit] at failed
      cases failed
  | case2 opened listed id rest old ih =>
      rw [visit, if_pos old] at failed
      exact .again old (ih failed)
  | case3 opened listed id rest new isOpen =>
      rw [visit, if_neg new, dif_pos isOpen] at failed
      cases failed
      exact .closing new isOpen
  | case4 opened listed id rest new unopened missing =>
      rw [visit_missing new unopened missing] at failed
      cases failed
      exact .absent new unopened missing
  | case5 opened listed id rest new unopened p found less cause inner ih =>
      rw [visit_fresh new unopened found, inner] at failed
      cases failed
      exact .above new unopened found (ih inner)
  | case6 opened listed id rest new unopened p found less traced parents inside outside =>
      rw [visit_fresh new unopened found, parents] at failed
      exact .beside new unopened found (walk_of_visit parents) (outside failed)

theorem visit_of_halt {c : Catalog} (halt : Halt c opened listed ids e) :
    c.visit opened listed ids = .error e := by
  induction halt with
  | closing new isOpen => rw [visit, if_neg new, dif_pos isOpen]
  | absent new unopened missing => exact visit_missing new unopened missing
  | again old _ ih => rw [visit, if_pos old, ih]
  | above new unopened found _ ih => rw [visit_fresh new unopened found, ih]
  | beside new unopened found parents _ ih =>
      rw [visit_fresh new unopened found, visit_of_walk parents]
      exact ih

theorem visit_eq_error {c : Catalog} : c.visit opened listed ids = .error e ↔ Halt c opened listed ids e :=
  ⟨halt_of_visit, visit_of_halt⟩

theorem linearize_eq_error {c : Catalog} : c.linearize roots = .error e ↔ Halt c [] [] roots e :=
  visit_eq_error

-- The profile on the left of the edge is the one opened last, or was opened on the way.
def Blames (c : Catalog) (opened ids : List ProfileId) : LineageError → Prop
  | .cycle child parent => (opened.head? = some child ∨ c.Ancestral ids child) ∧
      c.Inherits child parent ∧ ReflTransGen c.Inherits parent child
  | .missing id => c.get? id = none ∧ (id ∈ ids ∨ ∃ child, c.Ancestral ids child ∧ c.Inherits child id)

theorem Blames.later {c : Catalog} {first : ProfileId} (blames : c.Blames opened rest e) :
    c.Blames opened (first :: rest) e := by
  cases e with
  | cycle child parent => exact ⟨blames.1.imp_right Ancestral.later, blames.2⟩
  | missing id =>
      refine ⟨blames.1, blames.2.imp (.tail _) ?_⟩
      rintro ⟨child, above, edge⟩
      exact ⟨child, above.later, edge⟩

theorem Blames.parent {c : Catalog} {first : ProfileId} (blames : c.Blames (first :: opened) p.parents e)
    (found : c.get? first = some p) : c.Blames before (first :: rest) e := by
  cases e with
  | cycle child parent =>
      obtain ⟨who, edge, back⟩ := blames
      refine ⟨.inr ?_, edge, back⟩
      rcases who with last | above
      · cases last
        exact .root
      · exact above.parent found
  | missing id =>
      obtain ⟨missing, who⟩ := blames
      refine ⟨missing, .inr ?_⟩
      rcases who with declared | ⟨child, above, edge⟩
      · exact ⟨first, .root, p, found, declared⟩
      · exact ⟨child, above.parent found, edge⟩

-- Every open profile leads up to the one opened last, and what is still to be visited are parents of that.
structure Chained (c : Catalog) (opened ids : List ProfileId) : Prop where
  paths : ∀ last, opened.head? = some last → ∀ id ∈ opened, ReflTransGen c.Inherits id last
  edges : ∀ last, opened.head? = some last → ∀ id ∈ ids, c.Inherits last id

namespace Chained

variable {c : Catalog} {opened ids rest : List ProfileId} {id : ProfileId}

theorem start : Chained c [] ids := ⟨nofun, nofun⟩

theorem later (chained : Chained c opened (id :: rest)) : Chained c opened rest :=
  ⟨chained.paths, fun last isLast _ member => chained.edges last isLast _ (.tail _ member)⟩

theorem latest (isOpen : id ∈ opened) : ∃ last, opened.head? = some last := by
  cases opened with
  | nil => cases isOpen
  | cons last _ => exact ⟨last, rfl⟩

theorem opening (chained : Chained c opened (id :: rest)) (found : c.get? id = some p) :
    Chained c (id :: opened) p.parents := by
  refine ⟨fun last isLast i member => ?_, fun last isLast parent declared => ?_⟩
  · cases isLast
    rcases List.mem_cons.mp member with rfl | older
    · exact .refl
    · obtain ⟨last, isLast⟩ := latest older
      exact (chained.paths last isLast i older).tail (chained.edges last isLast id List.mem_cons_self)
  · cases isLast
    exact ⟨p, found, declared⟩

end Chained

theorem Halt.blames {c : Catalog} (halt : Halt c opened listed ids e) (chained : Chained c opened ids) :
    c.Blames opened ids e := by
  induction halt with
  | @closing listed opened rest id _ isOpen =>
      obtain ⟨last, isLast⟩ := Chained.latest isOpen
      have named : opened.headD id = last := by rw [List.headD_eq_head?_getD, isLast, Option.getD_some]
      rw [named]
      exact ⟨.inl isLast, chained.edges last isLast id List.mem_cons_self, chained.paths last isLast id isOpen⟩
  | absent _ _ missing => exact ⟨missing, .inl List.mem_cons_self⟩
  | again _ _ ih => exact (ih chained.later).later
  | above _ _ found _ ih => exact (ih (chained.opening found)).parent found
  | beside _ _ _ _ _ ih => exact (ih chained.later).later

end ContainerProfiles.Catalog
