import ContainerProfiles.Inheritance.Linked
import ContainerProfiles.Proofs.MoreRoots

namespace ContainerProfiles

-- The linked view of what a profile inherits beside the flat one.

open Relation Catalog

namespace LinkedProfile

variable {c : Catalog} {l m : LinkedProfile}

-- What holds of a node once it holds of its parents holds of every node.
theorem upward {motive : LinkedProfile → Prop}
    (node : ∀ p ps, (∀ l ∈ ps, motive l) → motive (.node p ps)) : ∀ l, motive l
  | .node p ps => node p ps fun l _ => upward node l

-- A node and all that can be come to from it by way of parents.
def Reaches : LinkedProfile → LinkedProfile → Prop := ReflTransGen fun l m => m ∈ l.parents

def DrawnFrom (c : Catalog) (l : LinkedProfile) : Prop :=
  ∀ m, l.Reaches m → c.get? m.identity = some m.profile ∧ m.parents.map identity = m.profile.parents

namespace DrawnFrom

theorem stored (drawn : DrawnFrom c l) : c.get? l.identity = some l.profile := (drawn l .refl).1

theorem declared (drawn : DrawnFrom c l) : l.parents.map identity = l.profile.parents := (drawn l .refl).2

theorem reached (drawn : DrawnFrom c l) (path : l.Reaches m) : DrawnFrom c m :=
  fun n further => drawn n (path.trans further)

theorem parent (drawn : DrawnFrom c l) (member : m ∈ l.parents) : DrawnFrom c m := drawn.reached (.single member)

theorem node {p : Profile} {ps : List LinkedProfile} (found : c.get? p.identity = some p)
    (named : ps.map identity = p.parents) (parents : ∀ l ∈ ps, DrawnFrom c l) : DrawnFrom c (.node p ps) := by
  intro m path
  rcases path.cases_head with rfl | ⟨first, member, further⟩
  · exact ⟨found, named⟩
  · exact parents first member m further

theorem inherits (drawn : DrawnFrom c l) (member : m ∈ l.parents) : c.Inherits l.identity m.identity := by
  refine ⟨l.profile, drawn.stored, ?_⟩
  rw [← drawn.declared]
  exact List.mem_map_of_mem member

theorem path (drawn : DrawnFrom c l) (path : l.Reaches m) : ReflTransGen c.Inherits l.identity m.identity := by
  induction path with
  | refl => exact .refl
  | tail above member ih => exact .tail ih ((drawn.reached above).inherits member)

end DrawnFrom

-- Two lists with the same keys, in which the same key is the same element.
theorem eq_of_identities {ls ms : List LinkedProfile} (same : ls.map identity = ms.map identity)
    (each : ∀ l ∈ ls, ∀ m ∈ ms, l.identity = m.identity → l = m) : ls = ms := by
  induction ls generalizing ms with
  | nil => exact (List.map_eq_nil_iff.mp same.symm).symm
  | cons l rest ih =>
      cases ms with
      | nil => cases same
      | cons m others =>
          rw [List.map_cons, List.map_cons, List.cons.injEq] at same
          have first : l = m := each l List.mem_cons_self m List.mem_cons_self same.1
          have later : rest = others := ih same.2 fun x there y here => each x (.tail _ there) y (.tail _ here)
          rw [first, later]

theorem DrawnFrom.unique (one : DrawnFrom c l) (two : DrawnFrom c m) (same : l.identity = m.identity) : l = m := by
  induction l using upward generalizing m with
  | node p ps ih =>
      obtain ⟨q, qs⟩ := m
      have here : c.get? q.identity = some p := (congrArg c.get? same).symm.trans one.stored
      have alike : p = q := Option.some.inj (here.symm.trans two.stored)
      subst alike
      have parents : ps = qs :=
        eq_of_identities (one.declared.trans two.declared.symm) fun a left b right alike =>
          ih a left (one.parent left) (two.parent right) alike
      rw [parents]

-- A drawing is finite, so what it shows is inherited comes to an end.
theorem DrawnFrom.founded (drawn : DrawnFrom c l) : Founded c l.identity := by
  induction l using upward with
  | node p ps ih =>
      refine .intro drawn.stored fun parent declared => ?_
      rw [← drawn.declared] at declared
      obtain ⟨m, member, rfl⟩ := List.mem_map.mp declared
      exact ih m member (drawn.parent member)

theorem link?_snoc (order : List Profile) (p : Profile) (id : ProfileId) :
    link? (order ++ [p]) id =
      if id = p.identity then some (node p (p.parents.filterMap (link? order))) else link? order id := by
  unfold link?
  rw [List.foldl_concat]
  exact Dict.get?_insert ..

theorem mem_of_link? {order : List Profile} {id : ProfileId} (linked : link? order id = some l) :
    id ∈ identities order := by
  induction order using List.reverseRecOn with
  | nil => cases linked
  | append_singleton order p ih =>
      rw [link?_snoc] at linked
      rw [identities_append, List.mem_append, List.mem_singleton]
      split at linked
      · rename_i last
        exact .inr last
      · exact .inl (ih linked)

-- With its parents listed before it, no parent of a profile is left out.
theorem filterMap_link? (order : List Profile) {parents : List ProfileId}
    (known : ∀ parent ∈ parents, ∃ l, link? order parent = some l) :
    List.Forall₂ (fun parent l => link? order parent = some l) parents (parents.filterMap (link? order)) := by
  induction parents with
  | nil => exact .nil
  | cons parent rest ih =>
      obtain ⟨l, linked⟩ := known parent List.mem_cons_self
      rw [List.filterMap_cons_some linked]
      exact .cons linked (ih fun other later => known other (.tail _ later))

-- The node of a listed profile, with the nodes of exactly its declared parents.
structure LinksTo (c : Catalog) (order : List Profile) (id : ProfileId) (l : LinkedProfile) : Prop where
  linked : link? order id = some l
  named : l.identity = id
  drawn : DrawnFrom c l
  parents : List.Forall₂ (fun parent m => link? order parent = some m) l.profile.parents l.parents

theorem map_identity_of_links {order : List Profile} {parents : List ProfileId} {ls : List LinkedProfile}
    (links : List.Forall₂ (fun parent l => link? order parent = some l) parents ls)
    (each : ∀ id l, link? order id = some l → l.identity = id ∧ DrawnFrom c l) :
    ls.map identity = parents ∧ ∀ l ∈ ls, DrawnFrom c l := by
  induction links with
  | nil => exact ⟨rfl, nofun⟩
  | cons linked _ ih =>
      obtain ⟨named, drawn⟩ := each _ _ linked
      refine ⟨?_, List.forall_mem_cons.mpr ⟨drawn, ih.2⟩⟩
      rw [List.map_cons, named, ih.1]

theorem linksTo_of_ordered {order : List Profile} (ordered : Ordered c order) :
    ∀ id ∈ identities order, ∃ l, LinksTo c order id l := by
  induction ordered with
  | nil => exact nofun
  | @snoc listed p before found new parents ih =>
      have old : ∀ id l, link? listed id = some l → LinksTo c listed id l := by
        intro id l linked
        obtain ⟨m, links⟩ := ih id (mem_of_link? linked)
        cases linked.symm.trans links.linked
        exact links
      have kept : ∀ id l, link? listed id = some l → link? (listed ++ [p]) id = some l := by
        intro id l linked
        have other : id ≠ p.identity := fun same => new (same ▸ mem_of_link? linked)
        rw [link?_snoc, if_neg other]
        exact linked
      intro id member
      rw [identities_append, List.mem_append, List.mem_singleton] at member
      rcases member with there | rfl
      · obtain ⟨l, links⟩ := ih id there
        exact ⟨l, kept id l links.linked, links.named, links.drawn, links.parents.imp kept⟩
      · have above := filterMap_link? listed fun parent declared => by
          obtain ⟨l, links⟩ := ih parent (parents parent declared)
          exact ⟨l, links.linked⟩
        obtain ⟨named, drawn⟩ := map_identity_of_links (c := c) above fun id l linked =>
          ⟨(old id l linked).named, (old id l linked).drawn⟩
        refine ⟨node p (p.parents.filterMap (link? listed)), ?_, rfl, .node found named drawn, above.imp kept⟩
        rw [link?_snoc, if_pos rfl]

theorem list_of_new {p : Profile} {ps : List LinkedProfile} {listed : List Profile}
    (new : p.identity ∉ identities (listAll listed ps)) : (node p ps).list listed = listAll listed ps ++ [p] := by
  rw [list]
  exact if_neg new

theorem listAll_new {listed : List Profile} (new : l.identity ∉ identities listed) (rest : List LinkedProfile) :
    listAll listed (l :: rest) = listAll (l.list listed) rest := by
  rw [listAll]
  exact if_neg new

theorem listAll_old {listed : List Profile} (old : l.identity ∈ identities listed) (rest : List LinkedProfile) :
    listAll listed (l :: rest) = listAll listed rest := by
  rw [listAll]
  exact if_pos old

theorem listAll_postorder {ls : List LinkedProfile}
    (each : ∀ l ∈ ls, ∀ listed rest order, l.identity ∉ identities listed → Postorder c (l.list listed) rest order →
      Postorder c listed (l.identity :: rest) order) (listed : List Profile) :
    Postorder c listed (ls.map identity) (listAll listed ls) := by
  induction ls generalizing listed with
  | nil => exact .done
  | cons l rest ih =>
      have later := fun listed => ih (fun m there => each m (.tail _ there)) listed
      rw [List.map_cons]
      by_cases old : l.identity ∈ identities listed
      · rw [listAll_old old]
        exact .again old (later listed)
      · rw [listAll_new old]
        exact each l List.mem_cons_self _ _ _ old (later _)

-- Nothing says that a node is on the way already; nothing has to, for it is no ancestor of its own.
theorem DrawnFrom.list_postorder (keyed : c.Keyed) (drawn : DrawnFrom c l) {listed order : List Profile}
    {rest : List ProfileId} (new : l.identity ∉ identities listed) (outside : Postorder c (l.list listed) rest order) :
    Postorder c listed (l.identity :: rest) order := by
  induction l using upward generalizing listed rest order with
  | node p ps ih =>
      have parents : Postorder c listed p.parents (listAll listed ps) := by
        rw [← show ps.map identity = p.parents from drawn.declared]
        exact listAll_postorder (fun m member _ _ _ => ih m member (drawn.parent member)) listed
      have last : p.identity ∉ identities (listAll listed ps) := by
        intro member
        rcases parents.ancestral keyed p.identity member with old | ⟨parent, declared, path⟩
        · exact new old
        · exact drawn.founded.acyclic (.head' ⟨p, drawn.stored, declared⟩ path)
      rw [list_of_new last] at outside
      exact .fresh new drawn.stored parents outside

theorem DrawnFrom.linearize (keyed : c.Keyed) (drawn : DrawnFrom c l) :
    c.linearize [l.identity] = .ok l.lineage :=
  (linearize_eq_ok_iff_postorder keyed).mpr (drawn.list_postorder keyed List.not_mem_nil .done)

end LinkedProfile

structure Landing where
  node : LinkedProfile
  passed : Nat := 0

-- Nodes on the way, the last one first, each with the number of its parents that were looked at. Only what is left
-- for good is marked.
structure Climb where
  stack : List Landing
  visited : KeySet ProfileId := ∅
  order : List Profile := []

namespace Climb

def step (t : Climb) : Option Climb :=
  match t.stack with
  | [] => none
  | top :: below =>
      match top.node.parents[top.passed]? with
      | some parent =>
          let stack := { top with passed := top.passed + 1 } :: below
          if t.visited.contains parent.identity then some { t with stack }
          else some { t with stack := { node := parent } :: stack }
      | none =>
          if t.visited.contains top.node.identity then some { t with stack := below }
          else some {
            stack := below
            visited := KeySet.add t.visited top.node.identity
            order := t.order ++ [top.node.profile] }

def Leads : Climb → Climb → Prop := ReflTransGen fun t u => t.step = some u

def Ends (t : Climb) (order : List Profile) : Prop :=
  ∃ last, Leads t last ∧ last.step = none ∧ last.order = order

-- The marks say what the order says.
def amid (stack : List Landing) (listed : List Profile) : Climb :=
  { stack, visited := KeySet.ofList (identities listed), order := listed }

section Steps

variable {l m : LinkedProfile} {k : Nat} {below : List Landing} {listed : List Profile}

theorem step_parent (next : l.parents[k]? = some m) :
    (amid ({ node := l, passed := k } :: below) listed).step =
      some (if m.identity ∈ identities listed then amid ({ node := l, passed := k + 1 } :: below) listed
        else amid ({ node := m } :: { node := l, passed := k + 1 } :: below) listed) := by
  unfold step
  dsimp only [amid]
  rw [next]
  simp only [Dict.contains_ofList]
  split <;> rfl

theorem step_leave (looked : l.parents[k]? = none) :
    (amid ({ node := l, passed := k } :: below) listed).step =
      some (amid below (if l.identity ∈ identities listed then listed else listed ++ [l.profile])) := by
  have noted : KeySet.add (KeySet.ofList (identities listed)) l.identity =
      KeySet.ofList (identities (listed ++ [l.profile])) := by
    rw [identities_append, KeySet.ofList, KeySet.ofList, List.foldl_append]
    rfl
  unfold step
  dsimp only [amid]
  rw [looked]
  simp only [Dict.contains_ofList]
  split
  · rfl
  · rw [noted]

-- Once all parents were looked at the node itself is listed, unless it is already.
def close (l : LinkedProfile) (listed : List Profile) : List Profile :=
  if l.identity ∈ identities listed then listed else listed ++ [l.profile]

theorem leads_close (each : ∀ m ∈ l.parents, ∀ below listed,
      Leads (amid ({ node := m } :: below) listed) (amid below (m.list listed)))
    {left : List LinkedProfile} (unseen : l.parents.drop k = left) :
    Leads (amid ({ node := l, passed := k } :: below) listed)
      (amid below (close l (LinkedProfile.listAll listed left))) := by
  induction left generalizing k listed with
  | nil =>
      have looked : l.parents[k]? = none := List.getElem?_eq_none (List.drop_eq_nil_iff.mp unseen)
      rw [LinkedProfile.listAll]
      exact .single (step_leave looked)
  | cons m rest ih =>
      have next : l.parents[k]? = some m := by
        rw [← Nat.add_zero k, ← List.getElem?_drop, unseen]
        rfl
      have further : l.parents.drop (k + 1) = rest := by
        rw [← List.drop_drop, unseen]
        rfl
      by_cases old : m.identity ∈ identities listed
      · rw [LinkedProfile.listAll_old old]
        refine .head (step_parent next) ?_
        rw [if_pos old]
        exact ih further
      · rw [LinkedProfile.listAll_new old]
        refine .head (step_parent next) ?_
        rw [if_neg old]
        exact (each m (List.mem_of_getElem? next) _ listed).trans (ih further)

-- From the moment a node is on the way until it has left it, with all that is below it untouched.
theorem leads_list (l : LinkedProfile) (below : List Landing) (listed : List Profile) :
    Leads (amid ({ node := l } :: below) listed) (amid below (l.list listed)) := by
  induction l using LinkedProfile.upward generalizing below listed with
  | node p ps ih =>
      have whole : (LinkedProfile.node p ps).list listed =
          close (LinkedProfile.node p ps) (LinkedProfile.listAll listed ps) := by
        rw [LinkedProfile.list]
        rfl
      rw [whole]
      exact leads_close (l := .node p ps) ih rfl

end Steps

theorem ends_lineage (l : LinkedProfile) : Ends { stack := [{ node := l }] } l.lineage :=
  ⟨amid [] l.lineage, leads_list l [] [], rfl, rfl⟩

end Climb

namespace Catalog

variable {c : Catalog} {v : Version} {root : ProfileId} {order : List Profile}

structure Agrees (c : Catalog) (v : Version) (id : ProfileId) (order : List Profile) (l : LinkedProfile) : Prop where
  linearized : c.linearize [id] = .ok order
  linked : LinkedProfile.link? order id = some l
  stored : c.get? id = some l.profile
  parents : List.Forall₂ (fun parent m => LinkedProfile.link? order parent = some m) l.profile.parents l.parents
  lineage : l.lineage = order
  climbed : Climb.Ends { stack := [{ node := l }] } order
  effective : l.effective = Profile.merge (Profile.effectiveIdentity id) v order

theorem agrees_of_linksTo (keyed : c.Keyed) (uniform : ∀ id p, c.get? id = some p → p.version = v)
    {l : LinkedProfile} (walked : c.linearize [root] = .ok order) (links : LinkedProfile.LinksTo c order root l) :
    c.Agrees v root order l := by
  obtain rfl := links.named
  have lineage : l.lineage = order := Except.ok.inj ((links.drawn.linearize keyed).symm.trans walked)
  refine ⟨walked, links.linked, links.drawn.stored, links.parents, lineage, lineage ▸ Climb.ends_lineage l, ?_⟩
  rw [LinkedProfile.effective, lineage, uniform _ _ links.drawn.stored]

-- Every node that was drawn is the one its own linearization links to.
theorem agrees_of_drawn (keyed : c.Keyed) (uniform : ∀ id p, c.get? id = some p → p.version = v) {m : LinkedProfile}
    (drawn : m.DrawnFrom c) : c.Agrees v m.identity m.lineage m := by
  have walked := drawn.linearize keyed
  have listed : m.identity ∈ identities m.lineage := (linearize_eq_ok.mp walked).covers keyed List.mem_cons_self
  obtain ⟨l, links⟩ := LinkedProfile.linksTo_of_ordered (linearize_ordered keyed walked) _ listed
  cases links.drawn.unique drawn links.named
  exact agrees_of_linksTo keyed uniform walked links

theorem linked_view_agrees (keyed : c.Keyed) (uniform : ∀ id p, c.get? id = some p → p.version = v)
    (walked : c.linearize [root] = .ok order) :
    ∃ l, c.Agrees v root order l ∧ ∀ m, l.Reaches m → ∃ above, c.Agrees v m.identity above m := by
  have listed : root ∈ identities order := (linearize_eq_ok.mp walked).covers keyed List.mem_cons_self
  obtain ⟨l, links⟩ := LinkedProfile.linksTo_of_ordered (linearize_ordered keyed walked) root listed
  exact ⟨l, agrees_of_linksTo keyed uniform walked links,
    fun m path => ⟨m.lineage, agrees_of_drawn keyed uniform (links.drawn.reached path)⟩⟩

-- The node of the shared parent can be come to on two ways and is listed once.
theorem linked_view_agrees_diamond : (ofProfiles diamond).Keyed ∧
    (∀ id p, (ofProfiles diamond).get? id = some p → p.version = .first) ∧
    (ofProfiles diamond).linearize ["site"] = .ok diamond ∧
    ∃ l, (ofProfiles diamond).Agrees .first "site" diamond l ∧
      ∀ m, l.Reaches m → ∃ above, (ofProfiles diamond).Agrees .first m.identity above m := by
  have keyed : (ofProfiles diamond).Keyed := fun id p found => (get?_ofProfiles found).2
  have uniform : ∀ id p, (ofProfiles diamond).get? id = some p → p.version = .first := fun id p found =>
    (show ∀ q ∈ diamond, q.version = .first by decide) p (get?_ofProfiles found).1
  have left : Walk (ofProfiles diamond) ["site"] [] ["left"] (diamond.take 2) :=
    .fresh (by decide) (by decide) rfl (.fresh (by decide) (by decide) rfl .done .done) .done
  have right : Walk (ofProfiles diamond) ["site"] (diamond.take 2) ["right"] (diamond.take 3) :=
    .fresh (by decide) (by decide) rfl (.again (by decide) .done) .done
  have walked : (ofProfiles diamond).linearize ["site"] = .ok diamond :=
    linearize_eq_ok.mpr (.fresh (by decide) (by decide) rfl (left.append right) .done)
  exact ⟨keyed, uniform, walked, linked_view_agrees keyed uniform walked⟩

end Catalog

end ContainerProfiles
