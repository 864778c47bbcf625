import QueryCriteria.Proofs.Belonging
import QueryCriteria.Proofs.BuiltPredicates

namespace QueryCriteria

open QueryCriteria.Model

variable {σ : ScopeId} {given : Target → Prop} {registered : CriteriaId → Option Entity}
  {entities : EntityLookup}

structure EntityLookup.Reads (entities : EntityLookup) (σ : ScopeId)
    (registered : CriteriaId → Option Entity) : Prop where
  model : ∀ owner : Owner, owner.scope = σ → entities.model? owner = registered owner.id
  holds : ∀ id entity, registered id = some entity → (entities.registry σ).Holds entity

section Resolve

variable {owner : Option Owner} {target : Target}

theorem belongsTo_of_resolve (hreads : entities.Reads σ registered) (hscope : ∀ o ∈ owner, o.scope = σ)
    {column : ColumnSpec} (h : column.resolve entities owner = .ok target) :
    target.BelongsTo ((owner.map Owner.id).bind registered) := by
  rcases resolve_eq_ok_iff.mp h with ⟨sql, rfl, -, rfl⟩ | ⟨o, entity, found, rfl, hentity, hfound, rfl⟩
  · trivial
  · refine ⟨entity, ?_, mem_of_find? hfound⟩
    rw [Option.map_some, Option.bind_some, ← hreads.model o (hscope o rfl), hentity]

end Resolve

namespace Condition

variable {head : Head} {p : Predicate}

def Head.ownedHead (head : Head) (resolution : Resolution) : Predicate.Head :=
  { head.predicateHead resolution with owner := head.owner.map Owner.id }

theorem own_test (head : Head) (resolution : Resolution) (t : Test) :
    head.own (.test (head.predicateHead resolution) t) = .test (head.ownedHead resolution) t := by
  simp only [Head.own, Head.ownedHead]
  cases head.owner <;> rfl

theorem own_existence (head : Head) (negated : Bool) (query : Criteria) :
    head.own (.existence (head.predicateHead .existence) negated query) =
      .existence (head.ownedHead .existence) negated query := by
  simp only [Head.own, Head.ownedHead]
  cases head.owner <;> rfl

theorem own_subquery (head : Head) (resolution : Resolution) (op : SubqueryOp) (query : Criteria) :
    head.own (.subquery (head.predicateHead resolution) op query) =
      .subquery (head.ownedHead resolution) op query := by
  simp only [Head.own, Head.ownedHead]
  cases head.owner <;> rfl

theorem grounded_ownedHead {resolution : Resolution} (h : ∀ target ∈ resolution.parts.2,
    target.BelongsTo ((head.owner.map Owner.id).bind registered)) :
    (head.ownedHead resolution).Grounded registered :=
  h

theorem grounded_of_target {target : Target}
    (h : target.BelongsTo ((head.owner.map Owner.id).bind registered)) :
    (head.ownedHead (.ofTarget target)).Grounded registered := by
  cases target <;> exact grounded_ownedHead fun _ hmem => Option.some.inj hmem ▸ h

section Build

variable (hreads : entities.Reads σ registered)

include hreads

theorem Head.belongsTo_of_resolve (hscope : ∀ o ∈ head.owner, o.scope = σ) {target : Target}
    (h : head.resolve entities = .ok target) :
    target.BelongsTo ((head.owner.map Owner.id).bind registered) :=
  QueryCriteria.belongsTo_of_resolve hreads hscope (mapError_eq_ok.mp h)

theorem grounded_of_asks {body : Body} {t : Test} (h : body.Asks entities t)
    (hscope : ∀ o ∈ (⟨head, body⟩ : Condition).referents, o.scope = σ) (owner : Option CriteriaId) :
    t.Grounded registered owner := by
  cases h with
  | @columnEqual other target htarget =>
      have hside : ∀ o ∈ some other.owner, o.scope = σ := by
        intro o ho
        exact hscope o (List.mem_append_right _ (Option.mem_toList.mpr ho))
      exact QueryCriteria.belongsTo_of_resolve hreads hside htarget
  | _ => trivial

theorem rooted_build {c : Condition} (hscope : ∀ o ∈ c.referents, o.scope = σ)
    (hqueries : ∀ q ∈ c.queries, q.Rooted σ given registered)
    (hchildren : ∀ q ∈ c.children, q.Rooted σ given registered) (h : c.build entities = .ok p) :
    p.Rooted σ given registered := by
  obtain ⟨head, body⟩ := c
  have howner : ∀ o ∈ head.owner, o.scope = σ := fun o ho =>
    hscope o (List.mem_append_left _ (Option.mem_toList.mpr ho))
  have hbelongs : ∀ target, head.resolve entities = .ok target →
      target.BelongsTo ((head.owner.map Owner.id).bind registered) := fun _ =>
    Head.belongsTo_of_resolve hreads howner
  obtain ⟨q, hforms, rfl⟩ := exists_forms_of_build h
  cases hforms with
  | @test _ target t hresolve hasks =>
      rw [own_test]
      exact rooted_test.mpr
        ⟨grounded_of_target (hbelongs target hresolve), grounded_of_asks hreads hasks hscope _⟩
  | @template text args column _ hcolumn =>
      have htext : (Target.raw text).BelongsTo ((head.owner.map Owner.id).bind registered) := trivial
      rw [own_test]
      exact rooted_test.mpr ⟨grounded_of_target htext, fun target htarget =>
        hbelongs target (resolve_of_templateColumn hcolumn target htarget)⟩
  | @existence negated query =>
      rw [own_existence]
      have hhead : (head.ownedHead .existence).Grounded registered :=
        grounded_ownedHead fun target hmem => (by cases hmem)
      exact rooted_existence.mpr ⟨hhead, hqueries query (by simp [queries])⟩
  | @subquery op query target hresolve =>
      rw [own_subquery]
      exact rooted_subquery.mpr
        ⟨grounded_of_target (hbelongs target hresolve), hqueries query (by simp [queries])⟩
  | @nested negated children _ =>
      have hgroup : (Predicate.nested (head.predicateHead .existence) negated children).Rooted σ given
          registered := rooted_nested.mpr ⟨fun target hmem => (by cases hmem), hchildren⟩
      unfold Head.own
      cases head.owner with
      | none => exact hgroup
      | some owner => exact rooted_bindOwner owner.id _ hgroup

end Build

theorem mem_referents_adopt {c : Condition} {owner o : Owner} (h : o ∈ (c.adopt owner).referents) :
    o = owner ∨ o ∈ c.referents := by
  rcases List.mem_append.mp h with h | h
  · cases howner : c.head.owner with
    | none => exact .inl (by simpa [adopt, howner] using h)
    | some chosen => exact .inr (List.mem_append_left _ (by simpa [adopt, howner] using h))
  · exact .inr (List.mem_append_right _ h)

end Condition

section Criteria

variable {c : Criteria}

theorem rooted_fresh {id : CriteriaId} {entity : Entity} (parent : Option CriteriaId)
    (h : registered id = some entity) :
    (Criteria.fresh σ id entity parent).Rooted σ given registered :=
  rooted_mk.mpr ⟨⟨rfl, h, by simp, by simp, by simp⟩, by simp, by simp⟩

theorem rooted_scratch (h : c.Rooted σ given registered) : c.scratch.Rooted σ given registered := by
  have hnode := h.nodes c c.self_mem_members
  rw [Criteria.scratch, show c.scope = σ from hnode.scope]
  exact rooted_fresh c.node.parent hnode.entity

theorem rooted_mapNode {f : Node → Node} (h : c.Rooted σ given registered)
    (hnode : (f c.node).Rooted σ given registered) : (c.mapNode f).Rooted σ given registered := by
  obtain ⟨node, ps, js⟩ := c
  exact rooted_mk.mpr ⟨hnode, (rooted_mk.mp h).2⟩

theorem rooted_push {p : Predicate} (h : c.Rooted σ given registered) (hp : p.Rooted σ given registered) :
    (c.push p).Rooted σ given registered := by
  obtain ⟨node, ps, js⟩ := c
  obtain ⟨hnode, hps, hjs⟩ := rooted_mk.mp h
  refine rooted_mk.mpr ⟨hnode, fun q hq => ?_, hjs⟩
  rcases List.mem_append.mp hq with hq | hq
  · exact hps q hq
  · obtain rfl := List.mem_singleton.mp hq
    exact held_bindOwner hp node.id

theorem rooted_join {participant : Criteria} (h : c.Rooted σ given registered)
    (hp : participant.Rooted σ given registered) : (c.join participant).Rooted σ given registered := by
  obtain ⟨node, ps, js⟩ := c
  obtain ⟨hnode, hps, hjs⟩ := rooted_mk.mp h
  refine rooted_mk.mpr ⟨hnode, hps, fun d hd => ?_⟩
  rcases List.mem_append.mp hd with hd | hd
  · exact hjs d hd
  · obtain rfl := List.mem_singleton.mp hd
    exact hp

end Criteria

section Additions

theorem belongsTo_of_has {e : Entity} {target : Target} (h : e.Has target) :
    target.BelongsTo (some e) := by
  obtain ⟨column, hcolumn, rfl⟩ := h
  exact ⟨e, rfl, hcolumn⟩

variable {selected listed : Target → Prop} {n n' : Node}

theorem Node.Adds.rooted (h : n.Adds selected listed n') (hn : n.Rooted σ given registered)
    (hselected : ∀ target, selected target → given target ∨ target.BelongsTo (some n.entity))
    (hlisted : ∀ target, listed target → target.BelongsTo (some n.entity)) :
    n'.Rooted σ given registered where
  scope := h.scope.trans hn.scope
  entity := by rw [h.id, h.entity, hn.entity]
  selections target htarget := by
    rw [h.entity]
    exact (h.selections target htarget).elim (hn.selections target) (hselected target)
  groups target htarget := by
    rw [h.entity]
    exact (h.groups target htarget).elim (hn.groups target) (hlisted target)
  orders target htarget := by
    rw [h.entity]
    exact (h.orders target htarget).elim (hn.orders target) (hlisted target)

variable {c d : Criteria} {a : Addition}

theorem has_of_finds {target : Target} (hholds : (entities.registry c.scope).Holds c.node.entity)
    (h : c.Finds entities target) : c.node.entity.Has target := by
  obtain ⟨entity, hentity, htarget⟩ := h
  obtain rfl := Option.some.inj (hholds.symm.trans hentity)
  exact htarget

theorem rooted_add (hreads : entities.Reads σ registered) (hc : c.Rooted σ given registered)
    (hscope : ∀ condition, a = .condition condition → ∀ o ∈ condition.referents, o.scope = σ)
    (hqueries : ∀ q ∈ a.queries, q.Rooted σ given registered)
    (hchildren : ∀ q ∈ a.children, q.Rooted σ given registered) (h : c.add entities a = .ok d) :
    d.Rooted σ given registered := by
  have hnode := hc.nodes c c.self_mem_members
  rcases add_cases h with ⟨p, rfl, ⟨condition, rfl, hp⟩ | rfl⟩ | ⟨f, rfl, hadds⟩
  · have hadopted : ∀ o ∈ (condition.adopt c.owner).referents, o.scope = σ := by
      intro o ho
      rcases Condition.mem_referents_adopt ho with rfl | ho
      · exact hnode.scope
      · exact hscope condition rfl o ho
    exact rooted_push hc (Condition.rooted_build hreads hadopted hqueries hchildren hp)
  · exact rooted_push hc (hchildren p List.mem_cons_self)
  · have hholds : (entities.registry c.scope).Holds c.node.entity := by
      rw [show c.scope = σ from hnode.scope]
      exact hreads.holds _ _ hnode.entity
    exact rooted_mapNode hc (hadds.rooted hnode
      (fun _ ht => .inr (belongsTo_of_has (has_of_finds hholds ht)))
      fun _ ht => belongsTo_of_has (has_of_finds hholds ht))

end Additions

end QueryCriteria
