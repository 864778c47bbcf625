import QueryCriteria.Proofs.ColumnUses
import QueryCriteria.Proofs.ForeignHandles

namespace QueryCriteria

open QueryCriteria.Model

def Target.BelongsTo (entity? : Option Entity) : Target → Prop
  | .raw _ => True
  | .resolved column => ∃ entity, entity? = some entity ∧ column ∈ entity.columns

def Test.Grounded (registered : CriteriaId → Option Entity) (owner : Option CriteriaId) : Test → Prop
  | .template _ column => ∀ target ∈ column, target.BelongsTo (owner.bind registered)
  | .columnEqual other => other.target.BelongsTo (registered other.criteria)
  | _ => True

def Predicate.Head.Grounded (registered : CriteriaId → Option Entity) (h : Head) : Prop :=
  ∀ target ∈ h.target, target.BelongsTo (h.owner.bind registered)

def Predicate.Grounded (registered : CriteriaId → Option Entity) : Predicate → Prop
  | .test head t => head.Grounded registered ∧ t.Grounded registered head.owner
  | p => p.head.Grounded registered

def Predicate.owners (p : Predicate) : List (Option CriteriaId) :=
  p.conditions.map fun q => q.head.owner

def Criteria.owners (c : Criteria) : List (Option CriteriaId) :=
  c.conditions.map fun p => p.head.owner

structure Node.Rooted (σ : ScopeId) (given : Target → Prop) (registered : CriteriaId → Option Entity)
    (n : Node) : Prop where
  scope : n.scope = σ
  entity : registered n.id = some n.entity
  selections : ∀ target ∈ n.selections.filterMap Selection.target?,
    given target ∨ target.BelongsTo (some n.entity)
  groups : ∀ target ∈ n.groups.filterMap Grouping.target?, target.BelongsTo (some n.entity)
  orders : ∀ target ∈ n.orders.filterMap OrderItem.target?, target.BelongsTo (some n.entity)

structure Criteria.Rooted (σ : ScopeId) (given : Target → Prop) (registered : CriteriaId → Option Entity)
    (c : Criteria) : Prop where
  nodes : ∀ m ∈ c.members, m.node.Rooted σ given registered
  owned : ∀ owner ∈ c.owners, owner.isSome
  grounded : ∀ p ∈ c.conditions, p.Grounded registered

structure Predicate.Rooted (σ : ScopeId) (given : Target → Prop) (registered : CriteriaId → Option Entity)
    (p : Predicate) : Prop where
  queries : ∀ m ∈ p.members, m.Rooted σ given registered
  grounded : ∀ q ∈ p.conditions, q.Grounded registered

def Predicate.Held (σ : ScopeId) (given : Target → Prop) (registered : CriteriaId → Option Entity)
    (p : Predicate) : Prop :=
  p.Rooted σ given registered ∧ ∀ owner ∈ p.owners, owner.isSome

def Retained (before after : CriteriaId → Option Entity) : Prop :=
  ∀ id entity, before id = some entity → after id = some entity

variable {σ : ScopeId} {given : Target → Prop} {registered after : CriteriaId → Option Entity}

section Grow

theorem Target.BelongsTo.mono {entity? entity?' : Option Entity} {target : Target}
    (hentity : ∀ e, entity? = some e → entity?' = some e) (h : target.BelongsTo entity?) :
    target.BelongsTo entity?' := by
  cases target with
  | raw sql => trivial
  | resolved column =>
      obtain ⟨entity, heq, hcolumn⟩ := h
      exact ⟨entity, hentity entity heq, hcolumn⟩

theorem Retained.bind (h : Retained registered after) (owner : Option CriteriaId) (e : Entity)
    (he : owner.bind registered = some e) : owner.bind after = some e := by
  obtain ⟨id, hid, he⟩ := Option.bind_eq_some_iff.mp he
  exact Option.bind_eq_some_iff.mpr ⟨id, hid, h id e he⟩

theorem Predicate.Head.Grounded.mono {head head' : Predicate.Head} (htarget : head'.target = head.target)
    (howner : ∀ e, head.owner.bind registered = some e → head'.owner.bind after = some e)
    (h : head.Grounded registered) : head'.Grounded after := by
  intro target hmem
  rw [htarget] at hmem
  exact (h target hmem).mono howner

theorem Predicate.Head.Grounded.grow {head : Predicate.Head} (h : Retained registered after)
    (hhead : head.Grounded registered) : head.Grounded after :=
  hhead.mono rfl (h.bind head.owner)

theorem Test.Grounded.mono {owner owner' : Option CriteriaId} {t : Test} (h : Retained registered after)
    (howner : ∀ e, owner.bind registered = some e → owner'.bind after = some e)
    (ht : t.Grounded registered owner) : t.Grounded after owner' := by
  cases t with
  | template args column => exact fun target hmem => (ht target hmem).mono howner
  | columnEqual other =>
      have hother : other.target.BelongsTo (registered other.criteria) := ht
      exact hother.mono (h other.criteria)
  | _ => trivial

theorem Predicate.Grounded.grow {p : Predicate} (h : Retained registered after)
    (hp : p.Grounded registered) : p.Grounded after := by
  cases p with
  | test head t => exact ⟨hp.1.grow h, hp.2.mono h (h.bind head.owner)⟩
  | _ => exact Predicate.Head.Grounded.grow h hp

theorem Node.Rooted.grow {n : Node} (h : Retained registered after) (hn : n.Rooted σ given registered) :
    n.Rooted σ given after :=
  { hn with entity := h _ _ hn.entity }

theorem Criteria.Rooted.grow {c : Criteria} (h : Retained registered after)
    (hc : c.Rooted σ given registered) : c.Rooted σ given after where
  nodes _ hm := (hc.nodes _ hm).grow h
  owned := hc.owned
  grounded _ hp := (hc.grounded _ hp).grow h

theorem Predicate.Rooted.grow {p : Predicate} (h : Retained registered after)
    (hp : p.Rooted σ given registered) : p.Rooted σ given after where
  queries _ hm := (hp.queries _ hm).grow h
  grounded _ hq := (hp.grounded _ hq).grow h

theorem Predicate.Held.grow {p : Predicate} (h : Retained registered after)
    (hp : p.Held σ given registered) : p.Held σ given after :=
  ⟨hp.1.grow h, hp.2⟩

end Grow

section Parts

theorem owners_mk (node : Node) (ps : List Predicate) (js : List Criteria) :
    (Criteria.mk node ps js).owners = ps.flatMap Predicate.owners ++ js.flatMap Criteria.owners := by
  rw [Criteria.owners, Criteria.conditions_mk, List.map_append, List.map_flatMap, List.map_flatMap]
  rfl

theorem owners_test (head : Predicate.Head) (t : Test) : (Predicate.test head t).owners = [head.owner] := by
  rw [Predicate.owners, Predicate.conditions_test]
  rfl

theorem owners_existence (head : Predicate.Head) (negated : Bool) (query : Criteria) :
    (Predicate.existence head negated query).owners = head.owner :: query.owners := by
  rw [Predicate.owners, Predicate.conditions_existence]
  rfl

theorem owners_subquery (head : Predicate.Head) (op : SubqueryOp) (query : Criteria) :
    (Predicate.subquery head op query).owners = head.owner :: query.owners := by
  rw [Predicate.owners, Predicate.conditions_subquery]
  rfl

theorem owners_nested (head : Predicate.Head) (negated : Bool) (children : List Predicate) :
    (Predicate.nested head negated children).owners =
      head.owner :: children.flatMap Predicate.owners := by
  rw [Predicate.owners, Predicate.conditions_nested, List.map_cons, List.map_flatMap]
  rfl

variable {c : Criteria} {p : Predicate}

theorem Criteria.Rooted.member (h : c.Rooted σ given registered) {m : Criteria} (hm : m ∈ c.members) :
    m.Rooted σ given registered where
  nodes n hn := h.nodes n ((gather_subset.1 c).1 m hm hn)
  owned := by
    intro owner howner
    obtain ⟨p, hp, rfl⟩ := List.mem_map.mp howner
    exact h.owned _ (List.mem_map_of_mem ((gather_subset.1 c).1 m hm hp))
  grounded p hp := h.grounded p ((gather_subset.1 c).1 m hm hp)

theorem Criteria.Rooted.condition (h : c.Rooted σ given registered) (hp : p ∈ c.conditions) :
    p.Rooted σ given registered where
  queries _ hm := h.member ((gather_subset.1 c).2 p hp hm)
  grounded q hq := h.grounded q ((gather_subset.1 c).2 p hp hq)

theorem Predicate.Rooted.condition (h : p.Rooted σ given registered) {q : Predicate}
    (hq : q ∈ p.conditions) : q.Rooted σ given registered where
  queries m hm := h.queries m ((gather_subset.2 p).2 q hq hm)
  grounded r hr := h.grounded r ((gather_subset.2 p).2 q hq hr)

theorem rooted_mk {node : Node} {ps : List Predicate} {js : List Criteria} :
    (Criteria.mk node ps js).Rooted σ given registered ↔ node.Rooted σ given registered ∧
      (∀ p ∈ ps, p.Held σ given registered) ∧ ∀ c ∈ js, c.Rooted σ given registered := by
  constructor
  · intro h
    have howned := h.owned
    simp only [owners_mk, List.forall_mem_append, List.forall_mem_flatMap] at howned
    refine ⟨h.nodes _ (Criteria.self_mem_members _), fun p hp => ⟨h.condition ?_, howned.1 p hp⟩,
      fun c hc => h.member ?_⟩
    · rw [Criteria.conditions_mk]
      exact List.mem_append_left _ (List.mem_flatMap.mpr ⟨p, hp, by cases p <;> simp⟩)
    · rw [Criteria.members_mk]
      exact List.mem_cons_of_mem _ (List.mem_append_right _
        (List.mem_flatMap.mpr ⟨c, hc, c.self_mem_members⟩))
  · rintro ⟨hnode, hps, hjs⟩
    constructor
    · simp only [Criteria.members_mk, List.forall_mem_cons, List.forall_mem_append, List.forall_mem_flatMap]
      exact ⟨hnode, fun p hp m hm => ((hps p hp).1.queries m hm).nodes m m.self_mem_members,
        fun c hc => (hjs c hc).nodes⟩
    · simp only [owners_mk, List.forall_mem_append, List.forall_mem_flatMap]
      exact ⟨fun p hp => (hps p hp).2, fun c hc => (hjs c hc).owned⟩
    · simp only [Criteria.conditions_mk, List.forall_mem_append, List.forall_mem_flatMap]
      exact ⟨fun p hp => (hps p hp).1.grounded, fun c hc => (hjs c hc).grounded⟩

theorem rooted_test {head : Predicate.Head} {t : Test} :
    (Predicate.test head t).Rooted σ given registered ↔ (Predicate.test head t).Grounded registered := by
  constructor
  · intro h
    exact h.grounded _ (by simp)
  · intro h
    refine ⟨by simp, fun q hq => ?_⟩
    obtain rfl := List.mem_singleton.mp (Predicate.conditions_test .. ▸ hq)
    exact h

theorem rooted_existence {head : Predicate.Head} {negated : Bool} {query : Criteria} :
    (Predicate.existence head negated query).Rooted σ given registered ↔
      head.Grounded registered ∧ query.Rooted σ given registered := by
  constructor
  · intro h
    exact ⟨h.grounded (.existence head negated query) (by simp),
      h.queries query (by simp [query.self_mem_members])⟩
  · rintro ⟨hhead, hquery⟩
    refine ⟨fun m hm => hquery.member (by simpa using hm), ?_⟩
    rw [Predicate.conditions_existence]
    exact List.forall_mem_cons.mpr ⟨hhead, hquery.grounded⟩

theorem rooted_subquery {head : Predicate.Head} {op : SubqueryOp} {query : Criteria} :
    (Predicate.subquery head op query).Rooted σ given registered ↔
      head.Grounded registered ∧ query.Rooted σ given registered := by
  constructor
  · intro h
    exact ⟨h.grounded (.subquery head op query) (by simp),
      h.queries query (by simp [query.self_mem_members])⟩
  · rintro ⟨hhead, hquery⟩
    refine ⟨fun m hm => hquery.member (by simpa using hm), ?_⟩
    rw [Predicate.conditions_subquery]
    exact List.forall_mem_cons.mpr ⟨hhead, hquery.grounded⟩

theorem rooted_nested {head : Predicate.Head} {negated : Bool} {children : List Predicate} :
    (Predicate.nested head negated children).Rooted σ given registered ↔
      head.Grounded registered ∧ ∀ p ∈ children, p.Rooted σ given registered := by
  constructor
  · intro h
    refine ⟨h.grounded (.nested head negated children) (by simp), fun p hp => h.condition ?_⟩
    rw [Predicate.conditions_nested]
    exact List.mem_cons_of_mem _ (List.mem_flatMap.mpr ⟨p, hp, by cases p <;> simp⟩)
  · rintro ⟨hhead, hchildren⟩
    constructor
    · simp only [Predicate.members_nested, List.forall_mem_flatMap]
      exact fun p hp => (hchildren p hp).queries
    · simp only [Predicate.conditions_nested, List.forall_mem_cons, List.forall_mem_flatMap]
      exact ⟨hhead, fun p hp => (hchildren p hp).grounded⟩

theorem held_test {head : Predicate.Head} {t : Test} :
    (Predicate.test head t).Held σ given registered ↔
      (Predicate.test head t).Grounded registered ∧ head.owner.isSome := by
  rw [Predicate.Held, rooted_test, owners_test, List.forall_mem_singleton]

theorem held_existence {head : Predicate.Head} {negated : Bool} {query : Criteria} :
    (Predicate.existence head negated query).Held σ given registered ↔
      head.Grounded registered ∧ head.owner.isSome ∧ query.Rooted σ given registered := by
  rw [Predicate.Held, rooted_existence, owners_existence, List.forall_mem_cons]
  exact ⟨fun h => ⟨h.1.1, h.2.1, h.1.2⟩, fun h => ⟨⟨h.1, h.2.2⟩, h.2.1, h.2.2.owned⟩⟩

theorem held_subquery {head : Predicate.Head} {op : SubqueryOp} {query : Criteria} :
    (Predicate.subquery head op query).Held σ given registered ↔
      head.Grounded registered ∧ head.owner.isSome ∧ query.Rooted σ given registered := by
  rw [Predicate.Held, rooted_subquery, owners_subquery, List.forall_mem_cons]
  exact ⟨fun h => ⟨h.1.1, h.2.1, h.1.2⟩, fun h => ⟨⟨h.1, h.2.2⟩, h.2.1, h.2.2.owned⟩⟩

theorem held_nested {head : Predicate.Head} {negated : Bool} {children : List Predicate} :
    (Predicate.nested head negated children).Held σ given registered ↔
      head.Grounded registered ∧ head.owner.isSome ∧ ∀ p ∈ children, p.Held σ given registered := by
  rw [Predicate.Held, rooted_nested, owners_nested, List.forall_mem_cons, List.forall_mem_flatMap]
  exact ⟨fun h => ⟨h.1.1, h.2.1, fun p hp => ⟨h.1.2 p hp, h.2.2 p hp⟩⟩,
    fun h => ⟨⟨h.1, fun p hp => (h.2.2 p hp).1⟩, h.2.1, fun p hp => (h.2.2 p hp).2⟩⟩

end Parts

section Binding

theorem bindOwner_bindOwner (id other : CriteriaId) (p : Predicate) :
    (p.bindOwner id).bindOwner other = p.bindOwner id := by
  have hhead : ∀ head : Predicate.Head, (head.bindOwner id).bindOwner other = head.bindOwner id := by
    intro head
    simp [Predicate.Head.bindOwner]
  revert p
  refine (tree_induction (C := fun _ => True) ?_ ?_ ?_ ?_ ?_).2
  case refine_1 => simp
  case refine_2 =>
    intro head t
    simp [Predicate.bindOwner, hhead]
  case refine_3 =>
    intro head negated query _
    simp [Predicate.bindOwner, hhead]
  case refine_4 =>
    intro head op query _
    simp [Predicate.bindOwner, hhead]
  case refine_5 =>
    intro head negated children hc
    simp only [Predicate.bindOwner, bindOwners_eq_map, List.map_map, hhead, Predicate.nested.injEq,
      true_and]
    exact List.map_congr_left hc

theorem owners_bindOwner (id : CriteriaId) (p : Predicate) :
    (∀ m ∈ p.members, ∀ owner ∈ m.owners, owner.isSome) →
      (p.bindOwner id).owners = p.owners.map (· <|> some id) := by
  have hquery : ∀ query : Criteria, (∀ m ∈ query.members, ∀ owner ∈ m.owners, owner.isSome) →
      query.owners.map (· <|> some id) = query.owners := by
    intro query h
    refine (List.map_congr_left fun owner howner => ?_).trans (List.map_id' _)
    obtain ⟨first, rfl⟩ := Option.isSome_iff_exists.mp (h query query.self_mem_members owner howner)
    rfl
  revert p
  refine (tree_induction (C := fun _ => True) ?_ ?_ ?_ ?_ ?_).2
  case refine_1 => simp
  case refine_2 =>
    intro head t _
    rw [Predicate.bindOwner, owners_test, owners_test]
    rfl
  case refine_3 =>
    intro head negated query _ h
    rw [Predicate.bindOwner, owners_existence, owners_existence, List.map_cons,
      hquery query (by simpa using h)]
    rfl
  case refine_4 =>
    intro head op query _ h
    rw [Predicate.bindOwner, owners_subquery, owners_subquery, List.map_cons,
      hquery query (by simpa using h)]
    rfl
  case refine_5 =>
    intro head negated children hc h
    simp only [Predicate.members_nested, List.forall_mem_flatMap] at h
    rw [Predicate.bindOwner, bindOwners_eq_map, owners_nested, owners_nested, List.map_cons,
      List.flatMap_map, List.map_flatMap, List.flatMap_congr fun p hp => hc p hp (h p hp)]
    rfl

theorem rooted_bindOwner (id : CriteriaId) (p : Predicate) :
    p.Rooted σ given registered → (p.bindOwner id).Rooted σ given registered := by
  have hbind : ∀ (owner : Option CriteriaId) e, owner.bind registered = some e →
      (owner <|> some id).bind registered = some e := by
    intro owner e he
    obtain ⟨own, rfl, he⟩ := Option.bind_eq_some_iff.mp he
    exact he
  have hhead : ∀ head : Predicate.Head, head.Grounded registered →
      (head.bindOwner id).Grounded registered := by
    intro head h
    have htarget : (head.bindOwner id).target = head.target := rfl
    exact h.mono htarget (hbind head.owner)
  revert p
  refine (tree_induction (C := fun _ => True) ?_ ?_ ?_ ?_ ?_).2
  case refine_1 => simp
  case refine_2 =>
    intro head t h
    obtain ⟨hgrounded, ht⟩ := rooted_test.mp h
    rw [Predicate.bindOwner]
    exact rooted_test.mpr ⟨hhead head hgrounded, ht.mono (fun _ _ he => he) (hbind head.owner)⟩
  case refine_3 =>
    intro head negated query _ h
    obtain ⟨hgrounded, hquery⟩ := rooted_existence.mp h
    rw [Predicate.bindOwner]
    exact rooted_existence.mpr ⟨hhead head hgrounded, hquery⟩
  case refine_4 =>
    intro head op query _ h
    obtain ⟨hgrounded, hquery⟩ := rooted_subquery.mp h
    rw [Predicate.bindOwner]
    exact rooted_subquery.mpr ⟨hhead head hgrounded, hquery⟩
  case refine_5 =>
    intro head negated children hc h
    obtain ⟨hgrounded, hchildren⟩ := rooted_nested.mp h
    rw [Predicate.bindOwner, bindOwners_eq_map]
    refine rooted_nested.mpr ⟨hhead head hgrounded, fun p hp => ?_⟩
    obtain ⟨q, hq, rfl⟩ := List.mem_map.mp hp
    exact hc q hq (hchildren q hq)

theorem held_bindOwner {p : Predicate} (h : p.Rooted σ given registered) (id : CriteriaId) :
    (p.bindOwner id).Held σ given registered := by
  refine ⟨rooted_bindOwner id p h, fun owner howner => ?_⟩
  rw [owners_bindOwner id p fun m hm => (h.queries m hm).owned] at howner
  obtain ⟨before, -, rfl⟩ := List.mem_map.mp howner
  cases before <;> rfl

end Binding

end QueryCriteria
