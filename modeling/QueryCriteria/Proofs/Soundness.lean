import QueryCriteria.Criteria.Settings
import QueryCriteria.Proofs.Conditions
import QueryCriteria.Proofs.Growth
import QueryCriteria.Proofs.WellFormed

namespace QueryCriteria

open QueryCriteria.Model

structure Criteria.Sound (w : Workspace) (c : Criteria) : Prop where
  known : ∀ m ∈ c.members, w.Knows m.scope m.id
  formed : ∀ p ∈ c.conditions, p.Formed

structure Predicate.Sound (w : Workspace) (p : Predicate) : Prop where
  known : ∀ m ∈ p.members, w.Knows m.scope m.id
  formed : ∀ q ∈ p.conditions, q.Formed

def Condition.queries (c : Condition) : List Criteria :=
  match c.body with
  | .existence _ query => query.toList
  | .subquery _ query => query.toList
  | _ => []

def Condition.children (c : Condition) : List Predicate :=
  match c.body with
  | .nested _ children => children
  | _ => []

def Addition.queries : Addition → List Criteria
  | .condition c => c.queries
  | _ => []

def Addition.children : Addition → List Predicate
  | .condition c => c.children
  | .built (.ok p) => [p]
  | _ => []

section Sound

variable {w v : Workspace}

theorem Criteria.Sound.grow {c : Criteria} (h : c.Sound w) (hwv : w.Extends v) : c.Sound v where
  known m hm := hwv.known _ _ (h.known m hm)
  formed := h.formed

theorem Predicate.Sound.grow {p : Predicate} (h : p.Sound w) (hwv : w.Extends v) : p.Sound v where
  known m hm := hwv.known _ _ (h.known m hm)
  formed := h.formed

theorem sound_mk {node : Node} {ps : List Predicate} {js : List Criteria} :
    (Criteria.mk node ps js).Sound w ↔
      w.Knows node.scope node.id ∧ (∀ p ∈ ps, p.Sound w) ∧ ∀ c ∈ js, c.Sound w := by
  constructor
  · rintro ⟨hknown, hformed⟩
    simp only [Criteria.members_mk, Criteria.conditions_mk, List.mem_cons, List.mem_append,
      List.mem_flatMap] at hknown hformed
    exact ⟨hknown _ (.inl rfl),
      fun p hp => ⟨fun m hm => hknown m (.inr (.inl ⟨p, hp, hm⟩)),
        fun q hq => hformed q (.inl ⟨p, hp, hq⟩)⟩,
      fun c hc => ⟨fun m hm => hknown m (.inr (.inr ⟨c, hc, hm⟩)),
        fun q hq => hformed q (.inr ⟨c, hc, hq⟩)⟩⟩
  · rintro ⟨hself, hps, hjs⟩
    constructor
    · intro m hm
      simp only [Criteria.members_mk, List.mem_cons, List.mem_append, List.mem_flatMap] at hm
      rcases hm with rfl | ⟨p, hp, hm⟩ | ⟨c, hc, hm⟩
      · exact hself
      · exact (hps p hp).known m hm
      · exact (hjs c hc).known m hm
    · intro q hq
      simp only [Criteria.conditions_mk, List.mem_append, List.mem_flatMap] at hq
      rcases hq with ⟨p, hp, hq⟩ | ⟨c, hc, hq⟩
      · exact (hps p hp).formed q hq
      · exact (hjs c hc).formed q hq

theorem sound_test {head : Predicate.Head} {t : Test} :
    (Predicate.test head t).Sound w ↔ head.target.isSome ∧ t.Filled := by
  constructor
  · intro h
    exact h.formed (.test head t) (by simp)
  · intro h
    refine ⟨by simp, fun q hq => ?_⟩
    obtain rfl := List.mem_singleton.mp (Predicate.conditions_test .. ▸ hq)
    exact h

theorem sound_existence {head : Predicate.Head} {negated : Bool} {query : Criteria} :
    (Predicate.existence head negated query).Sound w ↔ query.Sound w := by
  constructor
  · rintro ⟨hknown, hformed⟩
    exact ⟨by simpa using hknown, fun q hq => hformed q (by simp [hq])⟩
  · rintro ⟨hknown, hformed⟩
    refine ⟨by simpa using hknown, fun q hq => ?_⟩
    rcases List.mem_cons.mp (Predicate.conditions_existence .. ▸ hq) with rfl | hq
    · trivial
    · exact hformed q hq

theorem sound_subquery {head : Predicate.Head} {op : SubqueryOp} {query : Criteria} :
    (Predicate.subquery head op query).Sound w ↔ head.target.isSome ∧ query.Sound w := by
  constructor
  · rintro ⟨hknown, hformed⟩
    have hself := hformed (.subquery head op query) (by simp)
    exact ⟨hself, by simpa using hknown, fun q hq => hformed q (by simp [hq])⟩
  · rintro ⟨htarget, hknown, hformed⟩
    refine ⟨by simpa using hknown, fun q hq => ?_⟩
    rcases List.mem_cons.mp (Predicate.conditions_subquery .. ▸ hq) with rfl | hq
    · exact htarget
    · exact hformed q hq

theorem sound_nested {head : Predicate.Head} {negated : Bool} {children : List Predicate} :
    (Predicate.nested head negated children).Sound w ↔ ∀ p ∈ children, p.Sound w := by
  constructor
  · rintro ⟨hknown, hformed⟩ p hp
    refine ⟨fun m hm => hknown m ?_, fun q hq => hformed q ?_⟩
    · rw [Predicate.members_nested]
      exact List.mem_flatMap.mpr ⟨p, hp, hm⟩
    · rw [Predicate.conditions_nested]
      exact List.mem_cons_of_mem _ (List.mem_flatMap.mpr ⟨p, hp, hq⟩)
  · intro h
    constructor
    · intro m hm
      obtain ⟨p, hp, hm⟩ := List.mem_flatMap.mp (Predicate.members_nested .. ▸ hm)
      exact (h p hp).known m hm
    · intro q hq
      rcases List.mem_cons.mp (Predicate.conditions_nested .. ▸ hq) with rfl | hq
      · trivial
      · obtain ⟨p, hp, hq⟩ := List.mem_flatMap.mp hq
        exact (h p hp).formed q hq

theorem sound_parts :
    (∀ c : Criteria, c.Sound w → (∀ m ∈ c.members, m.Sound w) ∧ ∀ p ∈ c.conditions, p.Sound w) ∧
    ∀ p : Predicate, p.Sound w → (∀ m ∈ p.members, m.Sound w) ∧ ∀ q ∈ p.conditions, q.Sound w := by
  apply tree_induction
  case criteria =>
    intro node ps js hp hj h
    obtain ⟨-, hps, hjs⟩ := sound_mk.mp h
    simp only [Criteria.members_mk, Criteria.conditions_mk, List.mem_cons, List.mem_append,
      List.mem_flatMap]
    constructor
    · rintro m (rfl | ⟨p, hmem, hm⟩ | ⟨c, hc, hm⟩)
      · exact h
      · exact (hp p hmem (hps p hmem)).1 m hm
      · exact (hj c hc (hjs c hc)).1 m hm
    · rintro q (⟨p, hmem, hq⟩ | ⟨c, hc, hq⟩)
      · exact (hp p hmem (hps p hmem)).2 q hq
      · exact (hj c hc (hjs c hc)).2 q hq
  case test =>
    intro head t h
    simpa using h
  case existence =>
    intro head negated query hq h
    simpa [h] using hq (sound_existence.mp h)
  case subquery =>
    intro head op query hq h
    simpa [h] using hq (sound_subquery.mp h).2
  case nested =>
    intro head negated children hc h
    have hchildren := sound_nested.mp h
    simp only [Predicate.members_nested, Predicate.conditions_nested, List.mem_cons, List.mem_flatMap]
    constructor
    · rintro m ⟨p, hp, hm⟩
      exact (hc p hp (hchildren p hp)).1 m hm
    · rintro q (rfl | ⟨p, hp, hq⟩)
      · exact h
      · exact (hc p hp (hchildren p hp)).2 q hq

theorem bindOwners_eq_map (id : CriteriaId) (ps : List Predicate) :
    Predicate.bindOwners id ps = ps.map (Predicate.bindOwner id) := by
  induction ps with
  | nil => rfl
  | cons p ps ih => rw [Predicate.bindOwners, ih, List.map_cons]

theorem members_bindOwner (id : CriteriaId) (p : Predicate) : (p.bindOwner id).members = p.members := by
  revert p
  refine (tree_induction (C := fun _ => True) ?_ ?_ ?_ ?_ ?_).2
  case refine_5 =>
    intro head negated children hc
    rw [Predicate.bindOwner, bindOwners_eq_map, Predicate.members_nested, Predicate.members_nested,
      List.flatMap_map, List.flatMap_congr hc]
  all_goals simp [Predicate.bindOwner]

theorem members_own (head : Condition.Head) (p : Predicate) : (head.own p).members = p.members := by
  unfold Condition.Head.own
  cases head.owner with
  | none => rfl
  | some owner => exact members_bindOwner owner.id p

theorem members_build {entities : EntityLookup} {c : Condition} {p : Predicate}
    (h : c.build entities = .ok p) :
    p.members = c.queries.flatMap Criteria.members ++ c.children.flatMap Predicate.members := by
  obtain ⟨head, body⟩ := c
  obtain ⟨q, hforms, rfl⟩ := Condition.exists_forms_of_build h
  rw [members_own]
  cases hforms with
  | test _ hasks => cases hasks <;> simp [Condition.queries, Condition.children]
  | _ => simp [Condition.queries, Condition.children]

theorem sound_bindOwner (id : CriteriaId) (p : Predicate) : p.Sound w → (p.bindOwner id).Sound w := by
  revert p
  refine (tree_induction (C := fun _ => True) ?_ ?_ ?_ ?_ ?_).2
  case refine_1 => simp
  case refine_2 =>
    intro head t h
    have hformed := sound_test.mp h
    rw [Predicate.bindOwner]
    exact sound_test.mpr hformed
  case refine_3 =>
    intro head negated query _ h
    rw [Predicate.bindOwner]
    exact sound_existence.mpr (sound_existence.mp h)
  case refine_4 =>
    intro head op query _ h
    obtain ⟨htarget, hquery⟩ := sound_subquery.mp h
    rw [Predicate.bindOwner]
    exact sound_subquery.mpr ⟨htarget, hquery⟩
  case refine_5 =>
    intro head negated children hc h
    have h := sound_nested.mp h
    rw [Predicate.bindOwner, bindOwners_eq_map]
    refine sound_nested.mpr fun p hp => ?_
    obtain ⟨q, hq, rfl⟩ := List.mem_map.mp hp
    exact hc q hq (h q hq)

theorem sound_own {p : Predicate} (h : p.Sound w) (head : Condition.Head) : (head.own p).Sound w := by
  unfold Condition.Head.own
  cases head.owner with
  | none => exact h
  | some owner => exact sound_bindOwner owner.id p h

theorem ne_nil_of_collection {value : Option Value} {values : List Value}
    (h : collection value = .ok values) : values ≠ [] := by
  unfold collection at h
  split at h
  · cases h
  · cases h
  · split at h
    · cases h
    · next hne => exact Except.ok.inj h ▸ hne

theorem filled_of_asks {entities : EntityLookup} {body : Condition.Body} {t : Test}
    (h : body.Asks entities t) : t.Filled := by
  cases h with
  | range hvs => exact ne_nil_of_collection hvs
  | _ => trivial

theorem sound_build {entities : EntityLookup} {c : Condition} {p : Predicate}
    (hqueries : ∀ q ∈ c.queries, q.Sound w) (hchildren : ∀ q ∈ c.children, q.Sound w)
    (h : c.build entities = .ok p) : p.Sound w := by
  obtain ⟨head, body⟩ := c
  obtain ⟨q, hforms, rfl⟩ := Condition.exists_forms_of_build h
  refine sound_own ?_ head
  cases hforms with
  | test _ hasks => exact sound_test.mpr ⟨by simp, filled_of_asks hasks⟩
  | @template _ args column _ _ =>
      have hfilled : (Test.template args column).Filled := trivial
      exact sound_test.mpr ⟨rfl, hfilled⟩
  | existence => exact sound_existence.mpr (hqueries _ (by simp [Condition.queries]))
  | subquery _ => exact sound_subquery.mpr ⟨by simp, hqueries _ (by simp [Condition.queries])⟩
  | nested _ => exact sound_nested.mpr hchildren

variable {c : Criteria}

theorem sound_mapNode {f : Node → Node} (hscope : (f c.node).scope = c.scope) (hid : (f c.node).id = c.id)
    (h : c.Sound w) : (c.mapNode f).Sound w := by
  obtain ⟨node, ps, js⟩ := c
  obtain ⟨hself, hps, hjs⟩ := sound_mk.mp h
  refine sound_mk.mpr ⟨?_, hps, hjs⟩
  rw [hscope, hid]
  exact hself

theorem sound_push {p : Predicate} (h : c.Sound w) (hp : p.Sound w) : (c.push p).Sound w := by
  obtain ⟨node, ps, js⟩ := c
  obtain ⟨hself, hps, hjs⟩ := sound_mk.mp h
  refine sound_mk.mpr ⟨hself, fun q hq => ?_, hjs⟩
  rcases List.mem_append.mp hq with hq | hq
  · exact hps q hq
  · obtain rfl := List.mem_singleton.mp hq
    exact sound_bindOwner _ p hp

theorem sound_join {participant : Criteria} (h : c.Sound w) (hp : participant.Sound w) :
    (c.join participant).Sound w := by
  obtain ⟨node, ps, js⟩ := c
  obtain ⟨hself, hps, hjs⟩ := sound_mk.mp h
  refine sound_mk.mpr ⟨hself, hps, fun d hd => ?_⟩
  rcases List.mem_append.mp hd with hd | hd
  · exact hjs d hd
  · obtain rfl := List.mem_singleton.mp hd
    exact hp

theorem sound_fresh {scope : ScopeId} {id : CriteriaId} (entity : Entity) (parent : Option CriteriaId)
    (h : w.Knows scope id) : (Criteria.fresh scope id entity parent).Sound w :=
  sound_mk.mpr ⟨h, by simp, by simp⟩

theorem sound_scratch (h : c.Sound w) : c.scratch.Sound w := by
  obtain ⟨node, ps, js⟩ := c
  exact sound_fresh _ _ (sound_mk.mp h).1

theorem sound_add {entities : EntityLookup} {a : Addition} {d : Criteria} (h : c.Sound w)
    (hqueries : ∀ q ∈ a.queries, q.Sound w) (hchildren : ∀ q ∈ a.children, q.Sound w)
    (hadd : c.add entities a = .ok d) : d.Sound w := by
  rcases add_cases hadd with ⟨p, rfl, ⟨condition, rfl, hp⟩ | rfl⟩ | ⟨f, rfl, hadds⟩
  · exact sound_push h (sound_build (c := condition.adopt c.owner) hqueries hchildren hp)
  · exact sound_push h (hchildren p List.mem_cons_self)
  · exact sound_mapNode hadds.scope hadds.id h

end Sound

end QueryCriteria
