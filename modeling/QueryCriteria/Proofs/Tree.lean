import Mathlib.Data.List.Perm.Basic
import QueryCriteria.Criteria.Tree

namespace QueryCriteria

theorem tree_induction {C : Criteria → Prop} {P : Predicate → Prop}
    (criteria : ∀ node ps js, (∀ p ∈ ps, P p) → (∀ c ∈ js, C c) → C (.mk node ps js))
    (test : ∀ head t, P (.test head t))
    (existence : ∀ head negated query, C query → P (.existence head negated query))
    (subquery : ∀ head op query, C query → P (.subquery head op query))
    (nested : ∀ head negated children, (∀ p ∈ children, P p) → P (.nested head negated children)) :
    (∀ c, C c) ∧ ∀ p, P p := by
  have none_p : ∀ p ∈ ([] : List Predicate), P p := by simp
  have none_c : ∀ c ∈ ([] : List Criteria), C c := by simp
  have cons_p : ∀ p ps, P p → (∀ q ∈ ps, P q) → ∀ q ∈ p :: ps, P q := by
    intro p ps hp hps
    exact List.forall_mem_cons.mpr ⟨hp, hps⟩
  have cons_c : ∀ c cs, C c → (∀ d ∈ cs, C d) → ∀ d ∈ c :: cs, C d := by
    intro c cs hc hcs
    exact List.forall_mem_cons.mpr ⟨hc, hcs⟩
  constructor
  · exact @Criteria.rec C P (fun ps => ∀ p ∈ ps, P p) (fun js => ∀ c ∈ js, C c)
      criteria test existence subquery nested none_p cons_p none_c cons_c
  · exact @Predicate.rec C P (fun ps => ∀ p ∈ ps, P p) (fun js => ∀ c ∈ js, C c)
      criteria test existence subquery nested none_p cons_p none_c cons_c

section Gather

variable {α β : Type}

mutual
def Criteria.gather (f : Criteria → List α) (g : Predicate → List α) : Criteria → List α
  | .mk node ps js => f (.mk node ps js) ++ gatherPredicates f g ps ++ gatherJoins f g js

def gatherJoins (f : Criteria → List α) (g : Predicate → List α) : List Criteria → List α
  | [] => []
  | c :: cs => c.gather f g ++ gatherJoins f g cs

def Predicate.gather (f : Criteria → List α) (g : Predicate → List α) : Predicate → List α
  | .test head t => g (.test head t)
  | .existence head negated query => g (.existence head negated query) ++ query.gather f g
  | .subquery head op query => g (.subquery head op query) ++ query.gather f g
  | .nested head negated children => g (.nested head negated children) ++ gatherPredicates f g children

def gatherPredicates (f : Criteria → List α) (g : Predicate → List α) : List Predicate → List α
  | [] => []
  | p :: ps => p.gather f g ++ gatherPredicates f g ps
end

variable (f : Criteria → List α) (g : Predicate → List α)

theorem gatherPredicates_eq_flatMap (ps : List Predicate) :
    gatherPredicates f g ps = ps.flatMap (·.gather f g) := by
  induction ps with
  | nil => rfl
  | cons p ps ih => simp [gatherPredicates, ih]

theorem gatherJoins_eq_flatMap (js : List Criteria) :
    gatherJoins f g js = js.flatMap (·.gather f g) := by
  induction js with
  | nil => rfl
  | cons c cs ih => simp [gatherJoins, ih]

@[simp]
theorem gather_mk (node : Node) (ps : List Predicate) (js : List Criteria) :
    (Criteria.mk node ps js).gather f g =
      f (.mk node ps js) ++ ps.flatMap (·.gather f g) ++ js.flatMap (·.gather f g) := by
  simp [Criteria.gather, gatherPredicates_eq_flatMap, gatherJoins_eq_flatMap]

@[simp]
theorem gather_test (head : Predicate.Head) (t : Test) :
    (Predicate.test head t).gather f g = g (.test head t) := by
  simp [Predicate.gather]

@[simp]
theorem gather_existence (head : Predicate.Head) (negated : Bool) (query : Criteria) :
    (Predicate.existence head negated query).gather f g =
      g (.existence head negated query) ++ query.gather f g := by
  simp [Predicate.gather]

@[simp]
theorem gather_subquery (head : Predicate.Head) (op : SubqueryOp) (query : Criteria) :
    (Predicate.subquery head op query).gather f g =
      g (.subquery head op query) ++ query.gather f g := by
  simp [Predicate.gather]

@[simp]
theorem gather_nested (head : Predicate.Head) (negated : Bool) (children : List Predicate) :
    (Predicate.nested head negated children).gather f g =
      g (.nested head negated children) ++ children.flatMap (·.gather f g) := by
  simp [Predicate.gather, gatherPredicates_eq_flatMap]

variable {f g}

theorem flatMap_gather (h : α → List β) :
    (∀ c : Criteria, (c.gather f g).flatMap h =
      c.gather (fun c => (f c).flatMap h) fun p => (g p).flatMap h) ∧
    ∀ p : Predicate, (p.gather f g).flatMap h =
      p.gather (fun c => (f c).flatMap h) fun p => (g p).flatMap h := by
  apply tree_induction
  case criteria =>
    intro node ps js hp hj
    simp only [gather_mk, List.flatMap_append, List.flatMap_assoc]
    rw [List.flatMap_congr hp, List.flatMap_congr hj]
  case test => simp
  case existence => simp +contextual
  case subquery => simp +contextual
  case nested =>
    intro head negated children hc
    simp only [gather_nested, List.flatMap_append, List.flatMap_assoc]
    rw [List.flatMap_congr hc]

end Gather

def Criteria.members (c : Criteria) : List Criteria :=
  c.gather (fun c => [c]) fun _ => []

def Predicate.members (p : Predicate) : List Criteria :=
  p.gather (fun c => [c]) fun _ => []

def Criteria.participants (c : Criteria) : List Criteria :=
  c.gather joins fun _ => []

def Predicate.participants (p : Predicate) : List Criteria :=
  p.gather Criteria.joins fun _ => []

def Criteria.conditions (c : Criteria) : List Predicate :=
  c.gather (fun _ => []) fun p => [p]

def Predicate.conditions (p : Predicate) : List Predicate :=
  p.gather (fun _ => []) fun p => [p]

namespace Criteria

@[simp]
theorem members_mk (node : Node) (ps : List Predicate) (js : List Criteria) :
    (mk node ps js).members =
      mk node ps js :: (ps.flatMap Predicate.members ++ js.flatMap members) :=
  gather_mk _ _ node ps js

@[simp]
theorem conditions_mk (node : Node) (ps : List Predicate) (js : List Criteria) :
    (mk node ps js).conditions =
      ps.flatMap Predicate.conditions ++ js.flatMap conditions :=
  gather_mk _ _ node ps js

@[simp]
theorem participants_mk (node : Node) (ps : List Predicate) (js : List Criteria) :
    (mk node ps js).participants =
      js ++ (ps.flatMap Predicate.participants ++ js.flatMap participants) := by
  rw [← List.append_assoc]
  exact gather_mk _ _ node ps js

theorem self_mem_members (c : Criteria) : c ∈ c.members := by
  cases c
  simp

end Criteria

namespace Predicate

@[simp]
theorem members_test (head : Head) (t : Test) : (test head t).members = [] :=
  gather_test _ _ head t

@[simp]
theorem members_existence (head : Head) (negated : Bool) (query : Criteria) :
    (existence head negated query).members = query.members :=
  gather_existence _ _ head negated query

@[simp]
theorem members_subquery (head : Head) (op : SubqueryOp) (query : Criteria) :
    (subquery head op query).members = query.members :=
  gather_subquery _ _ head op query

@[simp]
theorem members_nested (head : Head) (negated : Bool) (children : List Predicate) :
    (nested head negated children).members = children.flatMap members :=
  gather_nested _ _ head negated children

@[simp]
theorem participants_test (head : Head) (t : Test) : (test head t).participants = [] :=
  gather_test _ _ head t

@[simp]
theorem participants_existence (head : Head) (negated : Bool) (query : Criteria) :
    (existence head negated query).participants = query.participants :=
  gather_existence _ _ head negated query

@[simp]
theorem participants_subquery (head : Head) (op : SubqueryOp) (query : Criteria) :
    (subquery head op query).participants = query.participants :=
  gather_subquery _ _ head op query

@[simp]
theorem participants_nested (head : Head) (negated : Bool) (children : List Predicate) :
    (nested head negated children).participants = children.flatMap participants :=
  gather_nested _ _ head negated children

@[simp]
theorem conditions_test (head : Head) (t : Test) : (test head t).conditions = [test head t] :=
  gather_test _ _ head t

@[simp]
theorem conditions_existence (head : Head) (negated : Bool) (query : Criteria) :
    (existence head negated query).conditions =
      existence head negated query :: query.conditions :=
  gather_existence _ _ head negated query

@[simp]
theorem conditions_subquery (head : Head) (op : SubqueryOp) (query : Criteria) :
    (subquery head op query).conditions = subquery head op query :: query.conditions :=
  gather_subquery _ _ head op query

@[simp]
theorem conditions_nested (head : Head) (negated : Bool) (children : List Predicate) :
    (nested head negated children).conditions =
      nested head negated children :: children.flatMap conditions :=
  gather_nested _ _ head negated children

end Predicate

section Gather

variable {α : Type} {f : Criteria → List α} {g : Predicate → List α}

theorem gather_criteria (c : Criteria) : c.gather f (fun _ => []) = c.members.flatMap f := by
  simp [Criteria.members, (flatMap_gather f).1]

theorem mem_gather {a : α} :
    (∀ c : Criteria, a ∈ c.gather f g ↔
      (∃ m ∈ c.members, a ∈ f m) ∨ ∃ p ∈ c.conditions, a ∈ g p) ∧
    ∀ p : Predicate, a ∈ p.gather f g ↔
      (∃ m ∈ p.members, a ∈ f m) ∨ ∃ q ∈ p.conditions, a ∈ g q := by
  apply tree_induction
  case criteria =>
    intro node ps js hp hj
    simp only [gather_mk, List.mem_append, List.mem_flatMap]
    grind [Criteria.members_mk, Criteria.conditions_mk]
  case test => simp
  case existence =>
    intro head negated query hq
    simp [hq]
    grind
  case subquery =>
    intro head op query hq
    simp [hq]
    grind
  case nested =>
    intro head negated children hc
    simp only [gather_nested, List.mem_append, List.mem_flatMap]
    grind [Predicate.members_nested, Predicate.conditions_nested]

theorem gather_sublist :
    (∀ c : Criteria, (∀ m ∈ c.members, (m.gather f g).Sublist (c.gather f g)) ∧
      ∀ p ∈ c.conditions, (p.gather f g).Sublist (c.gather f g)) ∧
    ∀ p : Predicate, (∀ m ∈ p.members, (m.gather f g).Sublist (p.gather f g)) ∧
      ∀ q ∈ p.conditions, (q.gather f g).Sublist (p.gather f g) := by
  have hmem : ∀ {β : Type} {l : List β} {k : β → List α} {b : β}, b ∈ l → (k b).Sublist (l.flatMap k) :=
    fun hb => List.sublist_flatten_of_mem (List.mem_map_of_mem hb)
  apply tree_induction
  case criteria =>
    intro node ps js hp hj
    have hps : ∀ p ∈ ps, (p.gather f g).Sublist ((Criteria.mk node ps js).gather f g) := by
      intro p hp
      rw [gather_mk]
      exact ((hmem hp).trans (List.sublist_append_right _ _)).trans (List.sublist_append_left _ _)
    have hjs : ∀ c ∈ js, (c.gather f g).Sublist ((Criteria.mk node ps js).gather f g) := by
      intro c hc
      rw [gather_mk]
      exact (hmem hc).trans (List.sublist_append_right _ _)
    simp only [Criteria.members_mk, Criteria.conditions_mk, List.mem_cons, List.mem_append,
      List.mem_flatMap]
    constructor
    · rintro m (rfl | ⟨p, hmem, hm⟩ | ⟨c, hc, hm⟩)
      · exact List.Sublist.refl _
      · exact ((hp p hmem).1 m hm).trans (hps p hmem)
      · exact ((hj c hc).1 m hm).trans (hjs c hc)
    · rintro q (⟨p, hmem, hq⟩ | ⟨c, hc, hq⟩)
      · exact ((hp p hmem).2 q hq).trans (hps p hmem)
      · exact ((hj c hc).2 q hq).trans (hjs c hc)
  case test => simp
  case existence =>
    intro head negated query hq
    simp only [gather_existence, Predicate.members_existence, Predicate.conditions_existence,
      List.forall_mem_cons]
    exact ⟨fun m hm => (hq.1 m hm).trans (List.sublist_append_right _ _), List.Sublist.refl _,
      fun q hmem => (hq.2 q hmem).trans (List.sublist_append_right _ _)⟩
  case subquery =>
    intro head op query hq
    simp only [gather_subquery, Predicate.members_subquery, Predicate.conditions_subquery,
      List.forall_mem_cons]
    exact ⟨fun m hm => (hq.1 m hm).trans (List.sublist_append_right _ _), List.Sublist.refl _,
      fun q hmem => (hq.2 q hmem).trans (List.sublist_append_right _ _)⟩
  case nested =>
    intro head negated children hc
    have hchildren : ∀ p ∈ children,
        (p.gather f g).Sublist ((Predicate.nested head negated children).gather f g) := by
      intro p hp
      rw [gather_nested]
      exact (hmem hp).trans (List.sublist_append_right _ _)
    simp only [Predicate.members_nested, Predicate.conditions_nested, List.mem_flatMap,
      List.forall_mem_cons]
    refine ⟨?_, List.Sublist.refl _, ?_⟩
    · rintro m ⟨p, hmem, hm⟩
      exact ((hc p hmem).1 m hm).trans (hchildren p hmem)
    · rintro q ⟨p, hmem, hq⟩
      exact ((hc p hmem).2 q hq).trans (hchildren p hmem)

theorem gather_subset :
    (∀ c : Criteria, (∀ m ∈ c.members, m.gather f g ⊆ c.gather f g) ∧
      ∀ p ∈ c.conditions, p.gather f g ⊆ c.gather f g) ∧
    ∀ p : Predicate, (∀ m ∈ p.members, m.gather f g ⊆ p.gather f g) ∧
      ∀ q ∈ p.conditions, q.gather f g ⊆ p.gather f g :=
  ⟨fun c => ⟨fun m hm => ((gather_sublist.1 c).1 m hm).subset, fun p hp => ((gather_sublist.1 c).2 p hp).subset⟩,
    fun p => ⟨fun m hm => ((gather_sublist.2 p).1 m hm).subset, fun q hq => ((gather_sublist.2 p).2 q hq).subset⟩⟩

end Gather

section Reading

variable {α : Type}

mutual
def Criteria.reading (q j : Criteria → List α) (g : CriteriaId → Predicate → List α) :
    Criteria → List α
  | .mk node ps js => q (.mk node ps js) ++ readJoins q j g js ++ readPredicates q j g node.id ps

def Criteria.joinedReading (q j : Criteria → List α) (g : CriteriaId → Predicate → List α) :
    Criteria → List α
  | .mk node ps js => j (.mk node ps js) ++ readPredicates q j g node.id ps ++ readJoins q j g js

def readJoins (q j : Criteria → List α) (g : CriteriaId → Predicate → List α) : List Criteria → List α
  | [] => []
  | c :: cs => c.joinedReading q j g ++ readJoins q j g cs

def Predicate.reading (q j : Criteria → List α) (g : CriteriaId → Predicate → List α)
    (enclosing : CriteriaId) : Predicate → List α
  | .test head t => g enclosing (.test head t)
  | .existence head negated query => g enclosing (.existence head negated query) ++ query.reading q j g
  | .subquery head op query => g enclosing (.subquery head op query) ++ query.reading q j g
  | .nested head negated children =>
      g enclosing (.nested head negated children) ++ readPredicates q j g enclosing children

def readPredicates (q j : Criteria → List α) (g : CriteriaId → Predicate → List α)
    (enclosing : CriteriaId) : List Predicate → List α
  | [] => []
  | p :: ps => p.reading q j g enclosing ++ readPredicates q j g enclosing ps
end

variable (q j : Criteria → List α) (g : CriteriaId → Predicate → List α) (enclosing : CriteriaId)

theorem readPredicates_eq_flatMap (ps : List Predicate) :
    readPredicates q j g enclosing ps = ps.flatMap (·.reading q j g enclosing) := by
  induction ps with
  | nil => rfl
  | cons p ps ih => simp [readPredicates, ih]

theorem readJoins_eq_flatMap (js : List Criteria) :
    readJoins q j g js = js.flatMap (·.joinedReading q j g) := by
  induction js with
  | nil => rfl
  | cons c cs ih => simp [readJoins, ih]

@[simp]
theorem reading_mk (node : Node) (ps : List Predicate) (js : List Criteria) :
    (Criteria.mk node ps js).reading q j g =
      q (.mk node ps js) ++ js.flatMap (·.joinedReading q j g) ++
        ps.flatMap (·.reading q j g node.id) := by
  simp [Criteria.reading, readPredicates_eq_flatMap, readJoins_eq_flatMap]

@[simp]
theorem joinedReading_mk (node : Node) (ps : List Predicate) (js : List Criteria) :
    (Criteria.mk node ps js).joinedReading q j g =
      j (.mk node ps js) ++ ps.flatMap (·.reading q j g node.id) ++
        js.flatMap (·.joinedReading q j g) := by
  simp [Criteria.joinedReading, readPredicates_eq_flatMap, readJoins_eq_flatMap]

@[simp]
theorem reading_test (head : Predicate.Head) (t : Test) :
    (Predicate.test head t).reading q j g enclosing = g enclosing (.test head t) := by
  simp [Predicate.reading]

@[simp]
theorem reading_existence (head : Predicate.Head) (negated : Bool) (query : Criteria) :
    (Predicate.existence head negated query).reading q j g enclosing =
      g enclosing (.existence head negated query) ++ query.reading q j g := by
  simp [Predicate.reading]

@[simp]
theorem reading_subquery (head : Predicate.Head) (op : SubqueryOp) (query : Criteria) :
    (Predicate.subquery head op query).reading q j g enclosing =
      g enclosing (.subquery head op query) ++ query.reading q j g := by
  simp [Predicate.reading]

@[simp]
theorem reading_nested (head : Predicate.Head) (negated : Bool) (children : List Predicate) :
    (Predicate.nested head negated children).reading q j g enclosing =
      g enclosing (.nested head negated children) ++
        children.flatMap (·.reading q j g enclosing) := by
  simp [Predicate.reading, readPredicates_eq_flatMap]

theorem reading_perm_gather (f : Criteria → List α) (g : Predicate → List α) :
    (∀ c : Criteria, (c.reading f f fun _ => g).Perm (c.gather f g) ∧
      (c.joinedReading f f fun _ => g).Perm (c.gather f g)) ∧
    ∀ (p : Predicate) enclosing, (p.reading f f (fun _ => g) enclosing).Perm (p.gather f g) := by
  apply tree_induction
  case criteria =>
    intro node ps js hp hj
    have hps := List.Perm.flatMap_left ps fun p hmem => hp p hmem node.id
    have hjs := List.Perm.flatMap_left js fun c hc => (hj c hc).2
    simp only [reading_mk, joinedReading_mk, gather_mk, List.append_assoc]
    constructor
    · exact ((hjs.append hps).trans List.perm_append_comm).append_left _
    · exact (hps.append hjs).append_left _
  case test => simp
  case existence =>
    intro head negated query hq enclosing
    simpa using hq.1.append_left _
  case subquery =>
    intro head op query hq enclosing
    simpa using hq.1.append_left _
  case nested =>
    intro head negated children hc enclosing
    simpa using (List.Perm.flatMap_left children fun p hmem => hc p hmem enclosing).append_left _

theorem reading_congr {g' : CriteriaId → Predicate → List α} :
    (∀ c : Criteria, (∀ p ∈ c.conditions, ∀ enclosing, g enclosing p = g' enclosing p) →
      c.reading q j g = c.reading q j g' ∧ c.joinedReading q j g = c.joinedReading q j g') ∧
    ∀ p : Predicate, (∀ r ∈ p.conditions, ∀ enclosing, g enclosing r = g' enclosing r) →
      ∀ enclosing, p.reading q j g enclosing = p.reading q j g' enclosing := by
  apply tree_induction
  case criteria =>
    intro node ps js hp hj h
    simp only [Criteria.conditions_mk, List.mem_append, List.mem_flatMap] at h
    have hps : ps.flatMap (·.reading q j g node.id) = ps.flatMap (·.reading q j g' node.id) :=
      List.flatMap_congr fun p hmem => hp p hmem (fun r hr => h r (.inl ⟨p, hmem, hr⟩)) node.id
    have hjs : js.flatMap (·.joinedReading q j g) = js.flatMap (·.joinedReading q j g') :=
      List.flatMap_congr fun c hc => (hj c hc fun r hr => h r (.inr ⟨c, hc, hr⟩)).2
    simp only [reading_mk, joinedReading_mk, hps, hjs, and_self]
  case test =>
    intro head t h enclosing
    simpa using h _ (by simp) enclosing
  case existence =>
    intro head negated query hq h enclosing
    rw [Predicate.conditions_existence, List.forall_mem_cons] at h
    rw [reading_existence, reading_existence, h.1, (hq h.2).1]
  case subquery =>
    intro head op query hq h enclosing
    rw [Predicate.conditions_subquery, List.forall_mem_cons] at h
    rw [reading_subquery, reading_subquery, h.1, (hq h.2).1]
  case nested =>
    intro head negated children hc h enclosing
    rw [Predicate.conditions_nested, List.forall_mem_cons] at h
    have hchildren := List.flatMap_congr fun p hmem =>
      hc p hmem (fun r hr => h.2 r (List.mem_flatMap.mpr ⟨p, hmem, hr⟩)) enclosing
    rw [reading_nested, reading_nested, h.1, hchildren]

theorem mem_reading {g : Predicate → List α} {a : α} :
    (∀ c : Criteria,
      (a ∈ c.reading (fun _ => []) j (fun _ => g) ↔
        (∃ m ∈ c.participants, a ∈ j m) ∨ ∃ p ∈ c.conditions, a ∈ g p) ∧
      (a ∈ c.joinedReading (fun _ => []) j (fun _ => g) ↔
        a ∈ j c ∨ (∃ m ∈ c.participants, a ∈ j m) ∨ ∃ p ∈ c.conditions, a ∈ g p)) ∧
    ∀ (p : Predicate) enclosing, a ∈ p.reading (fun _ => []) j (fun _ => g) enclosing ↔
      (∃ m ∈ p.participants, a ∈ j m) ∨ ∃ r ∈ p.conditions, a ∈ g r := by
  apply tree_induction
  case criteria =>
    intro node ps js hp hj
    simp only [reading_mk, joinedReading_mk, List.nil_append, List.mem_append, List.mem_flatMap]
    grind [Criteria.participants_mk, Criteria.conditions_mk]
  case test => simp
  case existence =>
    intro head negated query hq enclosing
    simp [hq.1]
    grind
  case subquery =>
    intro head op query hq enclosing
    simp [hq.1]
    grind
  case nested =>
    intro head negated children hc enclosing
    simp only [reading_nested, List.mem_append, List.mem_flatMap]
    grind [Predicate.participants_nested, Predicate.conditions_nested]

end Reading

end QueryCriteria
