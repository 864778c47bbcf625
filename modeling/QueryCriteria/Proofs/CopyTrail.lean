import QueryCriteria.Proofs.Derivation
import QueryCriteria.Proofs.Relabelling

namespace QueryCriteria

inductive Visit where
  | node (id : CriteriaId)
  | parent (id : CriteriaId)
  | handle (id : CriteriaId)
deriving DecidableEq, Repr

namespace Visit

def id : Visit → CriteriaId
  | .node id => id
  | .parent id => id
  | .handle id => id

def node? : Visit → Option CriteriaId
  | .node id => some id
  | _ => none

def relabel (ρ : Relabelling) : Visit → Visit
  | .node id => .node (ρ.handle id)
  | .parent id => .parent (ρ.parent id)
  | .handle id => .handle (ρ.handle id)

def nodes (t : List Visit) : List CriteriaId :=
  t.filterMap node?

@[simp]
theorem nodes_node (id : CriteriaId) (t : List Visit) : nodes (.node id :: t) = id :: nodes t := rfl

@[simp]
theorem nodes_parent (id : CriteriaId) (t : List Visit) : nodes (.parent id :: t) = nodes t := rfl

@[simp]
theorem nodes_handle (id : CriteriaId) (t : List Visit) : nodes (.handle id :: t) = nodes t := rfl

@[simp]
theorem nodes_append (t u : List Visit) : nodes (t ++ u) = nodes t ++ nodes u :=
  List.filterMap_append

@[simp]
theorem nodes_map_handle (ids : List CriteriaId) : nodes (ids.map .handle) = [] := by
  induction ids with
  | nil => rfl
  | cons id ids ih => simpa using ih

@[simp]
theorem nodes_map_parent (ids : List CriteriaId) : nodes (ids.map .parent) = [] := by
  induction ids with
  | nil => rfl
  | cons id ids ih => simpa using ih

def follow (r : Renaming) (next : Nat) : List Visit → Renaming
  | [] => r
  | .node id :: t => follow ((id, ⟨next⟩) :: r) (next + 1) t
  | .parent _ :: t => follow r next t
  | .handle _ :: t => follow r next t

def replay (r : Renaming) (next : Nat) : List Visit → List Visit
  | [] => []
  | .node id :: t => .node ⟨next⟩ :: replay ((id, ⟨next⟩) :: r) (next + 1) t
  | .parent id :: t => .parent (r.apply id) :: replay r next t
  | .handle id :: t => .handle (r.apply id) :: replay r next t

theorem follow_append (r : Renaming) (next : Nat) (t u : List Visit) :
    follow r next (t ++ u) = follow (follow r next t) (next + (nodes t).length) u := by
  induction t generalizing r next with
  | nil => rfl
  | cons v t ih =>
      cases v with
      | node id => simp [follow, ih, Nat.add_assoc, Nat.add_comm 1]
      | parent id => exact ih r next
      | handle id => exact ih r next

theorem replay_append (r : Renaming) (next : Nat) (t u : List Visit) :
    replay r next (t ++ u) =
      replay r next t ++ replay (follow r next t) (next + (nodes t).length) u := by
  induction t generalizing r next with
  | nil => rfl
  | cons v t ih =>
      cases v with
      | node id => simp [follow, replay, ih, Nat.add_assoc, Nat.add_comm 1]
      | parent id => exact congrArg _ (ih r next)
      | handle id => exact congrArg _ (ih r next)

end Visit

open Visit (nodes follow replay nodes_append nodes_map_handle nodes_map_parent nodes_node follow_append
  replay_append)

def Predicate.Head.trail (h : Head) : List Visit :=
  h.owner.toList.map .handle

mutual
def Criteria.trail : Criteria → List Visit
  | .mk node ps js =>
      node.parent.toList.map .parent ++ .node node.id :: (trailJoins js ++ trailPredicates ps)

def trailJoins : List Criteria → List Visit
  | [] => []
  | c :: cs => c.trail ++ trailJoins cs

def Predicate.trail : Predicate → List Visit
  | .test head t => t.handles.map .handle ++ head.trail
  | .existence head _ query => query.trail ++ head.trail
  | .subquery head _ query => query.trail ++ head.trail
  | .nested head _ children => trailPredicates children ++ head.trail

def trailPredicates : List Predicate → List Visit
  | [] => []
  | p :: ps => p.trail ++ trailPredicates ps
end

theorem trailPredicates_eq_flatMap (ps : List Predicate) :
    trailPredicates ps = ps.flatMap Predicate.trail := by
  induction ps with
  | nil => rfl
  | cons p ps ih => simp [trailPredicates, ih]

theorem trailJoins_eq_flatMap (js : List Criteria) : trailJoins js = js.flatMap Criteria.trail := by
  induction js with
  | nil => rfl
  | cons c cs ih => simp [trailJoins, ih]

theorem trail_mk (node : Node) (ps : List Predicate) (js : List Criteria) :
    (Criteria.mk node ps js).trail =
      node.parent.toList.map .parent ++
        .node node.id :: (js.flatMap Criteria.trail ++ ps.flatMap Predicate.trail) := by
  rw [Criteria.trail, trailPredicates_eq_flatMap, trailJoins_eq_flatMap]

theorem trail_nested (head : Predicate.Head) (negated : Bool) (children : List Predicate) :
    (Predicate.nested head negated children).trail =
      children.flatMap Predicate.trail ++ head.trail := by
  rw [Predicate.trail, trailPredicates_eq_flatMap]

theorem trail_head_relabel (ρ : Relabelling) (head : Predicate.Head) :
    (head.relabel ρ).trail = head.trail.map (Visit.relabel ρ) := by
  cases h : head.owner <;>
    simp [Predicate.Head.trail, Predicate.Head.relabel, h, Visit.relabel]

theorem trail_relabel (ρ : Relabelling) :
    (∀ c : Criteria, (c.relabel ρ).trail = c.trail.map (Visit.relabel ρ)) ∧
    ∀ p : Predicate, (p.relabel ρ).trail = p.trail.map (Visit.relabel ρ) := by
  have hhead := trail_head_relabel ρ
  apply tree_induction
  case criteria =>
    intro node ps js hp hj
    simp only [relabel_mk, trail_mk, List.map_append, List.map_cons, List.map_flatMap,
      List.flatMap_map, List.flatMap_congr hp, List.flatMap_congr hj]
    cases hparent : node.parent <;> simp [Node.relabel, hparent, Visit.relabel]
  case test =>
    intro head t
    rw [relabel_test, Predicate.trail, Predicate.trail, hhead, List.map_append]
    cases t <;> rfl
  case existence =>
    intro head negated query hq
    simp [Predicate.trail, hhead, hq]
  case subquery =>
    intro head op query hq
    simp [Predicate.trail, hhead, hq]
  case nested =>
    intro head negated children hc
    simp only [relabel_nested, trail_nested, hhead, List.map_append, List.map_flatMap,
      List.flatMap_map, List.flatMap_congr hc]

theorem nodes_flatMap {α : Type} (l : List α) (trail : α → List Visit) :
    nodes (l.flatMap trail) = l.flatMap fun a => nodes (trail a) := by
  simp [nodes, List.filterMap_flatMap]

theorem nodes_trail_perm :
    (∀ c : Criteria, (nodes c.trail).Perm (c.members.map Criteria.id)) ∧
    ∀ p : Predicate, (nodes p.trail).Perm (p.members.map Criteria.id) := by
  apply tree_induction
  case criteria =>
    intro node ps js hp hj
    have hps := List.Perm.flatMap_left ps hp
    have hjs := List.Perm.flatMap_left js hj
    rw [trail_mk, nodes_append, nodes_map_parent, nodes_node, nodes_append, nodes_flatMap,
      nodes_flatMap, Criteria.members_mk, List.map_cons, List.map_append, List.map_flatMap,
      List.map_flatMap]
    exact (List.perm_append_comm.trans (hps.append hjs)).cons _
  case test => simp [Predicate.trail, Predicate.Head.trail]
  case existence =>
    intro head negated query hq
    simpa [Predicate.trail, Predicate.Head.trail] using hq
  case subquery =>
    intro head op query hq
    simpa [Predicate.trail, Predicate.Head.trail] using hq
  case nested =>
    intro head negated children hc
    have hchildren := List.Perm.flatMap_left children hc
    simpa [trail_nested, nodes_flatMap, Predicate.Head.trail, List.map_flatMap] using hchildren

def Scope.enlarged (s : Scope) (entity : Model.Entity) (parent : Option CriteriaId) : Scope :=
  { s with slots := s.slots ++ [{ entity, parent }] }

theorem Scope.register_cases (s : Scope) (entity : Model.Entity) (parent : Option CriteriaId) :
    (s.frozen = false ∧ s.size < capacity ∧
        s.register entity parent = .ok (⟨s.size⟩, s.enlarged entity parent)) ∨
      ¬ (s.frozen = false ∧ s.size < capacity) ∧ ∃ e, s.register entity parent = .error e := by
  cases hfrozen : s.frozen with
  | true => exact .inr ⟨by simp, .frozen, by simp [register, hfrozen]⟩
  | false =>
      by_cases hfull : capacity ≤ s.size
      · exact .inr ⟨by simp [hfull], .exhausted, by simp [register, hfrozen, hfull]⟩
      · have hroom := Nat.lt_of_not_le hfull
        exact .inl ⟨rfl, hroom, by simp [register, hfrozen, hfull, enlarged]⟩

section Tracks

variable {α β : Type}

structure Grown (σ : ScopeId) (count : Nat) (w v : Workspace) : Prop where
  opened : v.scopes.length = w.scopes.length
  slots : ∃ slots : List Scope.Slot, slots.length = count ∧ (∀ slot ∈ slots, slot.aliasName = none) ∧
    v.scope σ = { w.scope σ with slots := (w.scope σ).slots ++ slots }
  room : count = 0 ∨ (v.scope σ).size ≤ Scope.capacity

theorem Grown.refl (σ : ScopeId) (w : Workspace) : Grown σ 0 w w where
  opened := rfl
  slots := ⟨[], rfl, by simp, by simp⟩
  room := .inl rfl

theorem Grown.size {σ : ScopeId} {count : Nat} {w v : Workspace} (h : Grown σ count w v) :
    (v.scope σ).size = (w.scope σ).size + count := by
  obtain ⟨slots, rfl, -, hscope⟩ := h.slots
  simp [hscope, Scope.size]

theorem Grown.trans {σ : ScopeId} {m n : Nat} {u v w : Workspace} (h : Grown σ m u v)
    (k : Grown σ n v w) : Grown σ (m + n) u w where
  opened := k.opened.trans h.opened
  slots := by
    obtain ⟨slots, hlength, hbare, hscope⟩ := h.slots
    obtain ⟨more, hlength', hbare', hscope'⟩ := k.slots
    refine ⟨slots ++ more, by simp [hlength, hlength'], ?_, ?_⟩
    · exact List.forall_mem_append.mpr ⟨hbare, hbare'⟩
    · simp [hscope', hscope]
  room := by
    have hsize := k.size
    have hroom := h.room
    have hroom' := k.room
    omega

def Copying.Tracks (σ : ScopeId) (model : Model.Registry) (t : List Visit) (m : Copying α)
    (Q : List Visit → α → Prop) : Prop :=
  ∀ (w : Workspace) (r : Renaming), σ.index < w.scopes.length → (w.scope σ).registry = model →
    ((w.scope σ).frozen = false → (w.scope σ).size + (nodes t).length ≤ Scope.capacity →
      ∃ a, (m (w, r)).1 = .ok a) ∧
    ∀ a v q, m (w, r) = (.ok a, v, q) →
      q = follow r (w.scope σ).size t ∧ Grown σ (nodes t).length w v ∧
        Q (replay r (w.scope σ).size t) a

namespace Copying

variable {σ : ScopeId} {model : Model.Registry} {t u : List Visit} {Q : List Visit → α → Prop}
  {R : List Visit → β → Prop}

theorem tracks_pure {a : α} (h : Q [] a) : Tracks σ model [] (pure a : Copying α) Q := by
  intro w r _ _
  refine ⟨fun _ _ => ⟨a, rfl⟩, ?_⟩
  intro b v q heq
  cases heq
  exact ⟨rfl, .refl σ w, h⟩

theorem tracks_bind {step : Copying α} {next : α → Copying β} (hstep : Tracks σ model t step Q)
    (hnext : ∀ es a, Q es a → Tracks σ model u (next a) fun es' b => R (es ++ es') b) :
    Tracks σ model (t ++ u) (step >>= next) R := by
  intro w r hopen hmodel
  obtain ⟨htotal, hspec⟩ := hstep w r hopen hmodel
  have hcount : (nodes (t ++ u)).length = (nodes t).length + (nodes u).length := by simp
  rcases hrun : step (w, r) with ⟨result, v, q⟩
  rw [hrun] at htotal
  rw [hcount]
  cases result with
  | error e =>
      rw [bind_of_error hrun]
      constructor
      · intro hfree hroom
        obtain ⟨a, ha⟩ := htotal hfree (by omega)
        cases ha
      · intro b x y heq
        cases heq
  | ok a =>
      rw [bind_of_ok hrun]
      obtain ⟨rfl, hgrown, hQ⟩ := hspec a v q hrun
      have hopened : σ.index < v.scopes.length := hgrown.opened ▸ hopen
      have hsize := hgrown.size
      obtain ⟨slots, -, -, hscope⟩ := hgrown.slots
      have hmodel' : (v.scope σ).registry = model := by rw [hscope, ← hmodel]
      obtain ⟨htotal', hspec'⟩ := hnext _ a hQ v (follow r (w.scope σ).size t) hopened hmodel'
      constructor
      · intro hfree hroom
        exact htotal' (by rw [hscope]; exact hfree) (by omega)
      · intro b x y heq
        obtain ⟨rfl, hgrown', hR⟩ := hspec' b x y heq
        rw [hsize] at hR
        rw [follow_append, replay_append, hsize]
        exact ⟨rfl, hgrown.trans hgrown', hR⟩

structure Matches (relabel : Relabelling → α → α) (t : List Visit) (a : α) (es : List Visit) (b : α) :
    Prop where
  length : es.length = t.length
  relabel : ∀ ρ ρ', relabel ρ b = relabel ρ' a ↔
    es.map (Visit.relabel ρ) = t.map (Visit.relabel ρ')

theorem map_append_eq_iff {ρ ρ' : Relabelling} {es es' t u : List Visit} (h : es.length = t.length) :
    (es ++ es').map (Visit.relabel ρ) = (t ++ u).map (Visit.relabel ρ') ↔
      es.map (Visit.relabel ρ) = t.map (Visit.relabel ρ') ∧
        es'.map (Visit.relabel ρ) = u.map (Visit.relabel ρ') := by
  rw [List.map_append, List.map_append]
  constructor
  · intro heq
    exact List.append_inj heq (by simp [h])
  · rintro ⟨hes, hes'⟩
    rw [hes, hes']

theorem Matches.pair {γ δ : Type} {relabel : Relabelling → α → α} {relabel' : Relabelling → γ → γ}
    {relabels : Relabelling → δ → δ} {a b : α} {a' b' : γ} {x y : δ} {es es' : List Visit}
    (h : Matches relabel t a es b) (h' : Matches relabel' u a' es' b')
    (hrelabels : ∀ ρ ρ', relabels ρ y = relabels ρ' x ↔
      relabel ρ b = relabel ρ' a ∧ relabel' ρ b' = relabel' ρ' a') :
    Matches relabels (t ++ u) x (es ++ es') y where
  length := by simp [h.length, h'.length]
  relabel ρ ρ' := by rw [hrelabels, h.relabel, h'.relabel, ← map_append_eq_iff h.length]

theorem tracks_mapM {relabel : Relabelling → α → α} {trail : α → List Visit} {copy : α → Copying α}
    {as : List α} (h : ∀ a ∈ as, Tracks σ model (trail a) (copy a) (Matches relabel (trail a) a)) :
    Tracks σ model (as.flatMap trail) (as.mapM' copy)
      (Matches (fun ρ => List.map (relabel ρ)) (as.flatMap trail) as) := by
  induction as with
  | nil => exact tracks_pure ⟨rfl, by simp⟩
  | cons a as ih =>
      have htail := ih fun a ha => h a (List.mem_cons_of_mem _ ha)
      rw [List.flatMap_cons]
      refine tracks_bind (h a List.mem_cons_self) fun es b hb => ?_
      rw [← List.append_nil (as.flatMap trail)]
      refine tracks_bind htail fun es' bs hbs => tracks_pure ?_
      rw [List.append_nil, List.append_nil]
      exact hb.pair hbs fun ρ ρ' => by simp

section Steps

structure Reading (visit : CriteriaId → Visit) : Prop where
  nodes : ∀ id, nodes [visit id] = []
  follow : ∀ r next id, follow r next [visit id] = r
  replay : ∀ r next id, replay r next [visit id] = [visit (Renaming.apply r id)]

theorem reading_handle : Reading .handle :=
  ⟨fun _ => rfl, fun _ _ _ => rfl, fun _ _ _ => rfl⟩

theorem reading_parent : Reading .parent :=
  ⟨fun _ => rfl, fun _ _ _ => rfl, fun _ _ _ => rfl⟩

theorem tracks_rename {visit : CriteriaId → Visit} (hv : Reading visit) (id : CriteriaId) :
    Tracks σ model [visit id] (rename id) fun es id' => es = [visit id'] := by
  intro w r _ _
  refine ⟨fun _ _ => ⟨_, rfl⟩, ?_⟩
  intro id' v q heq
  cases heq
  rw [hv.nodes, hv.follow, hv.replay]
  exact ⟨rfl, .refl σ w, rfl⟩

theorem tracks_rename? {visit : CriteriaId → Visit} (hv : Reading visit) (id : Option CriteriaId) :
    Tracks σ model (id.toList.map visit) (rename? id) fun es id' =>
      es = id'.toList.map visit ∧ id'.isSome = id.isSome := by
  cases id with
  | none => exact tracks_pure ⟨rfl, rfl⟩
  | some id =>
      have hsome : Tracks σ model ([visit id] ++ []) (rename id >>= fun id' => pure (some id'))
          fun es id' => es = id'.toList.map visit ∧ id'.isSome = (some id).isSome :=
        tracks_bind (tracks_rename hv id) fun es id' hes => tracks_pure ⟨by simp [hes], rfl⟩
      exact hsome

theorem matches_toList {visit : CriteriaId → Visit} {f : Relabelling → CriteriaId → CriteriaId}
    (hv : ∀ ρ id, Visit.relabel ρ (visit id) = visit (f ρ id)) (hinj : Function.Injective visit)
    {id id' : Option CriteriaId} (h : id'.isSome = id.isSome) :
    Matches (fun ρ => Option.map (f ρ)) (id.toList.map visit) id (id'.toList.map visit) id' := by
  constructor
  · cases id <;> cases id' <;> simp_all
  · intro ρ ρ'
    cases id <;> cases id' <;> simp_all [hinj.eq_iff]

theorem matches_node (id id' : CriteriaId) :
    Matches Relabelling.handle [.node id] id [.node id'] id' :=
  ⟨rfl, fun ρ ρ' => by simp [Visit.relabel]⟩

theorem tracks_copyHead (head : Predicate.Head) :
    Tracks σ model head.trail (copyHead head) (Matches Predicate.Head.relabel head.trail head) := by
  rw [← List.append_nil head.trail]
  refine tracks_bind (tracks_rename? reading_handle head.owner) ?_
  rintro es owner ⟨rfl, hsome⟩
  refine tracks_pure ?_
  have howner := matches_toList (f := Relabelling.handle) (fun _ _ => rfl)
    (fun _ _ h => Visit.handle.inj h) hsome
  constructor
  · simpa [Predicate.Head.trail] using howner.length
  · intro ρ ρ'
    rw [List.append_nil, List.append_nil, Predicate.Head.trail, ← howner.relabel]
    simp [Predicate.Head.relabel]

theorem tracks_copyTest (t : Test) :
    Tracks σ model (t.handles.map .handle) (copyTest t)
      (Matches Test.relabel (t.handles.map .handle) t) := by
  cases t with
  | columnEqual other =>
      refine tracks_bind (t := [.handle other.criteria]) (u := [])
        (tracks_rename reading_handle other.criteria) ?_
      rintro es id rfl
      refine tracks_pure ⟨rfl, fun ρ ρ' => ?_⟩
      simp [Test.relabel, Test.handles, Visit.relabel]
  | _ => exact tracks_pure ⟨rfl, fun ρ ρ' => by simp [Test.relabel, Test.handles]⟩

theorem copyNode_of_register {w : Workspace} {r : Renaming} {node : Node} {parent : Option CriteriaId}
    {id : CriteriaId} {s : Scope} (hmodel : w.Models node)
    (h : (w.scope node.scope).register node.entity parent = .ok (id, s)) :
    copyNode node parent (w, r) = (.ok { node with id, parent },
      (w.setScope node.scope s).record (.criteriaCreated node.entity.name), (node.id, id) :: r) := by
  simp only [copyNode, Workspace.create_of_holds hmodel, Workspace.register, Workspace.within, h]
  rfl

theorem copyNode_of_refusal {w : Workspace} {r : Renaming} {node : Node} {parent : Option CriteriaId}
    {e : ScopeError} (hmodel : w.Models node)
    (h : (w.scope node.scope).register node.entity parent = .error e) :
    copyNode node parent (w, r) = (.error (.scope e), w, r) := by
  simp only [copyNode, Workspace.create_of_holds hmodel, Workspace.register, Workspace.within, h]

theorem tracks_copyNode {node : Node} (hscope : node.scope = σ) (hholds : model.Holds node.entity)
    (parent : Option CriteriaId) :
    Tracks σ model [.node node.id] (copyNode node parent) fun es copy =>
      ∃ id, es = [.node id] ∧ copy = { node with id, parent } := by
  subst hscope
  intro w r hopen hmodel
  have hmodels : w.Models node := by rwa [Workspace.Models, hmodel]
  rcases (w.scope node.scope).register_cases node.entity parent with
    ⟨hfree, hroom, hregister⟩ | ⟨hrefused, e, hregister⟩
  · have hcopy := copyNode_of_register (r := r) hmodels hregister
    have hset := Workspace.scope_setScope hopen ((w.scope node.scope).enlarged node.entity parent)
      node.scope
    rw [if_pos rfl] at hset
    refine ⟨fun _ _ => ⟨_, by rw [hcopy]⟩, fun copy v q heq => ?_⟩
    rw [hcopy] at heq
    cases heq
    refine ⟨rfl, ⟨by simp [Workspace.setScope, Workspace.record], ?_, .inr ?_⟩, ⟨_, rfl, rfl⟩⟩
    · exact ⟨[{ entity := node.entity, parent }], rfl, by simp, hset⟩
    · have hsize : ((w.scope node.scope).enlarged node.entity parent).size ≤ Scope.capacity := by
        simpa [Scope.enlarged, Scope.size] using Nat.succ_le_of_lt hroom
      rwa [← hset] at hsize
  · refine ⟨fun hfree hroom => absurd ⟨hfree, Nat.lt_of_succ_le hroom⟩ hrefused, ?_⟩
    intro copy v q heq
    rw [copyNode_of_refusal hmodels hregister] at heq
    cases heq

end Steps

theorem tracks_copy :
    (∀ c : Criteria, (∀ m ∈ c.members, m.scope = σ ∧ model.Holds m.node.entity) →
      Tracks σ model c.trail (copyCriteria c) (Matches Criteria.relabel c.trail c)) ∧
    ∀ p : Predicate, (∀ m ∈ p.members, m.scope = σ ∧ model.Holds m.node.entity) →
      Tracks σ model p.trail (copyPredicate p) (Matches Predicate.relabel p.trail p) := by
  apply tree_induction
  case criteria =>
    intro node ps js hp hj h
    simp only [Criteria.members_mk, List.mem_cons, List.mem_append, List.mem_flatMap] at h
    obtain ⟨hself, hholds⟩ : node.scope = σ ∧ model.Holds node.entity := h (.mk node ps js) (.inl rfl)
    have hjoins := tracks_mapM fun c hc => hj c hc fun m hm => h m (.inr (.inr ⟨c, hc, hm⟩))
    have hpredicates := tracks_mapM fun p hmem => hp p hmem fun m hm => h m (.inr (.inl ⟨p, hmem, hm⟩))
    -- One step of the copy for each part of the trail: the parent, the criteria itself, the joins and
    -- the predicates.
    rw [copyCriteria, copyJoins_eq_mapM, copyPredicates_eq_mapM, trail_mk]
    refine tracks_bind (tracks_rename? reading_parent node.parent) ?_
    rintro es parent ⟨rfl, hsome⟩
    refine tracks_bind (t := [.node node.id]) (tracks_copyNode hself hholds parent) ?_
    rintro _ _ ⟨id, rfl, rfl⟩
    refine tracks_bind hjoins fun es joins hes => ?_
    rw [← List.append_nil (ps.flatMap Predicate.trail)]
    refine tracks_bind hpredicates fun es' predicates hes' => tracks_pure ?_
    -- What the steps matched is put together in the same order.
    have hparent := matches_toList (f := Relabelling.parent) (fun _ _ => rfl)
      (fun _ _ heq => Visit.parent.inj heq) hsome
    have hnode : Matches Node.relabel (node.parent.toList.map .parent ++ [.node node.id]) node
        (parent.toList.map .parent ++ [.node id]) { node with id, parent } := by
      refine hparent.pair (matches_node node.id id) fun ρ ρ' => ?_
      simp [Node.relabel, and_comm]
    have hheld : Matches (fun ρ => Prod.map (List.map (Criteria.relabel ρ)) (List.map (Predicate.relabel ρ)))
        (js.flatMap Criteria.trail ++ ps.flatMap Predicate.trail) (js, ps) (es ++ es')
        (joins, predicates) := hes.pair hes' fun ρ ρ' => by simp
    have hall : Matches Criteria.relabel _ (.mk node ps js) _
        (.mk { node with id, parent } predicates joins) :=
      hnode.pair hheld fun ρ ρ' => by simp [and_comm]
    simpa using hall
  case test =>
    intro head t _
    rw [Predicate.trail, copyPredicate]
    refine tracks_bind (tracks_copyTest t) fun es copy hes => ?_
    rw [← List.append_nil head.trail]
    refine tracks_bind (tracks_copyHead head) fun es' newHead hes' => tracks_pure ?_
    rw [List.append_nil, List.append_nil]
    exact hes.pair hes' fun ρ ρ' => by simp [and_comm]
  case existence =>
    intro head negated query hq h
    rw [Predicate.trail, copyPredicate]
    refine tracks_bind (hq (by simpa using h)) fun es copy hes => ?_
    rw [← List.append_nil head.trail]
    refine tracks_bind (tracks_copyHead head) fun es' newHead hes' => tracks_pure ?_
    rw [List.append_nil, List.append_nil]
    exact hes.pair hes' fun ρ ρ' => by simp [and_comm]
  case subquery =>
    intro head op query hq h
    rw [Predicate.trail, copyPredicate]
    refine tracks_bind (hq (by simpa using h)) fun es copy hes => ?_
    rw [← List.append_nil head.trail]
    refine tracks_bind (tracks_copyHead head) fun es' newHead hes' => tracks_pure ?_
    rw [List.append_nil, List.append_nil]
    exact hes.pair hes' fun ρ ρ' => by simp [and_comm]
  case nested =>
    intro head negated children hc h
    have hchildren := tracks_mapM fun p hmem => hc p hmem fun m hm => h m (by
      rw [Predicate.members_nested]
      exact List.mem_flatMap.mpr ⟨p, hmem, hm⟩)
    rw [trail_nested, copyPredicate, copyPredicates_eq_mapM]
    refine tracks_bind hchildren fun es copies hes => ?_
    rw [← List.append_nil head.trail]
    refine tracks_bind (tracks_copyHead head) fun es' newHead hes' => tracks_pure ?_
    rw [List.append_nil, List.append_nil]
    exact hes.pair hes' fun ρ ρ' => by simp [and_comm]

end Copying

end Tracks

end QueryCriteria
