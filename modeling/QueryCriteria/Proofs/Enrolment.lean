import QueryCriteria.Proofs.FreezeProtocol
import QueryCriteria.Proofs.Modelled
import QueryCriteria.Proofs.Rebinding
import QueryCriteria.Proofs.Recording

namespace QueryCriteria

open QueryCriteria.Model QueryCriteria.Metrics

namespace Node

def slot (n : Node) : Scope.Slot :=
  { entity := n.entity, parent := n.parent }

def Copies (n copy : Node) : Prop :=
  copy = { n with id := copy.id, parent := copy.parent }

structure Copied (next : Nat) (ms ns : List Node) : Prop where
  copies : List.Forall₂ Copies ms ns
  ids : ns.map Node.id = (List.range' next ms.length).map CriteriaId.mk

namespace Copied

variable {next : Nat} {ms ns ms' ns' : List Node}

theorem nil : Copied next [] [] where
  copies := .nil
  ids := rfl

theorem append (h : Copied next ms ns) (k : Copied (next + ms.length) ms' ns') :
    Copied next (ms ++ ms') (ns ++ ns') where
  copies := List.rel_append h.copies k.copies
  ids := by
    rw [List.map_append, h.ids, k.ids, List.length_append, ← List.range'_append_1, List.map_append]

theorem length_eq (h : Copied next ms ns) : ns.length = ms.length :=
  h.copies.length_eq.symm

theorem nodup (h : Copied next ms ns) : (ns.map Node.id).Nodup := by
  rw [h.ids]
  exact List.Nodup.map (fun _ _ heq => CriteriaId.mk.inj heq) List.nodup_range'

theorem index_getElem (h : Copied next ms ns) {i : Nat} (hi : i < ns.length) :
    ns[i].id.index = next + i := by
  have hid : (ns.map Node.id)[i]? = some ns[i].id := by simp [hi]
  rw [h.ids, List.getElem?_map, List.getElem?_range' (h.length_eq ▸ hi)] at hid
  have hindex := congrArg (Option.map CriteriaId.index) hid
  simpa using hindex.symm

end Copied

end Node

theorem nodes_copied_mk (node : Node) (ps : List Predicate) (js : List Criteria) :
    (Criteria.mk node ps js).copied.map Criteria.node =
      node :: (js.flatMap (fun c => c.copied.map Criteria.node) ++
        ps.flatMap fun p => p.copied.map Criteria.node) := by
  rw [Criteria.copied, copiedJoins_eq_flatMap, copiedPredicates_eq_flatMap, List.map_cons, List.map_append,
    List.map_flatMap, List.map_flatMap]
  rfl

theorem nodes_copied_nested (head : Predicate.Head) (negated : Bool) (children : List Predicate) :
    (Predicate.nested head negated children).copied.map Criteria.node =
      children.flatMap fun p => p.copied.map Criteria.node := by
  rw [Predicate.copied, copiedPredicates_eq_flatMap, List.map_flatMap]

def Scope.enrol (s : Scope) (ns : List Node) : Scope :=
  { s with slots := s.slots ++ ns.map Node.slot }

def Workspace.enrol (w : Workspace) (σ : ScopeId) (ns : List Node) : Workspace where
  scopes := w.scopes.set σ.index ((w.scope σ).enrol ns)
  telemetry := (ns.map fun n => Event.criteriaCreated n.entity.name).foldl Telemetry.record w.telemetry

namespace Scope

variable {s : Scope} {ms ns : List Node}

theorem size_enrol (s : Scope) (ns : List Node) : (s.enrol ns).size = s.size + ns.length := by
  simp [enrol, size]

theorem enrol_enrol (s : Scope) (ms ns : List Node) : (s.enrol ms).enrol ns = s.enrol (ms ++ ns) := by
  simp [enrol]

theorem slot?_enrol_of_some {id : CriteriaId} {slot : Slot} (h : s.slot? id = some slot) (ns : List Node) :
    (s.enrol ns).slot? id = some slot := by
  obtain ⟨hlt, -⟩ := List.getElem?_eq_some_iff.mp h
  rw [slot?, enrol, List.getElem?_append_left hlt]
  exact h

theorem slot?_enrol_of_copied (h : Node.Copied s.size ms ns) {n : Node} (hn : n ∈ ns) :
    (s.enrol ns).slot? n.id = some n.slot := by
  obtain ⟨i, hi, rfl⟩ := List.mem_iff_getElem.mp hn
  rw [slot?, enrol, h.index_getElem hi, size, List.getElem?_append_right (Nat.le_add_right _ _)]
  simp [hi]

theorem slot?_of_copied (h : Node.Copied s.size ms ns) {n : Node} (hn : n ∈ ns) : s.slot? n.id = none := by
  obtain ⟨i, hi, rfl⟩ := List.mem_iff_getElem.mp hn
  rw [slot?, h.index_getElem hi, size]
  exact List.getElem?_eq_none (Nat.le_add_right _ _)

end Scope

namespace Workspace

variable {w : Workspace} {σ : ScopeId}

theorem scope_enrol (hσ : σ.index < w.scopes.length) (ns : List Node) :
    (w.enrol σ ns).scope σ = (w.scope σ).enrol ns := by
  have hset := scope_setScope hσ ((w.scope σ).enrol ns) σ
  rwa [if_pos rfl] at hset

theorem enrol_nil (w : Workspace) (σ : ScopeId) : w.enrol σ [] = w := by
  have hsame : (w.scope σ).enrol [] = w.scope σ := by simp [Scope.enrol]
  have hset := w.setScope_self σ
  rwa [← hsame] at hset

theorem enrol_enrol (hσ : σ.index < w.scopes.length) (ms ns : List Node) :
    (w.enrol σ ms).enrol σ ns = w.enrol σ (ms ++ ns) := by
  have hscope := scope_enrol hσ ms
  simp only [enrol] at hscope ⊢
  rw [hscope, List.set_set, Scope.enrol_enrol, List.map_append, List.foldl_append]

end Workspace

namespace Copying

variable {α β : Type} {σ : ScopeId} {model : Registry} {l l' : List Node}

def Enrols (σ : ScopeId) (model : Registry) (m : Copying α) (l : List Node) (Q : List Node → α → Prop) :
    Prop :=
  ∀ w r a v q, σ.index < w.scopes.length → (w.scope σ).registry = model → m (w, r) = (.ok a, v, q) →
    ∃ ns, v = w.enrol σ ns ∧ Node.Copied (w.scope σ).size l ns ∧ Q ns a

section Rules

variable {step : Copying α} {next : α → Copying β} {Q : List Node → α → Prop} {R : List Node → β → Prop}

theorem enrols_nothing {m : Copying α} (hstays : ∀ w r, (m (w, r)).2 = (w, r)) (h : ∀ a, Q [] a) :
    Enrols σ model m [] Q := by
  intro w r a v q _ _ heq
  have hstate := hstays w r
  rw [heq] at hstate
  obtain ⟨rfl, rfl⟩ := Prod.mk.inj hstate
  exact ⟨[], (Workspace.enrol_nil _ σ).symm, .nil, h a⟩

theorem enrols_pure {a : α} (h : Q [] a) : Enrols σ model (pure a : Copying α) [] Q := by
  intro w r b v q _ _ heq
  obtain ⟨hb, hstate⟩ := Prod.mk.inj heq
  obtain rfl := Except.ok.inj hb
  obtain ⟨rfl, rfl⟩ := Prod.mk.inj hstate
  exact ⟨[], (Workspace.enrol_nil _ σ).symm, .nil, h⟩

theorem enrols_bind (hstep : Enrols σ model step l Q)
    (hnext : ∀ ns a, Q ns a → Enrols σ model (next a) l' fun ns' b => R (ns ++ ns') b) :
    Enrols σ model (step >>= next) (l ++ l') R := by
  intro w r b v q hσ hmodel heq
  rcases hrun : step (w, r) with ⟨result, u, p⟩
  cases result with
  | error e =>
      rw [bind_of_error hrun] at heq
      cases heq
  | ok a =>
      obtain ⟨ns, rfl, hns, hQ⟩ := hstep w r a u p hσ hmodel hrun
      rw [bind_of_ok hrun] at heq
      have hopened : σ.index < (w.enrol σ ns).scopes.length := by simpa [Workspace.enrol] using hσ
      have hmodel' : ((w.enrol σ ns).scope σ).registry = model := by
        rw [Workspace.scope_enrol hσ, ← hmodel]
        rfl
      obtain ⟨ns', rfl, hns', hR⟩ := hnext ns a hQ _ p b v q hopened hmodel' heq
      rw [Workspace.scope_enrol hσ, Scope.size_enrol, hns.length_eq] at hns'
      exact ⟨ns ++ ns', Workspace.enrol_enrol hσ ns ns', hns.append hns', hR⟩

theorem Enrols.imp {Q' : List Node → α → Prop} (h : Enrols σ model step l Q) (hQ : ∀ ns a, Q ns a → Q' ns a) :
    Enrols σ model step l Q' := by
  intro w r a v q hσ hmodel heq
  obtain ⟨ns, hv, hns, ha⟩ := h w r a v q hσ hmodel heq
  exact ⟨ns, hv, hns, hQ ns a ha⟩

theorem enrols_map {f : α → β} (h : Enrols σ model step l fun ns a => R ns (f a)) :
    Enrols σ model (step >>= fun a => pure (f a)) l R := by
  rw [← List.append_nil l]
  exact enrols_bind h fun ns a ha => enrols_pure (by rwa [List.append_nil])

theorem enrols_mapM {k : α → List Node} {copy : α → Copying α} {as : List α}
    (h : ∀ a ∈ as, Enrols σ model (copy a) (k a) fun ns b => ns = k b) :
    Enrols σ model (as.mapM' copy) (as.flatMap k) fun ns bs => ns = bs.flatMap k := by
  induction as with
  | nil => exact enrols_pure rfl
  | cons a as ih =>
      obtain ⟨hhead, htail⟩ := List.forall_mem_cons.mp h
      refine enrols_bind hhead ?_
      rintro _ b rfl
      refine enrols_map ((ih htail).imp ?_)
      rintro _ bs rfl
      exact List.flatMap_cons.symm

end Rules

section Steps

theorem enrols_rename? (id : Option CriteriaId) : Enrols σ model (rename? id) [] fun ns _ => ns = [] := by
  cases id with
  | none => exact enrols_pure rfl
  | some id => exact enrols_nothing (fun _ _ => rfl) fun _ => rfl

theorem enrols_copyHead (head : Predicate.Head) : Enrols σ model (copyHead head) [] fun ns _ => ns = [] :=
  enrols_map (enrols_rename? head.owner)

theorem enrols_copyTest (t : Test) : Enrols σ model (copyTest t) [] fun ns _ => ns = [] := by
  cases t with
  | columnEqual other => exact enrols_nothing (fun _ _ => rfl) fun _ => rfl
  | _ => exact enrols_pure rfl

theorem enrols_copyNode {node : Node} (hscope : node.scope = σ) (hholds : model.Holds node.entity)
    (parent : Option CriteriaId) :
    Enrols σ model (copyNode node parent) [node] fun ns copy => ns = [copy] := by
  subst hscope
  intro w r copy v q _ hmodel heq
  have hmodels : w.Models node := by rwa [Workspace.Models, hmodel]
  rcases (w.scope node.scope).register_cases node.entity parent with ⟨-, -, hregister⟩ | ⟨-, e, hregister⟩
  · rw [copyNode_of_register hmodels hregister] at heq
    cases heq
    have hcopies : node.Copies { node with id := ⟨(w.scope node.scope).size⟩, parent } := rfl
    exact ⟨[_], rfl, ⟨.cons hcopies .nil, rfl⟩, rfl⟩
  · rw [copyNode_of_refusal hmodels hregister] at heq
    cases heq

end Steps

theorem enrols_headed {step : Copying α} {head : Predicate.Head} {make : α → Predicate.Head → Predicate}
    {k : α → List Node} (h : Enrols σ model step l fun ns a => ns = k a)
    (hmake : ∀ a head, (make a head).copied.map Criteria.node = k a) :
    Enrols σ model (step >>= fun a => copyHead head >>= fun head => pure (make a head)) l
      fun ns p => ns = p.copied.map Criteria.node := by
  rw [← List.append_nil l]
  refine enrols_bind h ?_
  rintro _ a rfl
  refine enrols_map ((enrols_copyHead head).imp ?_)
  rintro _ newHead rfl
  rw [hmake, List.append_nil]

theorem enrols_copy :
    (∀ c : Criteria, (∀ m ∈ c.members, m.scope = σ ∧ model.Holds m.node.entity) →
      Enrols σ model (copyCriteria c) (c.copied.map Criteria.node) fun ns d => ns = d.copied.map Criteria.node) ∧
    ∀ p : Predicate, (∀ m ∈ p.members, m.scope = σ ∧ model.Holds m.node.entity) →
      Enrols σ model (copyPredicate p) (p.copied.map Criteria.node) fun ns q => ns = q.copied.map Criteria.node := by
  apply tree_induction
  case criteria =>
    intro node ps js hp hj h
    simp only [Criteria.members_mk, List.mem_cons, List.mem_append, List.mem_flatMap] at h
    obtain ⟨hself, hholds⟩ : node.scope = σ ∧ model.Holds node.entity := h (.mk node ps js) (.inl rfl)
    have hjoins := enrols_mapM fun c hc => hj c hc fun m hm => h m (.inr (.inr ⟨c, hc, hm⟩))
    have hpredicates := enrols_mapM fun p hmem => hp p hmem fun m hm => h m (.inr (.inl ⟨p, hmem, hm⟩))
    rw [copyCriteria, copyJoins_eq_mapM, copyPredicates_eq_mapM]
    simp only [nodes_copied_mk]
    refine enrols_bind (l := []) (enrols_rename? node.parent) ?_
    rintro _ parent rfl
    refine enrols_bind (l := [node]) (enrols_copyNode hself hholds parent) ?_
    rintro _ copy rfl
    refine enrols_bind hjoins ?_
    rintro _ joins rfl
    refine enrols_map (hpredicates.imp ?_)
    rintro _ predicates rfl
    exact (nodes_copied_mk copy predicates joins).symm
  case test =>
    intro head t _
    exact enrols_headed (k := fun _ => []) (enrols_copyTest t) fun _ _ => rfl
  case existence =>
    intro head negated query hq h
    rw [Predicate.members_existence] at h
    exact enrols_headed (hq h) fun _ _ => rfl
  case subquery =>
    intro head op query hq h
    rw [Predicate.members_subquery] at h
    exact enrols_headed (hq h) fun _ _ => rfl
  case nested =>
    intro head negated children hc h
    rw [Predicate.members_nested] at h
    have hchildren := enrols_mapM fun p hmem => hc p hmem fun m hm =>
      h m (List.mem_flatMap.mpr ⟨p, hmem, hm⟩)
    rw [copyPredicate, copyPredicates_eq_mapM, nodes_copied_nested]
    exact enrols_headed hchildren fun copies head => nodes_copied_nested head negated copies

end Copying

theorem copied_perm_members :
    (∀ c : Criteria, c.copied.Perm c.members) ∧ ∀ p : Predicate, p.copied.Perm p.members := by
  apply tree_induction
  case criteria =>
    intro node ps js hp hj
    rw [Criteria.copied, copiedJoins_eq_flatMap, copiedPredicates_eq_flatMap, Criteria.members_mk]
    have hps := List.Perm.flatMap_left ps hp
    have hjs := List.Perm.flatMap_left js hj
    exact ((hjs.append hps).trans List.perm_append_comm).cons _
  case test => simp [Predicate.copied]
  case existence => simp +contextual [Predicate.copied]
  case subquery => simp +contextual [Predicate.copied]
  case nested =>
    intro head negated children hc
    rw [Predicate.copied, copiedPredicates_eq_flatMap, Predicate.members_nested]
    exact List.Perm.flatMap_left children hc

theorem derive_enrols {S : Session} (hS : S.Reachable) {c : Criteria} (hc : c ∈ S.criteria)
    (hscope : ∀ m ∈ c.members, m.scope = c.scope) :
    let w := S.workspace
    ((w.scope c.scope).frozen = true → w.derive c = (.error (.scope .frozen), w)) ∧
    ((w.scope c.scope).frozen = false → (w.scope c.scope).size + c.members.length ≤ Scope.capacity →
      ∃ d v, w.derive c = (.ok d, v) ∧ v = w.enrol c.scope (d.copied.map Criteria.node) ∧
        c.copied.Perm c.members ∧ d.copied.Perm d.members ∧
        List.Forall₂ Node.Copies (c.copied.map Criteria.node) (d.copied.map Criteria.node) ∧
        d.copied.map Criteria.id =
          (List.range' (w.scope c.scope).size c.members.length).map CriteriaId.mk ∧
        (d.members.map Criteria.id).Nodup ∧
        (∀ m ∈ d.members, ¬ w.Knows c.scope m.id ∧ (v.scope c.scope).slot? m.id = some m.node.slot) ∧
        ∀ id slot, (w.scope c.scope).slot? id = some slot → (v.scope c.scope).slot? id = some slot) := by
  intro w
  have hmodels : c.Each w.Models := Session.models_of_reachable hS hc
  have hopen : c.scope.index < w.scopes.length := Workspace.opened_of_entity? hmodels.self
  refine ⟨Workspace.derive_eq_of_frozen (Option.isSome_iff_exists.mpr ⟨_, hmodels.self⟩),
    fun hfree hroom => ?_⟩
  obtain ⟨d, v, hderive⟩ := Workspace.exists_derive hopen hscope hmodels hfree hroom
  obtain ⟨hresult, hstate⟩ := Prod.mk.inj hderive
  obtain ⟨_, rfl, hns, rfl⟩ := Copying.enrols_copy.1 c (Workspace.holds_of_each hscope hmodels) w [] d v _
    hopen rfl (Prod.ext hresult (Prod.ext hstate rfl))
  have hperm := copied_perm_members.1 d
  have hids := hns.ids
  have hnodup := hns.nodup
  rw [List.map_map] at hids hnodup
  rw [List.length_map, (copied_perm_members.1 c).length_eq] at hids
  refine ⟨d, _, hderive, rfl, copied_perm_members.1 c, hperm, hns.copies, hids,
    (hperm.map Criteria.id).nodup_iff.mp hnodup, fun m hm => ?_, fun id slot hslot => ?_⟩
  · have hmem : m.node ∈ d.copied.map Criteria.node := List.mem_map_of_mem (hperm.mem_iff.mpr hm)
    refine ⟨fun hknown => ?_, ?_⟩
    · have hunknown : (w.scope c.scope).slot? m.id = none := Scope.slot?_of_copied hns hmem
      rw [Workspace.Knows, hunknown] at hknown
      cases hknown
    · rw [Workspace.scope_enrol hopen]
      exact Scope.slot?_enrol_of_copied hns hmem
  · rw [Workspace.scope_enrol hopen]
    exact Scope.slot?_enrol_of_some hslot _

def freight : Criteria :=
  ((lone 0).join (lone 1)).push (.nested {} false [.existence {} false (lone 1)])

def depot : Session :=
  ((((shunt (shunt yard)).holding ((lone 0).join (lone 1))).keeping (.existence {} false (lone 1))).keeping
    (.nested {} false [.existence {} false (lone 1)])).holding freight

def heldDepot : Session :=
  { depot with workspace := depot.workspace.setScope ⟨0⟩ ((depot.workspace.scope ⟨0⟩).step .freeze) }

theorem reachable_depot : depot.Reachable := by
  let clone : Condition := .plain .and (.existence false (some (lone 1)))
  let group : Condition := .plain .and (.nested false [.existence {} false (lone 1)])
  have hyard : yard.Reachable := .single (.openScope {} { entities := [wagon] })
  have htwo : (shunt (shunt yard)).Reachable :=
    (hyard.tail (.create "Wagon" none (by decide))).tail (.create "Wagon" none (by decide))
  have hcriteria : (shunt (shunt yard)).criteria = [lone 1, lone 0] := rfl
  have hjoined : ((shunt (shunt yard)).holding ((lone 0).join (lone 1))).Reachable :=
    htwo.tail (.join (by simp [hcriteria]) (by simp [hcriteria]))
  have hqueries : clone.queries ⊆ ((shunt (shunt yard)).holding ((lone 0).join (lone 1))).criteria := by
    simp [clone, Condition.plain, Condition.queries, Session.holding, hcriteria]
  have hbuilt : (shunt (shunt yard)).workspace.buildCondition clone = .ok (.existence {} false (lone 1)) := rfl
  have hclone := hjoined.tail (.build hqueries (List.nil_subset _) hbuilt)
  have hgrouped : (shunt (shunt yard)).workspace.buildCondition group =
      .ok (.nested {} false [.existence {} false (lone 1)]) := rfl
  have hgroup := hclone.tail (.build (List.nil_subset _) (List.Subset.refl _) hgrouped)
  have hchildren : [Predicate.nested {} false [.existence {} false (lone 1)]] ⊆
      [.nested {} false [.existence {} false (lone 1)], .existence {} false (lone 1)] := by simp
  exact hgroup.tail (.add (a := .built (.ok (.nested {} false [.existence {} false (lone 1)])))
    List.mem_cons_self (List.nil_subset _) hchildren rfl)

theorem freight_enrolled :
    freight.copied.map Criteria.id = [⟨0⟩, ⟨1⟩, ⟨1⟩] ∧
      (∃ d v, depot.workspace.derive freight = (.ok d, v) ∧ d.copied.map Criteria.id = [⟨2⟩, ⟨3⟩, ⟨4⟩]) ∧
      heldDepot.workspace.derive freight = (.error (.scope .frozen), heldDepot.workspace) := by
  have hheld : heldDepot.Reachable := reachable_depot.tail (.act (a := .freeze) ⟨0⟩ (by simp))
  obtain ⟨d, v, hderive, -, -, -, -, hids, -⟩ :=
    (derive_enrols reachable_depot (c := freight) List.mem_cons_self (by decide)).2 rfl (by decide)
  exact ⟨rfl, ⟨d, v, hderive, hids⟩,
    (derive_enrols hheld (c := freight) List.mem_cons_self (by decide)).1 rfl⟩

end QueryCriteria
