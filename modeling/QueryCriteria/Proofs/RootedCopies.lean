import QueryCriteria.Proofs.CopyTrail
import QueryCriteria.Proofs.Lookups
import QueryCriteria.Proofs.Modelled
import QueryCriteria.Proofs.Persistence

namespace QueryCriteria

open QueryCriteria.Model

def Workspace.registered (w : Workspace) (σ : ScopeId) : CriteriaId → Option Entity :=
  fun id => w.entities.entity? ⟨σ, id⟩

variable {σ : ScopeId} {given : Target → Prop} {w v : Workspace}

theorem holds_of_registered (h : (w.scope σ).Modelled) {id : CriteriaId} {entity : Entity}
    (hentity : w.registered σ id = some entity) : (w.scope σ).registry.Holds entity := by
  obtain ⟨slot, hslot, rfl⟩ := Option.map_eq_some_iff.mp hentity
  exact h id slot hslot

theorem reads_entities (h : (w.scope σ).Modelled) : w.entities.Reads σ (w.registered σ) where
  model owner howner := by
    obtain ⟨scope, id⟩ := owner
    obtain rfl : scope = σ := howner
    unfold EntityLookup.model?
    cases hentity : w.entities.entity? ⟨scope, id⟩ with
    | none => exact hentity.symm
    | some entity => exact (holds_of_registered h hentity).trans hentity.symm
  holds _ _ := holds_of_registered h

section Registered

theorem Retained.refl (registered : CriteriaId → Option Entity) : Retained registered registered :=
  fun _ _ h => h

theorem Retained.trans {before between after : CriteriaId → Option Entity} (h : Retained before between)
    (k : Retained between after) : Retained before after :=
  fun id entity hentity => k id entity (h id entity hentity)

theorem retained_of_later (h : (w.scope σ).Later (v.scope σ)) :
    Retained (w.registered σ) (v.registered σ) := by
  intro id entity hentity
  obtain ⟨slot, hslot, rfl⟩ := Option.map_eq_some_iff.mp hentity
  obtain ⟨name, hlast, -⟩ := h.slot id slot hslot
  exact Option.map_eq_some_iff.mpr ⟨_, hlast, rfl⟩

theorem opened_of_registered {id : CriteriaId} {entity : Entity} (h : w.registered σ id = some entity) :
    σ.index < w.scopes.length := by
  obtain ⟨slot, hslot, -⟩ := Option.map_eq_some_iff.mp h
  have hknown : w.Knows σ id := Option.isSome_iff_exists.mpr ⟨slot, hslot⟩
  exact hknown.opened

theorem retained_of_scope (h : σ.index < w.scopes.length → v.scope σ = w.scope σ) :
    Retained (w.registered σ) (v.registered σ) := by
  intro id entity hentity
  have hsame := h (opened_of_registered hentity)
  have hregistered : v.registered σ id = w.registered σ id := by
    simp only [Workspace.registered, Workspace.entities, hsame]
  rwa [hregistered]

theorem retained_openScope (w : Workspace) (config : Config) (registry : Registry) :
    Retained (w.registered σ) ((w.openScope config registry).2.registered σ) :=
  retained_of_scope fun hopen => by
    simp [Workspace.openScope, Workspace.scope, List.getD_eq_getElem?_getD, List.getElem?_append_left hopen]

theorem retained_of_acts {id : ScopeId} {a : Scope.Action} (h : Workspace.Acts w v id a) :
    Retained (w.registered σ) (v.registered σ) := by
  intro own entity hentity
  have hlater : (w.scope σ).Later (v.scope σ) := by
    rw [h.scope σ (opened_of_registered hentity)]
    split
    · exact (w.scope σ).later_step a
    · exact .refl _
  exact retained_of_later hlater own entity hentity

theorem retained_create (id : ScopeId) (name : String) (parent : Option CriteriaId) :
    Retained (w.registered σ) ((w.create id name parent).2.registered σ) := by
  rcases w.create_cases id name parent with ⟨-, hcreate⟩ | ⟨entity, -, hcreate⟩
  · rw [hcreate]
    exact .refl _
  · rw [hcreate]
    exact retained_of_acts (w.acts_register id entity parent)

theorem registered_of_register {entity : Entity} {parent : Option CriteriaId} {c : Criteria}
    (hopen : σ.index < w.scopes.length) (h : w.register σ entity parent = (.ok c, v)) :
    c = .fresh σ c.id entity parent ∧ v.registered σ c.id = some entity := by
  unfold Workspace.register Workspace.within at h
  cases hregister : (w.scope σ).register entity parent with
  | error e => simp [hregister] at h
  | ok pair =>
      obtain ⟨id, s⟩ := pair
      simp only [hregister, Prod.mk.injEq, Except.ok.injEq] at h
      obtain ⟨rfl, rfl⟩ := h
      have hscope := Workspace.scope_setScope hopen s σ
      rw [if_pos rfl] at hscope
      have hslot := Scope.slot?_register hregister
      refine ⟨rfl, Option.map_eq_some_iff.mpr ⟨{ entity, parent }, ?_, rfl⟩⟩
      exact (congrArg (·.slot? id) hscope).trans hslot

theorem registered_of_create {name : String} {parent : Option CriteriaId} {c : Criteria}
    (h : w.create σ name parent = (.ok c, v)) :
    ∃ entity, (w.scope σ).registry.entity? name = some entity ∧ c = .fresh σ c.id entity parent ∧
      v.registered σ c.id = some entity := by
  rcases w.create_cases σ name parent with ⟨-, hcreate⟩ | ⟨entity, hentity, hcreate⟩
  · rw [hcreate] at h
    cases h
  · rw [hcreate] at h
    exact ⟨entity, hentity, registered_of_register (Workspace.opened_of_entity? hentity) h⟩

end Registered

def Renaming.Faithful (registered : CriteriaId → Option Entity) (r : Renaming) : Prop :=
  ∀ x ∈ r, ∃ entity, registered x.1 = some entity ∧ registered x.2 = some entity

namespace Renaming.Faithful

variable {registered after : CriteriaId → Option Entity} {r : Renaming}

theorem grow (hr : r.Faithful registered) (h : Retained registered after) : r.Faithful after := by
  intro x hx
  obtain ⟨entity, hid, hcopy⟩ := hr x hx
  exact ⟨entity, h _ _ hid, h _ _ hcopy⟩

theorem apply (hr : r.Faithful registered) {id : CriteriaId} {entity : Entity}
    (h : registered id = some entity) : registered (r.apply id) = some entity := by
  unfold Renaming.apply
  cases hlookup : r.lookup id with
  | none => exact h
  | some copy =>
      obtain ⟨before, after, hsplit, -⟩ := List.lookup_eq_some_iff.mp hlookup
      obtain ⟨found, hid, hcopy⟩ := hr (id, copy) (by simp [hsplit])
      obtain rfl := Option.some.inj (h.symm.trans hid)
      exact hcopy

end Renaming.Faithful

namespace Copying

def Course.retaining (σ : ScopeId) : Course where
  reaches w v := Retained (w.registered σ) (v.registered σ)
  keeps w r := w.All Scope.Modelled ∧ r.Faithful (w.registered σ)
  refuses _ := True
  refl _ := .refl _
  trans := .trans

section Steps

theorem roots_rename (id : CriteriaId) : Ensures (.retaining σ) w (rename id) fun v copy =>
    ∀ entity, w.registered σ id = some entity → v.registered σ copy = some entity := by
  intro r hr
  refine ⟨.refl _, hr, fun _ _ => trivial, fun copy hcopy entity hentity => ?_⟩
  obtain rfl := Except.ok.inj hcopy
  exact hr.2.apply hentity

theorem roots_rename? (id : Option CriteriaId) : Ensures (.retaining σ) w (rename? id) fun v copy =>
    copy.isSome = id.isSome ∧
      ∀ entity, id.bind (w.registered σ) = some entity → copy.bind (v.registered σ) = some entity := by
  cases id with
  | none => exact ensures_pure ⟨rfl, fun _ h => (by cases h)⟩
  | some id =>
      rw [rename?_some]
      exact ensures_bind (roots_rename id) fun v copy _ hcopy => ensures_pure ⟨rfl, hcopy⟩

theorem roots_copyHead {head : Predicate.Head} (h : head.Grounded (w.registered σ))
    (howner : head.owner.isSome) : Ensures (.retaining σ) w (copyHead head) fun v copy =>
      copy.Grounded (v.registered σ) ∧ copy.owner.isSome ∧ ∀ entity,
        head.owner.bind (w.registered σ) = some entity →
          copy.owner.bind (v.registered σ) = some entity := by
  refine ensures_bind (roots_rename? head.owner) fun v owner _ hrenamed => ensures_pure ?_
  obtain ⟨hsome, hentity⟩ := hrenamed
  have htarget : ({ head with owner } : Predicate.Head).target = head.target := rfl
  exact ⟨h.mono htarget hentity, hsome.trans howner, hentity⟩

theorem roots_copyTest (t : Test) : Ensures (.retaining σ) w (copyTest t) fun v copy =>
    ∀ owner, t.Grounded (w.registered σ) owner → copy.Grounded (v.registered σ) owner := by
  cases t with
  | columnEqual other =>
      refine ensures_bind (roots_rename other.criteria) fun v copy hwv hcopy => ensures_pure ?_
      intro owner ht
      have hother : other.target.BelongsTo (w.registered σ other.criteria) := ht
      exact hother.mono hcopy
  | _ => exact ensures_pure fun _ ht => ht

theorem roots_copyNode {node : Node} (parent : Option CriteriaId)
    (h : node.Rooted σ given (w.registered σ)) :
    Ensures (.retaining σ) w (copyNode node parent) fun v copy => copy.Rooted σ given (v.registered σ) := by
  rintro r ⟨hmodelled, hr⟩
  have hkept := retained_create (σ := σ) (w := w) node.scope node.entity.name parent
  have hlater := Workspace.all_create Scope.invariant_modelled hmodelled node.scope node.entity.name parent
  rcases hcreate : w.create node.scope node.entity.name parent with ⟨result, v⟩
  rw [hcreate] at hkept hlater
  simp only [copyNode, hcreate]
  cases result with
  | error e => exact ⟨hkept, ⟨hlater, hr.grow hkept⟩, fun _ _ => trivial, fun copy hcopy => by cases hcopy⟩
  | ok c =>
      rw [h.scope] at hcreate
      obtain ⟨entity, hentity, hfresh, hcopied⟩ := registered_of_create hcreate
      have hholds := holds_of_registered (hmodelled σ) h.entity
      obtain rfl := Option.some.inj (hholds.symm.trans hentity)
      refine ⟨hkept, ⟨hlater, ?_⟩, fun _ _ => trivial, fun copy hcopy => ?_⟩
      · exact List.forall_mem_cons.mpr ⟨⟨node.entity, hkept _ _ h.entity, hcopied⟩, hr.grow hkept⟩
      · obtain rfl := Except.ok.inj hcopy
        have hsame : c.node.entity = node.entity := by rw [hfresh]; rfl
        rw [hsame]
        exact ⟨h.scope, hcopied, h.selections, h.groups, h.orders⟩

end Steps

theorem carries_rooted : Carries (.retaining σ) (fun w c => c.Rooted σ given (w.registered σ))
    (fun w p => p.Held σ given (w.registered σ)) (fun w _ d => d.Rooted σ given (w.registered σ))
    fun w _ q => q.Held σ given (w.registered σ) where
  criteria _ _ _ hkept hc := hc.grow hkept
  predicate _ _ _ hkept hp := hp.grow hkept
  criteriaCopy _ _ _ _ hkept hd := hd.grow hkept
  predicateCopy _ _ _ _ hkept hq := hq.grow hkept
  parts h := (rooted_mk.mp h).2
  node h := by
    have hnode := (rooted_mk.mp h).1
    refine ensures_bind (roots_rename? _) fun v parent hkept _ => ?_
    refine (roots_copyNode parent (hnode.grow hkept)).imp fun _ copy hcopy u qs ds hlater hqs hds => ?_
    exact rooted_mk.mpr ⟨hcopy.grow hlater, forall_of_forall₂ hqs, forall_of_forall₂ hds⟩
  test h := by
    obtain ⟨⟨hhead, ht⟩, howner⟩ := held_test.mp h
    refine ensures_bind (roots_copyTest _) fun v copy hkept hcopy => ?_
    refine ensures_bind (roots_copyHead (hhead.grow hkept) howner) fun u new hlater hnew => ?_
    obtain ⟨hgrounded, hsome, hentity⟩ := hnew
    exact ensures_pure (held_test.mpr ⟨⟨hgrounded, (hcopy _ ht).mono hlater hentity⟩, hsome⟩)
  existence h := by
    obtain ⟨hhead, howner, hquery⟩ := held_existence.mp h
    exact ⟨hquery, (roots_copyHead hhead howner).imp fun _ _ hnew _ hd =>
      held_existence.mpr ⟨hnew.1, hnew.2.1, hd⟩⟩
  subquery h := by
    obtain ⟨hhead, howner, hquery⟩ := held_subquery.mp h
    exact ⟨hquery, (roots_copyHead hhead howner).imp fun _ _ hnew _ hd =>
      held_subquery.mpr ⟨hnew.1, hnew.2.1, hd⟩⟩
  nested h := by
    obtain ⟨hhead, howner, hchildren⟩ := held_nested.mp h
    exact ⟨hchildren, (roots_copyHead hhead howner).imp fun _ _ hnew _ hqs =>
      held_nested.mpr ⟨hnew.1, hnew.2.1, forall_of_forall₂ hqs⟩⟩

end Copying

namespace Workspace

theorem rooted_derive {c : Criteria} {result : Except CriteriaError Criteria} (hw : w.All Scope.Modelled)
    (hc : c.Rooted σ given (w.registered σ)) (h : w.derive c = (result, v)) :
    Retained (w.registered σ) (v.registered σ) ∧
      ∀ d, result = .ok d → d.Rooted σ given (v.registered σ) := by
  have hroots := Copying.carries_rooted.copy.1 c w hc [] ⟨hw, fun _ hx => by cases hx⟩
  obtain ⟨rfl, rfl⟩ := Prod.mk.inj h
  exact ⟨hroots.1, hroots.2.2.2⟩

end Workspace

end QueryCriteria
