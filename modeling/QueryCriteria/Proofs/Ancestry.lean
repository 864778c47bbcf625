import QueryCriteria.Proofs.CopyLogic
import QueryCriteria.Proofs.CopyRules
import QueryCriteria.Proofs.CopyTrail
import QueryCriteria.Proofs.Operations
import QueryCriteria.Proofs.Persistence
import QueryCriteria.Proofs.Soundness

namespace QueryCriteria

open QueryCriteria.Model

namespace Scope

variable {s t : Scope} {id : CriteriaId}

def Ordered (s : Scope) : Prop :=
  ∀ id slot, s.slot? id = some slot → ∀ parent ∈ slot.parent, parent.index < id.index

inductive Ancestry (s : Scope) : CriteriaId → List CriteriaId → Prop
  | root {id : CriteriaId} : s.parentOf id = .ok none → Ancestry s id []
  | child {id parent : CriteriaId} {ids : List CriteriaId} : s.parentOf id = .ok (some parent) →
      Ancestry s parent ids → Ancestry s id (parent :: ids)

theorem parentOf_eq_ok_iff {parent : Option CriteriaId} :
    s.parentOf id = .ok parent ↔ ∃ slot, s.slot? id = some slot ∧ slot.parent = parent := by
  cases h : s.slot? id <;> simp [parentOf, slot, h, Except.map]

theorem entityOf_eq_ok_iff {entity : Entity} :
    s.entityOf id = .ok entity ↔ ∃ slot, s.slot? id = some slot ∧ slot.entity = entity := by
  cases h : s.slot? id <;> simp [entityOf, slot, h, Except.map]

theorem isSome_slot?_iff : (s.slot? id).isSome ↔ id.index < s.size := by
  rw [isSome_slot?, decide_eq_true_iff]

theorem exists_entityOf_iff : (∃ entity, s.entityOf id = .ok entity) ↔ id.index < s.size := by
  rw [← isSome_slot?_iff, Option.isSome_iff_exists]
  simp only [entityOf_eq_ok_iff]
  exact ⟨fun ⟨_, slot, hslot, _⟩ => ⟨slot, hslot⟩, fun ⟨slot, hslot⟩ => ⟨_, slot, hslot, rfl⟩⟩

theorem ordered_fresh (config : Config) (registry : Registry) : (fresh config registry).Ordered := by
  intro id slot hslot
  simp [slot?, fresh] at hslot

theorem Ordered.enlarged (h : s.Ordered) {parent : Option CriteriaId}
    (hparent : ∀ p ∈ parent, (s.slot? p).isSome) (entity : Entity) : (s.enlarged entity parent).Ordered := by
  intro id slot hslot p hp
  rw [slot?, Scope.enlarged] at hslot
  rcases Nat.lt_or_ge id.index s.slots.length with hid | hid
  · rw [List.getElem?_append_left hid] at hslot
    exact h id slot hslot p hp
  · -- The new slot is the last, behind all that may be its parent.
    rw [List.getElem?_append_right hid] at hslot
    obtain rfl := List.mem_singleton.mp (List.mem_of_getElem? hslot)
    exact Nat.lt_of_lt_of_le (isSome_slot?_iff.mp (hparent p hp)) hid

theorem Ordered.of_later (h : s.Ordered) (hlater : s.Later t) (hsize : t.size ≤ s.size) : t.Ordered := by
  intro id slot hslot p hp
  have hid : id.index < s.size :=
    Nat.lt_of_lt_of_le (isSome_slot?_iff.mp (by rw [hslot]; rfl)) hsize
  obtain ⟨before, hbefore⟩ := Option.isSome_iff_exists.mp (isSome_slot?_iff.mpr hid)
  obtain ⟨name, hname, -⟩ := hlater.slot id before hbefore
  obtain rfl := Option.some.inj (hslot.symm.trans hname)
  exact h id before hbefore p hp

theorem size_step (s : Scope) {a : Action} (ha : ∀ entity parent, a ≠ .register entity parent) :
    (s.step a).size = s.size := by
  rcases s.step_cases a with heffect | ⟨hsame, -⟩
  · generalize s.step a = t at heffect ⊢
    cases heffect with
    | register entity parent => exact absurd rfl (ha entity parent)
    | aliasOf => exact s.size_drawAlias _
    | aliasWhileHeld => exact s.size_drawAlias _
    | fixAlias aliasName => simp [setAlias, size]
    | compile c => exact s.size_compile c
    | _ => rfl
  · rw [hsame]

theorem ordered_step (h : s.Ordered) {a : Action}
    (ha : ∀ entity parent, a = .register entity parent → ∀ p ∈ parent, (s.slot? p).isSome) :
    (s.step a).Ordered := by
  by_cases hregister : ∃ entity parent, a = .register entity parent
  · obtain ⟨entity, parent, rfl⟩ := hregister
    rcases s.register_cases entity parent with ⟨-, -, hrun⟩ | ⟨-, e, hrun⟩
    · rw [step, hrun]
      exact h.enlarged (ha entity parent rfl) entity
    · rw [step, hrun]
      exact h
  · have hne : ∀ entity parent, a ≠ .register entity parent :=
      fun entity parent heq => hregister ⟨entity, parent, heq⟩
    exact h.of_later (s.later_step a) (Nat.le_of_eq (s.size_step hne))

theorem Ordered.decreasing (h : s.Ordered) {ids : List CriteriaId} (hids : s.Ancestry id ids) :
    (id :: ids).Pairwise fun a b => b.index < a.index := by
  have hsteps : (id :: ids).IsChain fun a b => b.index < a.index := by
    induction hids with
    | root => exact .singleton _
    | child hparent _ ih =>
        obtain ⟨slot, hslot, hp⟩ := parentOf_eq_ok_iff.mp hparent
        exact .cons_cons (h _ slot hslot _ hp) ih
  have htrans : IsTrans CriteriaId fun a b => b.index < a.index := ⟨fun _ _ _ hab hbc => Nat.lt_trans hbc hab⟩
  exact List.isChain_iff_pairwise.mp hsteps

theorem Ordered.exists_ancestry (h : s.Ordered) (hid : (s.slot? id).isSome) : ∃ ids, s.Ancestry id ids := by
  induction hindex : id.index using Nat.strongRecOn generalizing id with
  | _ index ih =>
      subst hindex
      obtain ⟨slot, hslot⟩ := Option.isSome_iff_exists.mp hid
      cases hparent : slot.parent with
      | none => exact ⟨[], .root (parentOf_eq_ok_iff.mpr ⟨slot, hslot, hparent⟩)⟩
      | some parent =>
          have hlt := h id slot hslot parent hparent
          have hknown : (s.slot? parent).isSome :=
            isSome_slot?_iff.mpr (Nat.lt_trans hlt (isSome_slot?_iff.mp hid))
          obtain ⟨ids, hids⟩ := ih parent.index hlt hknown rfl
          exact ⟨parent :: ids, .child (parentOf_eq_ok_iff.mpr ⟨slot, hslot, hparent⟩) hids⟩

end Scope

structure Node.Same (n n' : Node) : Prop where
  scope : n'.scope = n.scope
  id : n'.id = n.id
  entity : n'.entity = n.entity
  parent : n'.parent = n.parent

def Criteria.Each (N : Node → Prop) (c : Criteria) : Prop :=
  ∀ m ∈ c.members, N m.node

def Predicate.Each (N : Node → Prop) (p : Predicate) : Prop :=
  ∀ m ∈ p.members, N m.node

section Each

variable {N M : Node → Prop} {c d : Criteria} {p : Predicate}

theorem Criteria.Each.imp (h : c.Each N) (hN : ∀ n, N n → M n) : c.Each M :=
  fun m hm => hN _ (h m hm)

theorem Predicate.Each.imp (h : p.Each N) (hN : ∀ n, N n → M n) : p.Each M :=
  fun m hm => hN _ (h m hm)

theorem each_mk {node : Node} {ps : List Predicate} {js : List Criteria} :
    (Criteria.mk node ps js).Each N ↔ N node ∧ (∀ p ∈ ps, p.Each N) ∧ ∀ c ∈ js, c.Each N := by
  simp only [Criteria.Each, Predicate.Each, Criteria.members_mk, List.forall_mem_cons,
    List.forall_mem_append, List.forall_mem_flatMap]
  rfl

theorem each_existence {head : Predicate.Head} {negated : Bool} {query : Criteria} :
    (Predicate.existence head negated query).Each N ↔ query.Each N := by
  rw [Predicate.Each, Predicate.members_existence, Criteria.Each]

theorem each_subquery {head : Predicate.Head} {op : SubqueryOp} {query : Criteria} :
    (Predicate.subquery head op query).Each N ↔ query.Each N := by
  rw [Predicate.Each, Predicate.members_subquery, Criteria.Each]

theorem each_nested {head : Predicate.Head} {negated : Bool} {children : List Predicate} :
    (Predicate.nested head negated children).Each N ↔ ∀ p ∈ children, p.Each N := by
  simp only [Predicate.Each, Predicate.members_nested, List.forall_mem_flatMap]

theorem each_test (head : Predicate.Head) (t : Test) : (Predicate.test head t).Each N := by
  simp [Predicate.Each]

theorem Criteria.Each.self (h : c.Each N) : N c.node :=
  h c c.self_mem_members

theorem each_bindOwner (id : CriteriaId) (h : p.Each N) : (p.bindOwner id).Each N := by
  rwa [Predicate.Each, members_bindOwner]

theorem each_build {entities : EntityLookup} {condition : Condition}
    (hqueries : ∀ q ∈ condition.queries, q.Each N) (hchildren : ∀ q ∈ condition.children, q.Each N)
    (h : condition.build entities = .ok p) : p.Each N := by
  rw [Predicate.Each, members_build h, List.forall_mem_append, List.forall_mem_flatMap,
    List.forall_mem_flatMap]
  exact ⟨hqueries, hchildren⟩

theorem each_mapNode {f : Node → Node} (hf : N c.node → N (f c.node)) (h : c.Each N) :
    (c.mapNode f).Each N := by
  obtain ⟨node, ps, js⟩ := c
  obtain ⟨hself, hps, hjs⟩ := each_mk.mp h
  exact each_mk.mpr ⟨hf hself, hps, hjs⟩

theorem each_push (h : c.Each N) (hp : p.Each N) : (c.push p).Each N := by
  obtain ⟨node, ps, js⟩ := c
  obtain ⟨hself, hps, hjs⟩ := each_mk.mp h
  refine each_mk.mpr ⟨hself, fun q hq => ?_, hjs⟩
  rcases List.mem_append.mp hq with hq | hq
  · exact hps q hq
  · obtain rfl := List.mem_singleton.mp hq
    exact each_bindOwner _ hp

theorem each_join (h : c.Each N) (hd : d.Each N) : (c.join d).Each N := by
  obtain ⟨node, ps, js⟩ := c
  obtain ⟨hself, hps, hjs⟩ := each_mk.mp h
  refine each_mk.mpr ⟨hself, hps, fun e he => ?_⟩
  rcases List.mem_append.mp he with he | he
  · exact hjs e he
  · obtain rfl := List.mem_singleton.mp he
    exact hd

theorem each_fresh {scope : ScopeId} {id : CriteriaId} {entity : Entity} {parent : Option CriteriaId}
    (h : N { scope, id, entity, parent }) : (Criteria.fresh scope id entity parent).Each N :=
  each_mk.mpr ⟨h, by simp, by simp⟩

theorem parent_add {entities : EntityLookup} {a : Addition} (h : c.add entities a = .ok d) :
    d.node.parent = c.node.parent := by
  cases a with
  | condition condition =>
      obtain ⟨p, -, rfl⟩ := map_eq_ok.mp h
      rfl
  | _ =>
      obtain ⟨_, -, rfl⟩ := map_eq_ok.mp (mapError_eq_ok.mp h)
      rfl

theorem each_add {entities : EntityLookup} {a : Addition} (hN : ∀ n, c.node.Same n → N n)
    (h : c.Each N) (hqueries : ∀ q ∈ a.queries, q.Each N) (hchildren : ∀ q ∈ a.children, q.Each N)
    (hadd : c.add entities a = .ok d) : d.Each N := by
  have hparent := parent_add hadd
  rcases add_cases hadd with ⟨p, rfl, ⟨condition, rfl, hp⟩ | rfl⟩ | ⟨f, rfl, hadds⟩
  · refine each_push h (each_build ?_ ?_ hp)
    · exact hqueries
    · exact hchildren
  · exact each_push h (hchildren p List.mem_cons_self)
  · exact each_mapNode (fun _ => hN _ ⟨hadds.scope, hadds.id, hadds.entity, hparent⟩) h

end Each

namespace Workspace

variable {w v u : Workspace} {σ id : ScopeId} {n : Node}

def Lists (w : Workspace) (n : Node) : Prop :=
  ∃ slot, (w.scope n.scope).slot? n.id = some slot ∧ slot.entity = n.entity ∧ slot.parent = n.parent

def Keeps (w v : Workspace) : Prop :=
  ∀ σ id slot, (w.scope σ).slot? id = some slot →
    ∃ name, (v.scope σ).slot? id = some { slot with aliasName := name }

theorem Keeps.refl (w : Workspace) : w.Keeps w :=
  fun _ _ slot hslot => ⟨slot.aliasName, hslot⟩

theorem Keeps.trans (h : w.Keeps v) (k : v.Keeps u) : w.Keeps u := by
  intro σ id slot hslot
  obtain ⟨name, hname⟩ := h σ id slot hslot
  obtain ⟨last, hlast⟩ := k σ id _ hname
  exact ⟨last, hlast⟩

theorem Keeps.knows (h : w.Keeps v) {id : CriteriaId} (hid : w.Knows σ id) : v.Knows σ id := by
  obtain ⟨slot, hslot⟩ := Option.isSome_iff_exists.mp hid
  obtain ⟨name, hname⟩ := h σ id slot hslot
  exact Option.isSome_iff_exists.mpr ⟨_, hname⟩

theorem Lists.keep (h : w.Lists n) (hkeeps : w.Keeps v) : v.Lists n := by
  obtain ⟨slot, hslot, hentity, hparent⟩ := h
  obtain ⟨name, hname⟩ := hkeeps _ _ slot hslot
  exact ⟨_, hname, hentity, hparent⟩

theorem Keeps.entityOf (h : w.Keeps v) {id : CriteriaId} {entity : Entity}
    (hentity : (w.scope σ).entityOf id = .ok entity) : (v.scope σ).entityOf id = .ok entity := by
  obtain ⟨slot, hslot, hsame⟩ := Scope.entityOf_eq_ok_iff.mp hentity
  obtain ⟨name, hname⟩ := h σ id slot hslot
  exact Scope.entityOf_eq_ok_iff.mpr ⟨_, hname, hsame⟩

theorem Keeps.parentOf (h : w.Keeps v) {id : CriteriaId} {parent : Option CriteriaId}
    (hparent : (w.scope σ).parentOf id = .ok parent) : (v.scope σ).parentOf id = .ok parent := by
  obtain ⟨slot, hslot, hsame⟩ := Scope.parentOf_eq_ok_iff.mp hparent
  obtain ⟨name, hname⟩ := h σ id slot hslot
  exact Scope.parentOf_eq_ok_iff.mpr ⟨_, hname, hsame⟩

theorem lists_iff : w.Lists n ↔
    (w.scope n.scope).entityOf n.id = .ok n.entity ∧ (w.scope n.scope).parentOf n.id = .ok n.parent := by
  rw [Scope.entityOf_eq_ok_iff, Scope.parentOf_eq_ok_iff]
  constructor
  · rintro ⟨slot, hslot, hentity, hparent⟩
    exact ⟨⟨slot, hslot, hentity⟩, ⟨slot, hslot, hparent⟩⟩
  · rintro ⟨⟨slot, hslot, hentity⟩, other, hother, hparent⟩
    obtain rfl := Option.some.inj (hslot.symm.trans hother)
    exact ⟨slot, hslot, hentity, hparent⟩

theorem Lists.knows (h : w.Lists n) : w.Knows n.scope n.id := by
  obtain ⟨slot, hslot, -⟩ := h
  exact Option.isSome_iff_exists.mpr ⟨slot, hslot⟩

theorem Lists.same {n' : Node} (h : w.Lists n) (hsame : n.Same n') : w.Lists n' := by
  obtain ⟨slot, hslot, hentity, hparent⟩ := h
  refine ⟨slot, ?_, hentity.trans hsame.entity.symm, hparent.trans hsame.parent.symm⟩
  rw [hsame.scope, hsame.id]
  exact hslot

theorem Lists.parent_known (h : w.Lists n) (hordered : (w.scope n.scope).Ordered) :
    ∀ p ∈ n.parent, w.Knows n.scope p := by
  intro p hp
  have hknown := Scope.isSome_slot?_iff.mp h.knows
  obtain ⟨slot, hslot, -, hparent⟩ := h
  have hlt := hordered _ slot hslot p (hparent ▸ hp)
  exact Scope.isSome_slot?_iff.mpr (Nat.lt_trans hlt hknown)

theorem keeps_of_acts {a : Scope.Action} (h : Acts w v id a) : w.Keeps v := by
  intro σ own slot hslot
  have hknown : w.Knows σ own := Option.isSome_iff_exists.mpr ⟨slot, hslot⟩
  have hlater : (w.scope σ).Later (v.scope σ) := by
    rw [h.scope σ hknown.opened]
    split
    · exact (w.scope σ).later_step a
    · exact .refl _
  obtain ⟨name, hname, -⟩ := hlater.slot own slot hslot
  exact ⟨name, hname⟩

theorem keeps_openScope (w : Workspace) (config : Config) (registry : Registry) :
    w.Keeps (w.openScope config registry).2 := by
  intro σ id slot hslot
  have hknown : w.Knows σ id := Option.isSome_iff_exists.mpr ⟨slot, hslot⟩
  have hsame : (w.openScope config registry).2.scope σ = w.scope σ := by
    simp [openScope, Workspace.scope, List.getD_eq_getElem?_getD, List.getElem?_append_left hknown.opened]
  exact ⟨slot.aliasName, hsame ▸ hslot⟩

theorem scope_of_unopened (h : ¬ σ.index < w.scopes.length) : w.scope σ = .fresh {} {} := by
  simp [scope, List.getD_eq_getElem?_getD, List.getElem?_eq_none (Nat.le_of_not_lt h)]

theorem ordered_of_unopened (h : ¬ σ.index < w.scopes.length) : (w.scope σ).Ordered := by
  rw [scope_of_unopened h]
  exact Scope.ordered_fresh {} {}

theorem ordered_of_acts {a : Scope.Action} (h : Acts w v id a) (hordered : (w.scope σ).Ordered)
    (ha : id = σ → ∀ entity parent, a = .register entity parent → ∀ p ∈ parent, w.Knows σ p) :
    (v.scope σ).Ordered := by
  by_cases hσ : σ.index < w.scopes.length
  · rw [h.scope σ hσ]
    split
    · next heq => exact Scope.ordered_step hordered (ha heq)
    · exact hordered
  · exact ordered_of_unopened (h.opened ▸ hσ)

theorem ordered_openScope (hordered : (w.scope σ).Ordered) (config : Config) (registry : Registry) :
    ((w.openScope config registry).2.scope σ).Ordered := by
  rcases Nat.lt_trichotomy σ.index w.scopes.length with hlt | heq | hgt
  · have hsame : (w.openScope config registry).2.scope σ = w.scope σ := by
      simp [openScope, Workspace.scope, List.getD_eq_getElem?_getD, List.getElem?_append_left hlt]
    exact hsame ▸ hordered
  · have hnew : (w.openScope config registry).2.scope σ = .fresh config registry := by
      simp [openScope, Workspace.scope, List.getD_eq_getElem?_getD, heq]
    exact hnew ▸ Scope.ordered_fresh config registry
  · refine ordered_of_unopened ?_
    simp only [openScope, List.length_append, List.length_singleton]
    omega

theorem register_cases (w : Workspace) (hopen : id.index < w.scopes.length) (entity : Entity)
    (parent : Option CriteriaId) :
    (∃ own v, w.register id entity parent = (.ok (.fresh id own entity parent), v) ∧
      (v.scope id).slot? own = some { entity, parent }) ∨
    ∃ e, w.register id entity parent = (.error e, w) := by
  rcases hrun : (w.scope id).register entity parent with e | ⟨own, s⟩
  · exact .inr ⟨.scope e, by simp only [register, within, hrun]⟩
  · refine .inl ⟨own, (w.setScope id s).record (.criteriaCreated entity.name), ?_, ?_⟩
    · simp only [register, within, hrun]
    have hscope := scope_setScope hopen s id
    rw [if_pos rfl] at hscope
    exact (congrArg (·.slot? own) hscope).trans (Scope.slot?_register hrun)

theorem created_cases (w : Workspace) (hopen : id.index < w.scopes.length) (name : String)
    (parent : Option CriteriaId) :
    (∃ entity own v, w.create id name parent = (.ok (.fresh id own entity parent), v) ∧
      (v.scope id).slot? own = some { entity, parent }) ∨
    ∃ e, w.create id name parent = (.error e, w) := by
  rcases w.create_cases id name parent with ⟨-, hcreate⟩ | ⟨entity, -, hcreate⟩
  · exact .inr ⟨_, hcreate⟩
  · rw [hcreate]
    exact (w.register_cases hopen entity parent).imp_left fun h => ⟨entity, h⟩

theorem keeps_register (w : Workspace) (id : ScopeId) (entity : Entity) (parent : Option CriteriaId) :
    w.Keeps (w.register id entity parent).2 :=
  keeps_of_acts (w.acts_register id entity parent)

theorem ordered_register (hordered : (w.scope σ).Ordered) (id : ScopeId) (entity : Entity)
    {parent : Option CriteriaId} (hparent : id = σ → ∀ p ∈ parent, w.Knows σ p) :
    ((w.register id entity parent).2.scope σ).Ordered := by
  refine ordered_of_acts (w.acts_register id entity parent) hordered fun heq entity' parent' ha => ?_
  obtain ⟨-, rfl⟩ := Scope.Action.register.inj ha
  exact hparent heq

theorem keeps_create (w : Workspace) (id : ScopeId) (entity : String) (parent : Option CriteriaId) :
    w.Keeps (w.create id entity parent).2 := by
  rcases w.create_cases id entity parent with ⟨-, hcreate⟩ | ⟨found, -, hcreate⟩
  · rw [hcreate]
    exact .refl w
  · rw [hcreate]
    exact w.keeps_register id found parent

theorem ordered_create (hordered : (w.scope σ).Ordered) (id : ScopeId) (entity : String)
    {parent : Option CriteriaId} (hparent : id = σ → ∀ p ∈ parent, w.Knows σ p) :
    ((w.create id entity parent).2.scope σ).Ordered := by
  rcases w.create_cases id entity parent with ⟨-, hcreate⟩ | ⟨found, -, hcreate⟩
  · rwa [hcreate]
  · rw [hcreate]
    exact ordered_register hordered id found hparent

theorem scopes_add {c d : Criteria} {a : Addition} (h : w.add c a = (some d, v)) : v.scopes = w.scopes := by
  unfold add at h
  split at h <;> cases h <;> rfl

theorem keeps_of_scopes (h : v.scopes = w.scopes) : w.Keeps v := by
  intro σ id slot hslot
  exact ⟨slot.aliasName, by simp only [scope, h]; exact hslot⟩

end Workspace

theorem Criteria.Each.keep {w v : Workspace} {c : Criteria} (h : c.Each w.Lists) (hkeeps : w.Keeps v) :
    c.Each v.Lists :=
  h.imp fun _ hn => hn.keep hkeeps

theorem Predicate.Each.keep {w v : Workspace} {p : Predicate} (h : p.Each w.Lists) (hkeeps : w.Keeps v) :
    p.Each v.Lists :=
  h.imp fun _ hn => hn.keep hkeeps

theorem Renaming.apply_eq_or_mem (r : Renaming) (id : CriteriaId) :
    r.apply id = id ∨ (id, r.apply id) ∈ r := by
  unfold Renaming.apply
  cases hlookup : r.lookup id with
  | none => exact .inl rfl
  | some copy =>
      obtain ⟨before, after, hsplit, -⟩ := List.lookup_eq_some_iff.mp hlookup
      exact .inr (by simp [hsplit])

namespace Copying

variable {w : Workspace} {σ : ScopeId} {inside : Prop}

def Course.ordering (σ : ScopeId) (inside : Prop) : Course where
  reaches := Workspace.Keeps
  keeps w r := inside → (w.scope σ).Ordered ∧ ∀ x ∈ r, w.Knows σ x.2
  refuses _ := True
  refl := .refl
  trans := .trans

section Steps

theorem orders_rename (id : CriteriaId) :
    Ensures (.ordering σ inside) w (rename id) fun v copy => inside → w.Knows σ id → v.Knows σ copy := by
  intro r hr
  refine ⟨.refl w, hr, fun _ _ => trivial, fun copy hcopy hinside hid => ?_⟩
  obtain rfl := Except.ok.inj hcopy
  rcases r.apply_eq_or_mem id with hsame | hmem
  · rwa [hsame]
  · exact (hr hinside).2 _ hmem

theorem orders_rename? (id : Option CriteriaId) : Ensures (.ordering σ inside) w (rename? id) fun v copy =>
    inside → (∀ p ∈ id, w.Knows σ p) → ∀ p ∈ copy, v.Knows σ p := by
  cases id with
  | none => exact ensures_pure fun _ _ p hp => by cases hp
  | some id =>
      rw [rename?_some]
      refine ensures_bind (orders_rename id) fun v copy _ hcopy => ensures_pure ?_
      intro hinside hid p hp
      obtain rfl := Option.some.inj hp
      exact hcopy hinside (hid id rfl)

theorem orders_parent {n : Node} (hlists : w.Lists n) (hscope : inside → n.scope = σ) :
    Ensures (.ordering σ inside) w (rename? n.parent) fun v parent =>
      inside → ∀ p ∈ parent, v.Knows σ p := by
  intro r hr
  obtain ⟨hkeeps, hlast, herror, hparent⟩ := orders_rename? (w := w) n.parent r hr
  refine ⟨hkeeps, hlast, herror, fun parent heq hinside => hparent parent heq hinside ?_⟩
  obtain rfl := hscope hinside
  exact hlists.parent_known (hr hinside).1

theorem orders_renamed (w : Workspace) (id : CriteriaId) :
    Ensures (.ordering σ inside) w (rename id) fun _ _ => True :=
  (orders_rename id).imp fun _ _ _ => trivial

theorem orders_copyNode {n : Node} {parent : Option CriteriaId} (hlists : w.Lists n)
    (hscope : inside → n.scope = σ) (hparent : inside → ∀ p ∈ parent, w.Knows σ p) :
    Ensures (.ordering σ inside) w (copyNode n parent) fun v copy => v.Lists copy := by
  intro r hr
  rcases w.created_cases hlists.knows.opened n.entity.name parent with
    ⟨entity, own, v, hrun, hslot⟩ | ⟨e, hrun⟩
  · have hkeeps := w.keeps_create n.scope n.entity.name parent
    have hordered : inside → (v.scope σ).Ordered := fun hinside => by
      have hcreated := Workspace.ordered_create (hr hinside).1 n.scope n.entity.name fun _ => hparent hinside
      rwa [hrun] at hcreated
    rw [hrun] at hkeeps
    simp only [copyNode, hrun]
    refine ⟨hkeeps, fun hinside => ⟨hordered hinside, ?_⟩, fun _ _ => trivial, fun copy hcopy => ?_⟩
    · refine List.forall_mem_cons.mpr ⟨?_, fun x hx => hkeeps.knows ((hr hinside).2 x hx)⟩
      obtain rfl := hscope hinside
      exact Option.isSome_iff_exists.mpr ⟨_, hslot⟩
    · obtain rfl := Except.ok.inj hcopy
      exact ⟨_, hslot, rfl, rfl⟩
  · simp only [copyNode, hrun]
    exact ⟨.refl w, hr, fun _ _ => trivial, fun copy hcopy => by cases hcopy⟩

end Steps

theorem carries_lists : Carries (.ordering σ inside)
    (fun w c => c.Each w.Lists ∧ c.Each fun n => inside → n.scope = σ)
    (fun w p => p.Each w.Lists ∧ p.Each fun n => inside → n.scope = σ)
    (fun w _ d => d.Each w.Lists) fun w _ q => q.Each w.Lists where
  criteria _ _ _ hkeeps hc := ⟨hc.1.keep hkeeps, hc.2⟩
  predicate _ _ _ hkeeps hp := ⟨hp.1.keep hkeeps, hp.2⟩
  criteriaCopy _ _ _ _ hkeeps hd := hd.keep hkeeps
  predicateCopy _ _ _ _ hkeeps hq := hq.keep hkeeps
  parts h := by
    obtain ⟨-, hps, hjs⟩ := each_mk.mp h.1
    obtain ⟨-, hpscope, hjscope⟩ := each_mk.mp h.2
    exact ⟨fun p hp => ⟨hps p hp, hpscope p hp⟩, fun c hc => ⟨hjs c hc, hjscope c hc⟩⟩
  node h := by
    have hlists := (each_mk.mp h.1).1
    have hscope := (each_mk.mp h.2).1
    refine ensures_bind (orders_parent hlists hscope) fun v parent hkeeps hparent => ?_
    refine (orders_copyNode (hlists.keep hkeeps) hscope hparent).imp fun _ copy hcopy u qs ds hlater hqs hds => ?_
    exact each_mk.mpr ⟨hcopy.keep hlater, forall_of_forall₂ hqs, forall_of_forall₂ hds⟩
  test _ := ensures_bind (ensures_copyTest (Q := fun _ => True) orders_renamed trivial fun _ _ _ => trivial)
    fun _ copy _ _ => ensures_bind (ensures_copyHead orders_renamed _) fun _ new _ _ =>
      ensures_pure (each_test new copy)
  existence h := ⟨h.imp each_existence.mp each_existence.mp,
    (ensures_copyHead orders_renamed _).imp fun _ _ _ _ hd => each_existence.mpr hd⟩
  subquery h := ⟨h.imp each_subquery.mp each_subquery.mp,
    (ensures_copyHead orders_renamed _).imp fun _ _ _ _ hd => each_subquery.mpr hd⟩
  nested h := ⟨fun p hp => ⟨each_nested.mp h.1 p hp, each_nested.mp h.2 p hp⟩,
    (ensures_copyHead orders_renamed _).imp fun _ _ _ _ hqs => each_nested.mpr (forall_of_forall₂ hqs)⟩

end Copying

namespace Workspace

variable {w : Workspace} {σ : ScopeId} {c : Criteria}

theorem lists_derive (h : c.Each w.Lists) :
    w.Keeps (w.derive c).2 ∧ ∀ d, (w.derive c).1 = .ok d → d.Each (w.derive c).2.Lists := by
  have hcopy : Copying.Ensures (.ordering c.scope False) w (Copying.copyCriteria c) fun v d => d.Each v.Lists :=
    Copying.carries_lists.copy.1 c w ⟨h, fun _ _ hinside => hinside.elim⟩
  obtain ⟨hkeeps, -, -, hlists⟩ := hcopy [] fun hinside => hinside.elim
  exact ⟨hkeeps, hlists⟩

theorem ordered_derive (h : c.Each w.Lists) (hordered : (w.scope σ).Ordered)
    (hconfined : (∀ m ∈ c.members, m.scope = σ) ∨ ∀ m ∈ c.members, m.scope ≠ σ) :
    ((w.derive c).2.scope σ).Ordered := by
  rcases hconfined with hinside | houtside
  · have hcopy : Copying.Ensures (.ordering σ True) w (Copying.copyCriteria c) fun v d => d.Each v.Lists :=
      Copying.carries_lists.copy.1 c w ⟨h, fun m hm _ => hinside m hm⟩
    exact ((hcopy [] fun _ => ⟨hordered, by simp⟩).2.1 trivial).1
  · have hmeets := derive_meets (I := fun v => (v.scope σ).Ordered) (E := fun _ => True)
      (M := fun n => n.scope ≠ σ)
      (fun n parent v hne hv => ordered_create hv n.scope n.entity.name fun heq => absurd heq hne)
      (fun _ _ _ _ _ _ _ => trivial) houtside hordered
    exact hmeets.1

end Workspace

end QueryCriteria
