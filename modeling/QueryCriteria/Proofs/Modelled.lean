import QueryCriteria.Proofs.Ancestry
import QueryCriteria.Proofs.BuiltSessions

namespace QueryCriteria

open QueryCriteria.Model

namespace Scope

variable {s : Scope} {a : Action}

theorem registry_compile (s : Scope) (c : Criteria) : (s.compile c).2.registry = s.registry := by
  rcases s.state_compile c with ⟨-, hsame⟩ | ⟨-, t, haliased, hstate⟩
  · rw [hsame]
  · rw [hstate]
    exact haliased.registry

theorem registry_step (s : Scope) (a : Action) : (s.step a).registry = s.registry := by
  rcases s.step_cases a with heffect | ⟨hsame, -⟩
  · generalize s.step a = t at heffect ⊢
    cases heffect with
    | compile c => exact s.registry_compile c
    | _ => rfl
  · rw [hsame]

structure Invariant (P : Scope → Prop) : Prop where
  fresh : ∀ config registry, P (.fresh config registry)
  step : ∀ s a, P s → (∀ entity parent, a = .register entity parent → s.registry.Holds entity) → P (s.step a)

def Modelled (s : Scope) : Prop :=
  ∀ id slot, s.slot? id = some slot → s.registry.Holds slot.entity

theorem modelled_fresh (config : Config) (registry : Registry) : (fresh config registry).Modelled := by
  intro id slot hslot
  simp [slot?, fresh] at hslot

theorem Modelled.enlarged (h : s.Modelled) {entity : Entity} (hentity : s.registry.Holds entity)
    (parent : Option CriteriaId) : (s.enlarged entity parent).Modelled := by
  intro id slot hslot
  rw [slot?, Scope.enlarged] at hslot
  rcases List.mem_append.mp (List.mem_of_getElem? hslot) with hmem | hmem
  · obtain ⟨i, hi⟩ := List.mem_iff_getElem?.mp hmem
    exact h ⟨i⟩ slot hi
  · obtain rfl := List.mem_singleton.mp hmem
    exact hentity

theorem Modelled.of_later {t : Scope} (h : s.Modelled) (hlater : s.Later t) (hsize : t.size ≤ s.size)
    (hregistry : t.registry = s.registry) : t.Modelled := by
  intro id slot hslot
  have hid : id.index < s.size :=
    Nat.lt_of_lt_of_le (isSome_slot?_iff.mp (by rw [hslot]; rfl)) hsize
  obtain ⟨before, hbefore⟩ := Option.isSome_iff_exists.mp (isSome_slot?_iff.mpr hid)
  obtain ⟨name, hname, -⟩ := hlater.slot id before hbefore
  obtain rfl := Option.some.inj (hslot.symm.trans hname)
  rw [hregistry]
  exact h id before hbefore

theorem modelled_step (h : s.Modelled)
    (ha : ∀ entity parent, a = .register entity parent → s.registry.Holds entity) :
    (s.step a).Modelled := by
  by_cases hregister : ∃ entity parent, a = .register entity parent
  · obtain ⟨entity, parent, rfl⟩ := hregister
    rcases s.register_cases entity parent with ⟨-, -, hrun⟩ | ⟨-, e, hrun⟩
    · rw [step, hrun]
      exact h.enlarged (ha entity parent rfl) parent
    · rw [step, hrun]
      exact h
  · have hne : ∀ entity parent, a ≠ .register entity parent :=
      fun entity parent heq => hregister ⟨entity, parent, heq⟩
    exact h.of_later (s.later_step a) (Nat.le_of_eq (s.size_step hne)) (s.registry_step a)

theorem invariant_modelled : Invariant Modelled where
  fresh := modelled_fresh
  step _ _ := modelled_step

end Scope

namespace Workspace

variable {w v u : Workspace} {σ id : ScopeId} {n : Node} {name : String} {parent : Option CriteriaId}
variable {P : Scope → Prop}

def All (P : Scope → Prop) (w : Workspace) : Prop :=
  ∀ σ, P (w.scope σ)

structure SameModels (w v : Workspace) : Prop where
  opened : w.scopes.length ≤ v.scopes.length
  registry : ∀ σ : ScopeId, σ.index < w.scopes.length → (v.scope σ).registry = (w.scope σ).registry

theorem SameModels.refl (w : Workspace) : w.SameModels w where
  opened := Nat.le_refl _
  registry _ _ := rfl

theorem SameModels.trans (h : w.SameModels v) (k : v.SameModels u) : w.SameModels u where
  opened := Nat.le_trans h.opened k.opened
  registry σ hσ := (k.registry σ (Nat.lt_of_lt_of_le hσ h.opened)).trans (h.registry σ hσ)

theorem opened_of_entity? {entity : Entity} (h : (w.scope σ).registry.entity? name = some entity) :
    σ.index < w.scopes.length := by
  by_contra hclosed
  rw [scope_of_unopened hclosed] at h
  cases h

theorem Models.keep (h : w.Models n) (hsame : w.SameModels v) : v.Models n := by
  rw [Models, hsame.registry n.scope (opened_of_entity? h)]
  exact h

theorem sameModels_of_scopes (h : v.scopes = w.scopes) : w.SameModels v where
  opened := Nat.le_of_eq (congrArg List.length h.symm)
  registry σ _ := by simp only [scope, h]

theorem sameModels_of_acts {a : Scope.Action} (h : Acts w v id a) : w.SameModels v where
  opened := Nat.le_of_eq h.opened.symm
  registry σ hσ := by
    rw [h.scope σ hσ]
    split
    · exact (w.scope σ).registry_step a
    · rfl

theorem scope_openScope_of_opened (hσ : σ.index < w.scopes.length) (config : Config) (registry : Registry) :
    (w.openScope config registry).2.scope σ = w.scope σ := by
  simp [openScope, scope, List.getD_eq_getElem?_getD, List.getElem?_append_left hσ]

theorem sameModels_openScope (w : Workspace) (config : Config) (registry : Registry) :
    w.SameModels (w.openScope config registry).2 where
  opened := by simp [openScope]
  registry σ hσ := by rw [scope_openScope_of_opened hσ]

theorem all_empty (hP : Scope.Invariant P) : All P {} :=
  fun _ => hP.fresh {} {}

theorem all_of_acts (hP : Scope.Invariant P) {a : Scope.Action} (h : Acts w v id a) (hw : w.All P)
    (ha : ∀ entity parent, a = .register entity parent → (w.scope id).registry.Holds entity) :
    v.All P := by
  intro σ
  by_cases hσ : σ.index < w.scopes.length
  · rw [h.scope σ hσ]
    split
    · next heq => exact hP.step _ _ (hw σ) fun entity parent hregister => heq ▸ ha entity parent hregister
    · exact hw σ
  · rw [scope_of_unopened (h.opened ▸ hσ)]
    exact hP.fresh {} {}

theorem all_of_scopes (hw : w.All P) (h : v.scopes = w.scopes) : v.All P := by
  intro σ
  have hsame : v.scope σ = w.scope σ := by simp only [scope, h]
  exact hsame ▸ hw σ

theorem all_openScope (hP : Scope.Invariant P) (hw : w.All P) (config : Config) (registry : Registry) :
    (w.openScope config registry).2.All P := by
  intro σ
  rcases Nat.lt_trichotomy σ.index w.scopes.length with hlt | heq | hgt
  · rw [scope_openScope_of_opened hlt]
    exact hw σ
  · have hnew : (w.openScope config registry).2.scope σ = .fresh config registry := by
      simp [openScope, scope, List.getD_eq_getElem?_getD, heq]
    rw [hnew]
    exact hP.fresh config registry
  · have hclosed : ¬ σ.index < (w.openScope config registry).2.scopes.length := by
      simp only [openScope, List.length_append, List.length_singleton]
      omega
    rw [scope_of_unopened hclosed]
    exact hP.fresh {} {}

theorem sameModels_create (w : Workspace) (id : ScopeId) (name : String) (parent : Option CriteriaId) :
    w.SameModels (w.create id name parent).2 := by
  rcases w.create_cases id name parent with ⟨-, hcreate⟩ | ⟨entity, -, hcreate⟩
  · rw [hcreate]
    exact .refl w
  · rw [hcreate]
    exact sameModels_of_acts (w.acts_register id entity parent)

theorem all_create (hP : Scope.Invariant P) (hw : w.All P) (id : ScopeId) (name : String)
    (parent : Option CriteriaId) : (w.create id name parent).2.All P := by
  rcases w.create_cases id name parent with ⟨-, hcreate⟩ | ⟨entity, hentity, hcreate⟩
  · rwa [hcreate]
  · rw [hcreate]
    refine all_of_acts hP (w.acts_register id entity parent) hw fun registered parent' heq => ?_
    obtain ⟨rfl, -⟩ := Scope.Action.register.inj heq
    exact Registry.holds_of_entity? hentity

theorem models_of_create {c : Criteria} (h : w.create id name parent = (.ok c, v)) :
    c.scope = id ∧ v.Models c.node ∧ c.Each v.Models := by
  have hsame := w.sameModels_create id name parent
  rcases w.create_cases id name parent with ⟨-, hcreate⟩ | ⟨entity, hentity, hcreate⟩
  · rw [hcreate] at h
    cases h
  · have hopen := opened_of_entity? hentity
    rcases w.register_cases hopen entity parent with ⟨own, u, hrun, -⟩ | ⟨e, hrun⟩
    · rw [h] at hsame
      rw [hcreate, hrun] at h
      cases h
      have hmodels : v.Models { scope := id, id := own, entity, parent } := by
        rw [Models, hsame.registry id hopen]
        exact Registry.holds_of_entity? hentity
      exact ⟨rfl, hmodels, each_fresh hmodels⟩
    · rw [hcreate, hrun] at h
      cases h

end Workspace

theorem Criteria.Each.modelled {w v : Workspace} {c : Criteria} (h : c.Each w.Models) (hsame : w.SameModels v) :
    c.Each v.Models :=
  h.imp fun _ hn => hn.keep hsame

theorem Predicate.Each.modelled {w v : Workspace} {p : Predicate} (h : p.Each w.Models)
    (hsame : w.SameModels v) : p.Each v.Models :=
  h.imp fun _ hn => hn.keep hsame

namespace Copying

variable {P : Scope → Prop} {w : Workspace}

def Course.modelling (P : Scope → Prop) : Course where
  reaches := Workspace.SameModels
  keeps w _ := w.All P
  refuses _ := True
  refl := .refl
  trans := .trans

theorem modelling_rename (w : Workspace) (id : CriteriaId) :
    Ensures (.modelling P) w (rename id) fun _ _ => True :=
  fun _ hw => ⟨.refl w, hw, fun _ _ => trivial, fun _ _ => trivial⟩

theorem modelling_copyNode (hP : Scope.Invariant P) (n : Node) (parent : Option CriteriaId) :
    Ensures (.modelling P) w (copyNode n parent) Workspace.Models := by
  intro r hw
  have hsame := w.sameModels_create n.scope n.entity.name parent
  have hkept := Workspace.all_create hP hw n.scope n.entity.name parent
  rcases hcreate : w.create n.scope n.entity.name parent with ⟨result, v⟩
  rw [hcreate] at hsame hkept
  simp only [copyNode, hcreate]
  cases result with
  | error e => exact ⟨hsame, hkept, fun _ _ => trivial, fun copy hcopy => by cases hcopy⟩
  | ok c =>
      refine ⟨hsame, hkept, fun _ _ => trivial, fun copy hcopy => ?_⟩
      obtain rfl := Except.ok.inj hcopy
      obtain ⟨hscope, hmodels, -⟩ := Workspace.models_of_create hcreate
      have hnode : c.node.scope = n.scope := hscope
      rw [Workspace.Models, hnode] at hmodels
      exact hmodels

theorem carries_models (hP : Scope.Invariant P) : Carries (.modelling P) (fun _ _ => True) (fun _ _ => True)
    (fun w _ d => d.Each w.Models) fun w _ q => q.Each w.Models where
  criteria _ _ _ _ _ := trivial
  predicate _ _ _ _ _ := trivial
  criteriaCopy _ _ _ _ hsame hd := hd.modelled hsame
  predicateCopy _ _ _ _ hsame hq := hq.modelled hsame
  parts _ := ⟨fun _ _ => trivial, fun _ _ => trivial⟩
  node _ := by
    refine ensures_bind (ensures_rename? modelling_rename _) fun v parent _ _ => ?_
    refine (modelling_copyNode hP _ parent).imp fun _ copy hcopy u qs ds hsame hqs hds => ?_
    exact each_mk.mpr ⟨hcopy.keep hsame, forall_of_forall₂ hqs, forall_of_forall₂ hds⟩
  test _ := ensures_bind (ensures_copyTest (Q := fun _ => True) modelling_rename trivial fun _ _ _ => trivial)
    fun _ copy _ _ => ensures_bind (ensures_copyHead modelling_rename _) fun _ new _ _ =>
      ensures_pure (each_test new copy)
  existence _ := ⟨trivial, (ensures_copyHead modelling_rename _).imp fun _ _ _ _ hd => each_existence.mpr hd⟩
  subquery _ := ⟨trivial, (ensures_copyHead modelling_rename _).imp fun _ _ _ _ hd => each_subquery.mpr hd⟩
  nested _ := ⟨fun _ _ => trivial,
    (ensures_copyHead modelling_rename _).imp fun _ _ _ _ hqs => each_nested.mpr (forall_of_forall₂ hqs)⟩

end Copying

theorem Workspace.models_derive {P : Scope → Prop} (hP : Scope.Invariant P) {w : Workspace} (hw : w.All P)
    (c : Criteria) :
    w.SameModels (w.derive c).2 ∧ (w.derive c).2.All P ∧
      ∀ d, (w.derive c).1 = .ok d → d.Each (w.derive c).2.Models := by
  obtain ⟨hsame, hkept, -, hmodels⟩ := (Copying.carries_models hP).copy.1 c w trivial [] hw
  exact ⟨hsame, hkept, hmodels⟩

namespace Session

variable {S T : Session}

structure Modelled (P : Scope → Prop) (S : Session) : Prop where
  scopes : S.workspace.All P
  criteria : ∀ c ∈ S.criteria, c.Each S.workspace.Models
  predicates : ∀ p ∈ S.predicates, p.Each S.workspace.Models

namespace Modelled

variable {w : Workspace} {P : Scope → Prop}

theorem grow (h : S.Modelled P) (hw : w.All P) (hsame : S.workspace.SameModels w) :
    Modelled P { S with workspace := w } where
  scopes := hw
  criteria c hc := (h.criteria c hc).modelled hsame
  predicates p hp := (h.predicates p hp).modelled hsame

theorem holding (h : S.Modelled P) {c : Criteria} (hc : c.Each S.workspace.Models) :
    (S.holding c).Modelled P where
  scopes := h.scopes
  criteria := List.forall_mem_cons.mpr ⟨hc, h.criteria⟩
  predicates := h.predicates

theorem keeping (h : S.Modelled P) {p : Predicate} (hp : p.Each S.workspace.Models) :
    (S.keeping p).Modelled P where
  scopes := h.scopes
  criteria := h.criteria
  predicates := List.forall_mem_cons.mpr ⟨hp, h.predicates⟩

theorem taking (h : S.Modelled P) {ε : Type} {outcome : Except ε Criteria × Workspace}
    (hw : outcome.2.All P) (hsame : S.workspace.SameModels outcome.2)
    (hc : ∀ c, outcome.1 = .ok c → c.Each outcome.2.Models) : (S.taking outcome).Modelled P := by
  obtain ⟨result, w⟩ := outcome
  cases result with
  | error e => exact h.grow hw hsame
  | ok c => exact (h.grow hw hsame).holding (hc c rfl)

theorem create (hP : Scope.Invariant P) (h : S.Modelled P) (id : ScopeId) (name : String)
    (parent : Option CriteriaId) : (S.taking (S.workspace.create id name parent)).Modelled P :=
  h.taking (Workspace.all_create hP h.scopes id name parent) (S.workspace.sameModels_create id name parent)
    fun _ hc => (Workspace.models_of_create (Prod.ext hc rfl)).2.2

theorem add (h : S.Modelled P) {c d : Criteria} {a : Addition} (hc : c ∈ S.criteria)
    (hqueries : a.queries ⊆ S.criteria) (hchildren : a.children ⊆ S.predicates)
    (hadd : S.workspace.add c a = (some d, w)) :
    (Session.holding { S with workspace := w } d).Modelled P := by
  have hscopes := Workspace.scopes_add hadd
  have hgrown := h.grow (Workspace.all_of_scopes h.scopes hscopes) (Workspace.sameModels_of_scopes hscopes)
  refine hgrown.holding ?_
  have hself : ∀ n, c.node.Same n → w.Models n := fun n hsame => by
    have hmodels := (hgrown.criteria c hc).self
    rwa [Workspace.Models, hsame.scope, hsame.entity]
  unfold Workspace.add at hadd
  split at hadd
  · next hbuilt =>
    cases hadd
    exact each_add hself (h.criteria c hc) (fun q hq => h.criteria q (hqueries hq))
      (fun p hp => h.predicates p (hchildren hp)) hbuilt
  · cases hadd
    exact hgrown.criteria c hc
  · cases hadd

theorem step (hP : Scope.Invariant P) (h : S.Modelled P) (hstep : Step S T) : T.Modelled P := by
  cases hstep with
  | openScope config registry =>
      exact h.grow (Workspace.all_openScope hP h.scopes config registry)
        (S.workspace.sameModels_openScope config registry)
  | act id ha =>
      exact h.grow (Workspace.all_of_acts hP (Workspace.acts_setScope rfl) h.scopes ha)
        (Workspace.sameModels_of_acts (Workspace.acts_setScope rfl))
  | observe telemetry =>
      exact h.grow (Workspace.all_of_scopes h.scopes rfl) (Workspace.sameModels_of_scopes rfl)
  | create entity parent _ => exact create hP h _ entity parent
  | @createSibling c hc => exact create hP h c.scope c.node.entity.name c.node.parent
  | @derive c hc =>
      obtain ⟨hsame, hkept, hcopy⟩ := Workspace.models_derive hP h.scopes c
      exact h.taking hkept hsame hcopy
  | build hqueries hchildren hbuild =>
      exact h.keeping (each_build (fun q hq => h.criteria q (hqueries hq))
        (fun p hp => h.predicates p (hchildren hp)) hbuild)
  | bindOwner id hp => exact h.keeping (each_bindOwner id (h.predicates _ hp))
  | add hc hqueries hchildren hadd => exact h.add hc hqueries hchildren hadd
  | @configure c f hc hscope _ hentity =>
      refine h.holding (each_mapNode (fun hmodels => ?_) (h.criteria c hc))
      have hnode : (f c.node).scope = c.node.scope := hscope
      rwa [Workspace.Models, hnode, hentity]
  | join hc hparticipant => exact h.holding (each_join (h.criteria _ hc) (h.criteria _ hparticipant))
  | @scratch c hc =>
      have hmodels := (h.criteria c hc).self
      exact h.holding (each_fresh hmodels)
  | member hc hm => exact h.holding fun n hn => h.criteria _ hc n ((gather_subset.1 _).1 _ hm hn)
  | condition hc hp => exact h.keeping fun n hn => h.criteria _ hc n ((gather_subset.1 _).2 _ hp hn)
  | memberOf hp hm => exact h.holding fun n hn => h.predicates _ hp n ((gather_subset.2 _).1 _ hm hn)
  | conditionOf hp hq => exact h.keeping fun n hn => h.predicates _ hp n ((gather_subset.2 _).2 _ hq hn)

end Modelled

theorem modelled_of_reachable {P : Scope → Prop} (hP : Scope.Invariant P) (h : Reachable S) :
    S.Modelled P := by
  induction h with
  | refl => exact ⟨Workspace.all_empty hP, by simp, by simp⟩
  | tail _ hstep ih => exact ih.step hP hstep

theorem scope_of_reachable {P : Scope → Prop} (hP : Scope.Invariant P) (h : Reachable S) (σ : ScopeId) :
    P (S.workspace.scope σ) :=
  (modelled_of_reachable hP h).scopes σ

theorem models_of_reachable (h : Reachable S) {c : Criteria} (hc : c ∈ S.criteria) :
    c.Each S.workspace.Models :=
  (modelled_of_reachable Scope.invariant_modelled h).criteria c hc

end Session

end QueryCriteria
