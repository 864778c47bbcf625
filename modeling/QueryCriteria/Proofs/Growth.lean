import QueryCriteria.Proofs.ScopeRun

namespace QueryCriteria

open QueryCriteria.Model

namespace Scope

theorem size_drawAlias (s : Scope) (id : CriteriaId) : (s.drawAlias id).2.size = s.size := by
  simp [drawAlias, nextAlias, setAlias, size]

theorem size_le_step (s : Scope) (a : Action) : s.size ≤ (s.step a).size := by
  rcases s.step_cases a with heffect | ⟨hsame, -⟩
  · generalize s.step a = t at heffect ⊢
    cases heffect with
    | register entity parent => simp [size]
    | aliasOf => exact Nat.le_of_eq (s.size_drawAlias _).symm
    | aliasWhileHeld => exact Nat.le_of_eq (s.size_drawAlias _).symm
    | fixAlias aliasName => simp [setAlias, size]
    | compile c => exact Nat.le_of_eq (s.size_compile c).symm
    | _ => exact Nat.le_refl _
  · exact Nat.le_of_eq (congrArg size hsame.symm)

theorem isSome_slot?_of_size_le {s t : Scope} (h : s.size ≤ t.size) {id : CriteriaId}
    (hid : (s.slot? id).isSome) : (t.slot? id).isSome := by
  rw [isSome_slot?] at hid ⊢
  simp only [decide_eq_true_eq] at hid ⊢
  omega

end Scope

namespace Workspace

def Knows (w : Workspace) (scope : ScopeId) (id : CriteriaId) : Prop :=
  ((w.scope scope).slot? id).isSome

structure Extends (w v : Workspace) : Prop where
  opened : w.scopes.length ≤ v.scopes.length
  known : ∀ scope id, w.Knows scope id → v.Knows scope id

theorem Extends.refl (w : Workspace) : Extends w w where
  opened := Nat.le_refl _
  known _ _ h := h

theorem Extends.trans {u v w : Workspace} (h : Extends u v) (k : Extends v w) : Extends u w where
  opened := Nat.le_trans h.opened k.opened
  known scope id hid := k.known scope id (h.known scope id hid)

theorem Knows.opened {w : Workspace} {scope : ScopeId} {id : CriteriaId} (h : w.Knows scope id) :
    scope.index < w.scopes.length := by
  by_contra hge
  have hempty : w.scope scope = .fresh {} {} := by
    simp [Workspace.scope, List.getD_eq_getElem?_getD, List.getElem?_eq_none (Nat.le_of_not_lt hge)]
  rw [Knows, hempty] at h
  simp [Scope.slot?, Scope.fresh] at h

theorem scope_setScope {w : Workspace} {id : ScopeId} (hid : id.index < w.scopes.length) (s : Scope)
    (other : ScopeId) : (w.setScope id s).scope other = if other = id then s else w.scope other := by
  have hindex : id.index = other.index ↔ other = id := by
    cases id
    cases other
    simp [eq_comm]
  simp only [scope, setScope, List.getD_eq_getElem?_getD, List.getElem?_set, hindex]
  split
  · simp
  · rfl

theorem extends_setScope {w : Workspace} {id : ScopeId} {s : Scope}
    (h : (w.scope id).size ≤ s.size) : w.Extends (w.setScope id s) where
  opened := by simp [setScope]
  known scope other hknown := by
    by_cases hid : id.index < w.scopes.length
    · rw [Knows, scope_setScope hid]
      split
      next heq => exact Scope.isSome_slot?_of_size_le h (heq ▸ hknown)
      next => exact hknown
    · have hsame : w.setScope id s = w := by
        simp [setScope, List.set_eq_of_length_le (Nat.le_of_not_lt hid)]
      rwa [hsame]

theorem extends_openScope (w : Workspace) (config : Config) (registry : Registry) :
    w.Extends (w.openScope config registry).2 where
  opened := by simp [openScope]
  known scope id h := by
    have hopen := h.opened
    have hsame : (w.openScope config registry).2.scope scope = w.scope scope := by
      simp [openScope, Workspace.scope, List.getD_eq_getElem?_getD, List.getElem?_append_left hopen]
    rwa [Knows, hsame]

theorem extends_of_scopes {w v : Workspace} (h : v.scopes = w.scopes) : w.Extends v where
  opened := Nat.le_of_eq (congrArg List.length h.symm)
  known scope id hid := by
    have hscope : v.scope scope = w.scope scope := by simp only [Workspace.scope, h]
    rwa [Knows, hscope]

theorem extends_record (w : Workspace) (e : Metrics.Event) : w.Extends (w.record e) :=
  extends_of_scopes rfl

theorem create_cases (w : Workspace) (id : ScopeId) (name : String) (parent : Option CriteriaId) :
    ((w.scope id).registry.entity? name = none ∧
        w.create id name parent = (.error (.unknownEntity name), w)) ∨
      ∃ entity, (w.scope id).registry.entity? name = some entity ∧
        w.create id name parent = w.register id entity parent := by
  cases hfound : (w.scope id).registry.entity? name with
  | none => exact .inl ⟨rfl, by simp only [create, hfound]⟩
  | some entity => exact .inr ⟨entity, rfl, by simp only [create, hfound]⟩

theorem create_of_holds {w : Workspace} {id : ScopeId} {entity : Entity}
    (h : (w.scope id).registry.Holds entity) (parent : Option CriteriaId) :
    w.create id entity.name parent = w.register id entity parent := by
  have hfound : (w.scope id).registry.entity? entity.name = some entity := h
  simp only [create, hfound]

def Models (w : Workspace) (n : Node) : Prop :=
  (w.scope n.scope).registry.Holds n.entity

theorem register_spec {w v : Workspace} {id : ScopeId} {entity : Entity} {parent : Option CriteriaId}
    {result : Except CriteriaError Criteria} (h : w.register id entity parent = (result, v)) :
    w.Extends v ∧ ∀ c, result = .ok c → id.index < w.scopes.length →
      c = .fresh id c.id entity parent ∧ v.Knows id c.id := by
  unfold register within at h
  cases hregister : (w.scope id).register entity parent with
  | error e =>
      simp only [hregister, Prod.mk.injEq] at h
      obtain ⟨rfl, rfl⟩ := h
      exact ⟨.refl w, fun c hc => by cases hc⟩
  | ok pair =>
      obtain ⟨fresh, s⟩ := pair
      simp only [hregister, Prod.mk.injEq] at h
      obtain ⟨rfl, rfl⟩ := h
      have hsize : (w.scope id).size ≤ s.size := by
        have hstep := (w.scope id).size_le_step (.register entity parent)
        rwa [Scope.step, hregister] at hstep
      refine ⟨(extends_setScope hsize).trans (extends_record _ _), ?_⟩
      rintro c hc hid
      obtain rfl := Except.ok.inj hc
      refine ⟨rfl, ?_⟩
      have hscope : ((w.setScope id s).record (.criteriaCreated entity.name)).scope id = s := by
        have hset := scope_setScope hid s id
        rwa [if_pos rfl] at hset
      have hslot : s.slot? fresh = some { entity, parent } := Scope.slot?_register hregister
      rw [Knows, hscope]
      exact Option.isSome_iff_exists.mpr ⟨_, hslot⟩

theorem create_spec {w v : Workspace} {id : ScopeId} {name : String} {parent : Option CriteriaId}
    {result : Except CriteriaError Criteria} (h : w.create id name parent = (result, v)) :
    w.Extends v ∧ ∀ c, result = .ok c → id.index < w.scopes.length →
      ∃ entity, (w.scope id).registry.entity? name = some entity ∧ c = .fresh id c.id entity parent ∧
        v.Knows id c.id := by
  rcases w.create_cases id name parent with ⟨-, hcreate⟩ | ⟨entity, hentity, hcreate⟩
  · rw [hcreate] at h
    obtain ⟨rfl, rfl⟩ := Prod.mk.inj h
    exact ⟨.refl w, fun c hc => by cases hc⟩
  · rw [hcreate] at h
    obtain ⟨hw, hfresh⟩ := register_spec h
    exact ⟨hw, fun c hc hid => ⟨entity, hentity, hfresh c hc hid⟩⟩

end Workspace

end QueryCriteria
