import QueryCriteria.Proofs.Compilation

namespace QueryCriteria

open QueryCriteria.Model

inductive Scope.Action where
  | register (entity : Entity) (parent : Option CriteriaId)
  | drawParameter
  | drawAlias
  | aliasOf (id : CriteriaId)
  | aliasWhileHeld (id : CriteriaId)
  | fixAlias (id : CriteriaId) (aliasName : String)
  | freeze
  | unfreeze
  | compile (c : Criteria)

namespace Scope

def after {α : Type} (s : Scope) : Except ScopeError (α × Scope) → Scope
  | .error _ => s
  | .ok (_, t) => t

def step (s : Scope) : Action → Scope
  | .register entity parent => s.after (s.register entity parent)
  | .drawParameter => s.nextParameter.2
  | .drawAlias => s.nextAlias.2
  | .aliasOf id => s.after (s.aliasOf id)
  | .aliasWhileHeld id => s.after (s.aliasWhileHeld id)
  | .fixAlias id aliasName => s.after ((s.assignAlias id aliasName).map ((), ·))
  | .freeze => s.after (s.freeze.map ((), ·))
  | .unfreeze => s.unfreeze
  | .compile c => (s.compile c).2

def run (s : Scope) (actions : List Action) : Scope :=
  actions.foldl step s

theorem run_cons (s : Scope) (a : Action) (as : List Action) : s.run (a :: as) = (s.step a).run as := rfl

theorem run_append (s : Scope) (as bs : List Action) : s.run (as ++ bs) = (s.run as).run bs :=
  List.foldl_append

def issuedBy (s : Scope) : Action → List String
  | .drawParameter => [s.nextParameter.1]
  | .compile c => (s.parameters.drawMany (s.parametersDrawn c)).1
  | _ => []

def issued (s : Scope) : List Action → List String
  | [] => []
  | a :: as => s.issuedBy a ++ (s.step a).issued as

inductive Effect (s : Scope) : Action → Scope → Prop
  | register (entity : Entity) (parent : Option CriteriaId) : s.frozen = false → s.size < capacity →
      Effect s (.register entity parent) { s with slots := s.slots ++ [{ entity, parent }] }
  | drawParameter : Effect s .drawParameter s.nextParameter.2
  | drawAlias : Effect s .drawAlias s.nextAlias.2
  | aliasOf {id : CriteriaId} : s.frozen = false → (s.slot? id).isSome → s.alias? id = none →
      Effect s (.aliasOf id) (s.drawAlias id).2
  | aliasWhileHeld {id : CriteriaId} : (s.slot? id).isSome → s.alias? id = none →
      Effect s (.aliasWhileHeld id) (s.drawAlias id).2
  | fixAlias {id : CriteriaId} (aliasName : String) : s.frozen = false → (s.slot? id).isSome →
      s.alias? id = none → Effect s (.fixAlias id aliasName)
        ({ s with reserved := s.reserved.add aliasName }.setAlias id aliasName)
  | freeze : s.frozen = false → Effect s .freeze { s with frozen := true }
  | unfreeze : Effect s .unfreeze s.unfreeze
  | compile (c : Criteria) : s.frozen = false → Effect s (.compile c) (s.compile c).2

theorem Effect.of_eq {s t : Scope} {a : Action} (hstep : s.step a = t) (h : Effect s a t) :
    Effect s a (s.step a) := by
  rwa [hstep]

theorem alias?_of_slot? {s : Scope} {id : CriteriaId} {slot : Slot} (h : s.slot? id = some slot) :
    s.alias? id = slot.aliasName := by
  rw [alias?, h]
  rfl

theorem step_aliasOf (s : Scope) (id : CriteriaId) :
    s.Effect (.aliasOf id) (s.step (.aliasOf id)) ∨ s.step (.aliasOf id) = s := by
  cases hslot : s.slot? id with
  | none => exact .inr (by simp [step, aliasOf, hslot, after])
  | some slot =>
      have halias := alias?_of_slot? hslot
      cases hname : slot.aliasName with
      | some current => exact .inr (by simp [step, aliasOf, hslot, hname, after])
      | none =>
          cases hfrozen : s.frozen with
          | true => exact .inr (by simp [step, aliasOf, hslot, hname, hfrozen, after])
          | false =>
              refine .inl (.of_eq ?_ (.aliasOf hfrozen (by simp [hslot]) (halias.trans hname)))
              simp [step, aliasOf, hslot, hname, hfrozen, after]

theorem step_aliasWhileHeld (s : Scope) (id : CriteriaId) :
    s.Effect (.aliasWhileHeld id) (s.step (.aliasWhileHeld id)) ∨ s.step (.aliasWhileHeld id) = s := by
  cases hslot : s.slot? id with
  | none => exact .inr (by simp [step, aliasWhileHeld, hslot, after])
  | some slot =>
      have halias := alias?_of_slot? hslot
      cases hname : slot.aliasName with
      | some current => exact .inr (by simp [step, aliasWhileHeld, hslot, hname, after])
      | none =>
          refine .inl (.of_eq ?_ (.aliasWhileHeld (by simp [hslot]) (halias.trans hname)))
          simp [step, aliasWhileHeld, hslot, hname, after]

theorem step_fixAlias (s : Scope) (id : CriteriaId) (aliasName : String) :
    s.Effect (.fixAlias id aliasName) (s.step (.fixAlias id aliasName)) ∨
      s.step (.fixAlias id aliasName) = s := by
  cases hfrozen : s.frozen with
  | true => exact .inr (by simp [step, assignAlias, hfrozen, after, Except.map])
  | false =>
      cases hslot : s.slot? id with
      | none => exact .inr (by simp [step, assignAlias, hfrozen, hslot, after, Except.map])
      | some slot =>
          have halias := alias?_of_slot? hslot
          cases hname : slot.aliasName with
          | some current =>
              exact .inr (by simp [step, assignAlias, hfrozen, hslot, hname, after, Except.map])
          | none =>
              refine .inl (.of_eq ?_ (.fixAlias aliasName hfrozen (by simp [hslot]) (halias.trans hname)))
              simp [step, assignAlias, hfrozen, hslot, hname, after, Except.map]

theorem step_cases (s : Scope) (a : Action) :
    s.Effect a (s.step a) ∨ s.step a = s ∧ s.issuedBy a = [] := by
  cases a with
  | register entity parent =>
      cases hfrozen : s.frozen with
      | true => exact .inr ⟨by simp [step, register, hfrozen, after], rfl⟩
      | false =>
          by_cases hfull : capacity ≤ s.size
          · exact .inr ⟨by simp [step, register, hfrozen, hfull, after], rfl⟩
          · refine .inl (.of_eq ?_ (.register entity parent hfrozen (Nat.lt_of_not_le hfull)))
            simp [step, register, hfrozen, hfull, after]
  | drawParameter => exact .inl .drawParameter
  | drawAlias => exact .inl .drawAlias
  | aliasOf id => exact (s.step_aliasOf id).imp_right fun h => ⟨h, rfl⟩
  | aliasWhileHeld id => exact (s.step_aliasWhileHeld id).imp_right fun h => ⟨h, rfl⟩
  | fixAlias id aliasName => exact (s.step_fixAlias id aliasName).imp_right fun h => ⟨h, rfl⟩
  | freeze =>
      cases hfrozen : s.frozen with
      | true => exact .inr ⟨by simp [step, freeze, hfrozen, after, Except.map], rfl⟩
      | false =>
          refine .inl (.of_eq ?_ (.freeze hfrozen))
          simp [step, freeze, hfrozen, after, Except.map]
  | unfreeze => exact .inl .unfreeze
  | compile c =>
      cases hfrozen : s.frozen with
      | true =>
          refine .inr ⟨by rw [step, compile_of_frozen hfrozen], ?_⟩
          rw [issuedBy, parametersDrawn_of_frozen hfrozen]
          rfl
      | false => exact .inl (.compile c hfrozen)

structure Draws (s t : Scope) (names : List String) : Prop where
  config : t.config = s.config
  parameters : t.parameters = s.parameters.advance names.length
  names : names = (s.parameters.drawMany names.length).1

namespace Draws

theorem nothing {s t : Scope} (hconfig : t.config = s.config) (hparameters : t.parameters = s.parameters) :
    Draws s t [] where
  config := hconfig
  parameters := by simp [hparameters]
  names := rfl

theorem trans {s t u : Scope} {names more : List String} (h : Draws s t names) (k : Draws t u more) :
    Draws s u (names ++ more) where
  config := k.config.trans h.config
  parameters := by
    rw [k.parameters, h.parameters, NumberedNames.advance_advance, List.length_append]
  names := by
    rw [List.length_append, NumberedNames.drawMany_append, ← h.parameters, ← h.names, ← k.names]

end Draws

theorem draws_step (s : Scope) (a : Action) : Draws s (s.step a) (s.issuedBy a) := by
  rcases s.step_cases a with heffect | ⟨hsame, hissued⟩
  · generalize s.step a = t at heffect ⊢
    cases heffect with
    | drawParameter => exact ⟨rfl, rfl, rfl⟩
    | compile c hfree =>
        have hlength := NumberedNames.length_drawMany (s.parametersDrawn c) s.parameters
        refine ⟨s.config_compile c, ?_, ?_⟩
        · rw [issuedBy, hlength]
          exact s.parameters_compile c
        · rw [issuedBy, hlength]
    | _ => exact .nothing rfl rfl
  · rw [hsame, hissued]
    exact .nothing rfl rfl

theorem draws_run (s : Scope) (actions : List Action) : Draws s (s.run actions) (s.issued actions) := by
  induction actions generalizing s with
  | nil => exact .nothing rfl rfl
  | cons a as ih => exact (s.draws_step a).trans (ih (s.step a))

end Scope

end QueryCriteria
