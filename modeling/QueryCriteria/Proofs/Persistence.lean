import QueryCriteria.Proofs.Operations

namespace QueryCriteria

namespace Scope

structure Later (s t : Scope) : Prop where
  config : t.config = s.config
  parameters : ∃ count, t.parameters = s.parameters.advance count
  slot : ∀ id slot, s.slot? id = some slot → ∃ name, t.slot? id = some { slot with aliasName := name } ∧
    ∀ a, slot.aliasName = some a → name = some a

namespace Later

variable {s t u : Scope}

theorem of_slots (hconfig : t.config = s.config) (hparameters : t.parameters = s.parameters)
    (hslots : t.slots = s.slots) : Later s t where
  config := hconfig
  parameters := ⟨0, by rw [hparameters, NumberedNames.advance_zero]⟩
  slot id slot hslot := ⟨slot.aliasName, by rw [slot?, hslots]; exact hslot, fun _ ha => ha⟩

theorem refl (s : Scope) : Later s s :=
  of_slots rfl rfl rfl

theorem trans (h : Later s t) (k : Later t u) : Later s u where
  config := k.config.trans h.config
  parameters := by
    obtain ⟨m, hm⟩ := h.parameters
    obtain ⟨n, hn⟩ := k.parameters
    exact ⟨m + n, by rw [hn, hm, NumberedNames.advance_advance]⟩
  slot id slot hslot := by
    obtain ⟨name, hname, hkept⟩ := h.slot id slot hslot
    obtain ⟨last, hlast, hkept'⟩ := k.slot id _ hname
    exact ⟨last, hlast, fun a ha => hkept' a (hkept a ha)⟩

theorem of_aliased (h : Aliased s t) : Later s t where
  config := h.config
  parameters := ⟨0, by rw [h.parameters, NumberedNames.advance_zero]⟩
  slot := h.slot

theorem alias? (h : Later s t) {id : CriteriaId} {a : String} (ha : s.alias? id = some a) :
    t.alias? id = some a := by
  obtain ⟨slot, hslot, hname⟩ := Option.bind_eq_some_iff.mp ha
  obtain ⟨name, hlast, hkept⟩ := h.slot id slot hslot
  rw [Scope.alias?, hlast, Option.bind_some, hkept a hname]

theorem isSome_slot? (h : Later s t) {id : CriteriaId} (hid : (s.slot? id).isSome) :
    (t.slot? id).isSome := by
  obtain ⟨slot, hslot⟩ := Option.isSome_iff_exists.mp hid
  obtain ⟨name, hlast, -⟩ := h.slot id slot hslot
  rw [hlast]
  rfl

end Later

theorem later_append (s : Scope) (slots : List Slot) :
    Later s { s with slots := s.slots ++ slots } where
  config := rfl
  parameters := ⟨0, by simp⟩
  slot id slot hslot := by
    refine ⟨slot.aliasName, ?_, fun _ ha => ha⟩
    obtain ⟨hid, -⟩ := List.getElem?_eq_some_iff.mp hslot
    rw [slot?, List.getElem?_append_left hid]
    exact hslot

theorem later_setAlias {s : Scope} {id : CriteriaId} (h : s.alias? id = none) (a : String) :
    Later s (s.setAlias id a) where
  config := rfl
  parameters := ⟨0, by simp [setAlias]⟩
  slot other slot hslot := by
    rw [slot?_setAlias, hslot, Option.map_some]
    by_cases hid : id = other
    · subst hid
      refine ⟨some a, by rw [if_pos rfl], fun b hb => ?_⟩
      simp [Scope.alias?, hslot, hb] at h
    · exact ⟨slot.aliasName, by rw [if_neg hid], fun b hb => hb⟩

theorem later_compile (s : Scope) (c : Criteria) : Later s (s.compile c).2 := by
  rcases s.state_compile c with ⟨-, hsame⟩ | ⟨-, t, haliased, hstate⟩
  · rw [hsame]
    exact .refl s
  · rw [hstate]
    exact ⟨haliased.config, ⟨_, rfl⟩, haliased.slot⟩

theorem later_step (s : Scope) (a : Action) : Later s (s.step a) := by
  rcases s.step_cases a with heffect | ⟨hsame, -⟩
  · generalize s.step a = t at heffect ⊢
    cases heffect with
    | register entity parent => exact s.later_append _
    | drawParameter => exact ⟨rfl, ⟨1, rfl⟩, fun _ slot hslot => ⟨slot.aliasName, hslot, fun _ h => h⟩⟩
    | drawAlias => exact .of_slots rfl rfl rfl
    | aliasOf _ _ hnone => exact .of_aliased (aliased_drawAlias hnone)
    | aliasWhileHeld _ hnone => exact .of_aliased (aliased_drawAlias hnone)
    | fixAlias aliasName _ _ hnone =>
        have hreserve : Later s { s with reserved := s.reserved.add aliasName } := .of_slots rfl rfl rfl
        refine hreserve.trans (later_setAlias ?_ aliasName)
        exact hnone
    | freeze _ => exact .of_slots rfl rfl rfl
    | unfreeze => exact .of_slots rfl rfl rfl
    | compile c _ => exact s.later_compile c
  · rw [hsame]
    exact .refl s

theorem later_run (s : Scope) (actions : List Action) : Later s (s.run actions) := by
  induction actions generalizing s with
  | nil => exact .refl s
  | cons a as ih => exact (s.later_step a).trans (ih (s.step a))

end Scope

theorem Guarded.later_run {G : Guarded} {σ : ScopeId} (hσ : G.Opened σ) (ops : List Operation) :
    (G.scope σ).Later ((G.run ops).scope σ) := by
  rw [(scope_run hσ ops).2]
  exact Scope.later_run _ _

end QueryCriteria
