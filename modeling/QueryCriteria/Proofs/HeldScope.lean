import QueryCriteria.Proofs.ScopeRun
import QueryCriteria.Proofs.WellFormed

namespace QueryCriteria

open QueryCriteria.Model

def ScopeError.isHeld : ScopeError → Bool
  | .frozen => true
  | .busy => true
  | _ => false

def CriteriaError.isHeld : CriteriaError → Bool
  | .scope e => e.isHeld
  | .unknownEntity _ => false

def CompileError.isHeld : CompileError → Bool
  | .scopeBusy => true
  | .scope e => e.isHeld
  | _ => false

section Reading

variable {α : Type} {q j : Criteria → List α} {g : CriteriaId → Predicate → List α} {P : α → Prop}

theorem forall_mem_reading (hq : ∀ c, ∀ a ∈ q c, P a) (hj : ∀ c, ∀ a ∈ j c, P a)
    (hg : ∀ enclosing p, ∀ a ∈ g enclosing p, P a) :
    (∀ c : Criteria, (∀ a ∈ c.reading q j g, P a) ∧ ∀ a ∈ c.joinedReading q j g, P a) ∧
      ∀ (p : Predicate) enclosing, ∀ a ∈ p.reading q j g enclosing, P a := by
  apply tree_induction
  case criteria =>
    intro node ps js hp hjs
    simp only [reading_mk, joinedReading_mk, List.forall_mem_append, List.forall_mem_flatMap]
    exact ⟨⟨⟨hq _, fun c hc => (hjs c hc).2⟩, fun p hmem => hp p hmem node.id⟩,
      ⟨hj _, fun p hmem => hp p hmem node.id⟩, fun c hc => (hjs c hc).2⟩
  case test =>
    intro head t enclosing
    rw [reading_test]
    exact hg enclosing _
  case existence =>
    intro head negated query hquery enclosing
    rw [reading_existence]
    exact List.forall_mem_append.mpr ⟨hg enclosing _, hquery.1⟩
  case subquery =>
    intro head op query hquery enclosing
    rw [reading_subquery]
    exact List.forall_mem_append.mpr ⟨hg enclosing _, hquery.1⟩
  case nested =>
    intro head negated children hc enclosing
    simp only [reading_nested, List.forall_mem_append, List.forall_mem_flatMap]
    exact ⟨hg enclosing _, fun p hmem => hc p hmem enclosing⟩

end Reading

theorem isHeld_predicateFaults (ctx : Context) (enclosing : CriteriaId) (p : Predicate) :
    ∀ e ∈ p.faults ctx enclosing, e.isHeld = false := by
  intro e he
  cases p with
  | test head t =>
      simp only [Predicate.faults] at he
      split at he
      · obtain rfl := List.mem_singleton.mp he
        rfl
      · next target _ =>
        unfold Test.faults at he
        split at he
        · obtain rfl := List.mem_singleton.mp he
          rfl
        · rcases mem_templateFaults.mp he with ⟨fault, -, rfl⟩ | ⟨_, -, token, -, hfault⟩
          · rfl
          · rcases hfault with ⟨-, rfl⟩ | ⟨-, rfl⟩ <;> rfl
        · cases he
  | existence => cases he
  | subquery head op query =>
      simp only [Predicate.faults] at he
      split at he
      · obtain rfl := List.mem_singleton.mp he
        rfl
      · cases he
  | nested => cases he

theorem isHeld_renderFaults (ctx : Context) (c : Criteria) :
    ∀ e ∈ c.renderFaults ctx, e.isHeld = false := by
  refine ((forall_mem_reading (by simp) (fun m e he => ?_) (isHeld_predicateFaults ctx)).1 c).1
  obtain ⟨-, rfl⟩ := mem_joinFaults.mp he
  rfl

namespace Scope

variable {s t u : Scope}

theorem isHeld_referenceFaults (s : Scope) (c : Criteria) :
    ∀ e ∈ s.referenceFaults c, e.isHeld = false := by
  intro e he
  obtain ⟨first, r, rest, -, hviolation⟩ := exists_of_mem_referenceViolations he
  cases r with
  | source scope id qualify joined =>
      unfold Reference.violation? at hviolation
      dsimp only at hviolation
      split at hviolation
      · cases hviolation; rfl
      split at hviolation
      · cases hviolation; rfl
      split at hviolation
      · cases hviolation; rfl
      split at hviolation <;> cases hviolation
      rfl
  | owner id =>
      unfold Reference.violation? at hviolation
      dsimp only at hviolation
      split at hviolation <;> cases hviolation
      rfl
  | correlated id =>
      unfold Reference.violation? at hviolation
      dsimp only at hviolation
      split at hviolation <;> cases hviolation
      rfl

theorem isHeld_compile (hs : s.frozen = false) {c : Criteria} {e : CompileError}
    (h : (s.compile c).1 = .error e) : e.isHeld = false := by
  have hverdict := compile_verdict hs c
  rw [h] at hverdict
  have hmem : e ∈ s.referenceFaults c ++ c.renderFaults (s.settledContext c) := by
    cases hfaults : s.referenceFaults c ++ c.renderFaults (s.settledContext c) with
    | nil => simp [hfaults, verdict, Except.map] at hverdict
    | cons fault faults =>
        simp only [hfaults, verdict, Except.map, Except.error.injEq] at hverdict
        exact hverdict ▸ List.mem_cons_self
  exact List.forall_mem_append.mpr ⟨s.isHeld_referenceFaults c, isHeld_renderFaults _ c⟩ e hmem

theorem frozen_compile (hs : s.frozen = false) (c : Criteria) : (s.compile c).2.frozen = false := by
  rw [compile_of_unfrozen hs]
  rfl

theorem frozen_step (s : Scope) {a : Action} (hfreeze : a ≠ .freeze) (hunfreeze : a ≠ .unfreeze) :
    (s.step a).frozen = s.frozen := by
  rcases s.step_cases a with heffect | ⟨hsame, -⟩
  · generalize s.step a = t at heffect ⊢
    cases heffect with
    | freeze _ => exact absurd rfl hfreeze
    | unfreeze => exact absurd rfl hunfreeze
    | compile c hfree => rw [hfree, frozen_compile hfree]
    | _ => rfl
  · rw [hsame]

theorem frozen_run {as : List Action} (h : ∀ a ∈ as, a ≠ .freeze ∧ a ≠ .unfreeze) :
    (s.run as).frozen = s.frozen := by
  induction as generalizing s with
  | nil => rfl
  | cons a as ih =>
      obtain ⟨⟨hfreeze, hunfreeze⟩, has⟩ := List.forall_mem_cons.mp h
      rw [run_cons, ih has, s.frozen_step hfreeze hunfreeze]

structure Kept (s t : Scope) (asked : CriteriaId → Prop) : Prop where
  frame : t = { s with slots := t.slots, parameters := t.parameters, aliases := t.aliases }
  size : t.size = s.size
  slot : ∀ id slot, s.slot? id = some slot → ∃ name, t.slot? id = some { slot with aliasName := name } ∧
    (name = slot.aliasName ∨ slot.aliasName = none ∧ asked id)

namespace Kept

variable {asked more : CriteriaId → Prop}

theorem of_slots
    (hframe : t = { s with slots := t.slots, parameters := t.parameters, aliases := t.aliases })
    (hslots : t.slots = s.slots) : Kept s t asked where
  frame := hframe
  size := congrArg List.length hslots
  slot id slot hslot := ⟨slot.aliasName, by rw [slot?, hslots]; exact hslot, .inl rfl⟩

theorem refl (s : Scope) : Kept s s asked :=
  of_slots rfl rfl

theorem trans (h : Kept s t asked) (k : Kept t u asked) : Kept s u asked where
  frame := by
    have hframe := k.frame
    rw [h.frame] at hframe
    exact hframe
  size := k.size.trans h.size
  slot id slot hslot := by
    obtain ⟨name, hname, hearly⟩ := h.slot id slot hslot
    obtain ⟨last, hlast, hlate⟩ := k.slot id _ hname
    refine ⟨last, hlast, ?_⟩
    rcases hlate with rfl | ⟨rfl, hasked⟩
    · exact hearly
    · exact .inr ⟨hearly.elim Eq.symm And.left, hasked⟩

theorem mono (h : Kept s t asked) (himp : ∀ id, asked id → more id) : Kept s t more where
  frame := h.frame
  size := h.size
  slot id slot hslot := by
    obtain ⟨name, hname, hkept⟩ := h.slot id slot hslot
    exact ⟨name, hname, hkept.imp_right fun hnew => ⟨hnew.1, himp id hnew.2⟩⟩

theorem frozen (h : Kept s t asked) : t.frozen = s.frozen := by
  rw [h.frame]

theorem drawAlias {id : CriteriaId} (hnone : s.alias? id = none) (hasked : asked id) :
    Kept s (s.drawAlias id).2 asked where
  frame := rfl
  size := (aliased_drawAlias hnone).size
  slot other slot hslot := by
    have hdrawn : (s.drawAlias id).2.slot? other = some (if id = other then
        { slot with aliasName := some s.nextAlias.1 } else slot) := by
      have hkeep : s.nextAlias.2.slot? other = some slot := hslot
      simp only [Scope.drawAlias, slot?_setAlias, hkeep, Option.map_some]
    rw [hdrawn]
    by_cases hid : id = other
    · subst hid
      rw [alias?_of_slot? hslot] at hnone
      exact ⟨_, by rw [if_pos rfl], .inr ⟨hnone, hasked⟩⟩
    · exact ⟨slot.aliasName, by rw [if_neg hid], .inl rfl⟩

end Kept

theorem kept_step (hs : s.frozen = true) {a : Action} (ha : a ≠ .unfreeze) :
    Kept s (s.step a) fun id => a = .aliasWhileHeld id := by
  rcases s.step_cases a with heffect | ⟨hsame, -⟩
  · generalize s.step a = t at heffect ⊢
    cases heffect with
    | drawParameter => exact .of_slots rfl rfl
    | drawAlias => exact .of_slots rfl rfl
    | aliasWhileHeld _ hnone => exact .drawAlias hnone rfl
    | unfreeze => exact absurd rfl ha
    | _ => simp_all
  · rw [hsame]
    exact .refl s

theorem kept_run {as : List Action} (hs : s.frozen = true) (h : ∀ a ∈ as, a ≠ .unfreeze) :
    Kept s (s.run as) fun id => .aliasWhileHeld id ∈ as := by
  induction as generalizing s with
  | nil => exact .refl s
  | cons a as ih =>
      obtain ⟨ha, has⟩ := List.forall_mem_cons.mp h
      have hfirst := kept_step hs ha
      refine (hfirst.mono fun id hid => ?_).trans ((ih (hfirst.frozen.trans hs) has).mono fun id => ?_)
      · exact hid ▸ List.mem_cons_self
      · exact List.mem_cons_of_mem a

end Scope

end QueryCriteria
