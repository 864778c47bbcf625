import QueryCriteria.Proofs.AliasSearch
import QueryCriteria.Proofs.CompileSteps
import QueryCriteria.Proofs.HeldScope
import QueryCriteria.Proofs.Persistence
import QueryCriteria.Proofs.Placeholders

namespace QueryCriteria

open QueryCriteria.Model QueryCriteria.Metrics

def Criteria.RefersTo (c : Criteria) (id : CriteriaId) : Prop :=
  (∃ m ∈ c.members, m.id = id) ∨ ∃ p ∈ c.conditions, id ∈ p.handles

theorem refersTo_of_mem_references {c : Criteria} {r : Reference} (hr : r ∈ c.references) :
    c.RefersTo r.id := by
  rcases mem_references.mp hr with ⟨m, hm, rfl⟩ | ⟨p, hp, hown⟩
  · exact .inl ⟨m, hm, rfl⟩
  · refine .inr ⟨p, hp, ?_⟩
    rw [← map_id_ownReferences]
    exact List.mem_map.mpr ⟨r, hown, rfl⟩

theorem mem_of_mem_askedFrom {root : ScopeId} {placed : List (CriteriaId × String)} {s : Scope}
    {references : List Reference} {id : CriteriaId} (h : id ∈ askedFrom root placed s references) :
    ∃ r ∈ references, r.id = id := by
  induction references generalizing placed s with
  | nil => cases h
  | cons r rest ih =>
      -- Either kind of reference is asked for first, and the rest after it.
      have hstep : id = r.id ∨ ∃ placed s, id ∈ askedFrom root placed s rest := by
        by_cases hr : r.table? = none
        · rw [askedFrom_handle hr, List.mem_cons] at h
          refine h.imp_right fun hrest => ?_
          split at hrest
          · cases hrest
          · exact ⟨_, _, hrest⟩
        · cases r with
          | source scope own qualify joined =>
              rw [askedFrom] at h
              split at h
              · cases h
              split at h
              · cases h
              refine (List.mem_cons.mp h).imp_right fun hrest => ?_
              split at hrest
              · cases hrest
              split at hrest
              · cases hrest
              · exact ⟨_, _, hrest⟩
          | owner own => exact absurd rfl hr
          | correlated own => exact absurd rfl hr
      rcases hstep with rfl | ⟨placed, s, hrest⟩
      · exact ⟨r, List.mem_cons_self, rfl⟩
      · obtain ⟨found, hmem, hid⟩ := ih hrest
        exact ⟨found, List.mem_cons_of_mem r hmem, hid⟩

namespace Scope

variable {s t u : Scope}

def IsDefault (s : Scope) (count : Nat) (aliasName : String) : Prop :=
  ∃ i, 0 < i ∧ i ≤ count ∧
    aliasName = NumberedNames.name s.aliases.stem (s.aliases.issued + UInt64.ofNat i) ∧
    (s.aliases.issued.toNat + i < UInt64.size → s.reserved.has aliasName = false)

structure Allots (s t : Scope) (count : Nat) : Prop where
  reserved : t.reserved = s.reserved
  aliases : t.aliases = s.aliases.advance count
  gained : ∀ id a, s.alias? id = none → t.alias? id = some a → s.IsDefault count a

namespace Allots

variable {m n : Nat}

theorem of_alias? (hreserved : t.reserved = s.reserved) (haliases : t.aliases = s.aliases)
    (hsame : ∀ id, t.alias? id = s.alias? id) : Allots s t 0 where
  reserved := hreserved
  aliases := by rw [haliases, NumberedNames.advance_zero]
  gained id a hnone hsome := by simp [← hsame, hsome] at hnone

theorem trans (h : Allots s t m) (hlater : Later t u)
    (k : Allots t u n) : Allots s u (m + n) where
  reserved := k.reserved.trans h.reserved
  aliases := by rw [k.aliases, h.aliases, NumberedNames.advance_advance]
  gained id a hnone hsome := by
    cases ht : t.alias? id with
    | some early =>
        obtain rfl := Option.some.inj ((hlater.alias? ht).symm.trans hsome)
        obtain ⟨i, hpos, hle, hname, hfree⟩ := h.gained id _ hnone ht
        exact ⟨i, hpos, by omega, hname, hfree⟩
    | none =>
        obtain ⟨i, hpos, hle, hname, hfree⟩ := k.gained id a ht hsome
        rw [h.aliases] at hname hfree
        refine ⟨m + i, by omega, by omega, ?_, fun hroom => ?_⟩
        · simpa [NumberedNames.advance, UInt64.add_assoc] using hname
        · rw [← h.reserved]
          refine hfree ?_
          have hsum := NumberedNames.toNat_ofNat_add s.aliases.issued
            (show s.aliases.issued.toNat + m < UInt64.size by omega)
          simp only [NumberedNames.advance, hsum]
          omega

theorem drawAlias {id : CriteriaId} (hslot : (s.slot? id).isSome) :
    Allots s (s.drawAlias id).2 (s.aliases.searchLength s.reserved) where
  reserved := rfl
  aliases := by
    have hdraw := congrArg Prod.snd (NumberedNames.drawFree_eq s.reserved s.aliases)
    exact hdraw
  gained other a hnone hsome := by
    have hdraw := NumberedNames.drawFree_eq s.reserved s.aliases
    by_cases hother : other = id
    · subst hother
      rw [alias?_drawAlias hslot] at hsome
      obtain rfl := Option.some.inj hsome
      exact ⟨_, NumberedNames.searchLength_pos _ _, Nat.le_refl _, congrArg Prod.fst hdraw,
        NumberedNames.free_drawFree⟩
    · have hkept : (s.drawAlias id).2.alias? other = s.alias? other := alias?_setAlias_of_ne hother _
      rw [hkept, hnone] at hsome
      cases hsome

end Allots

def Action.isInner : Action → Bool
  | .aliasWhileHeld _ => true
  | .drawParameter => true
  | _ => false

theorem allots_step (s : Scope) {a : Action} (ha : a.isInner = true) :
    ∃ count, Allots s (s.step a) count := by
  rcases s.step_cases a with heffect | ⟨hsame, -⟩
  · generalize s.step a = t at heffect ⊢
    cases heffect with
    | drawParameter => exact ⟨0, .of_alias? rfl rfl fun _ => rfl⟩
    | aliasWhileHeld hslot hnone => exact ⟨_, .drawAlias hslot⟩
    | _ => cases ha
  · rw [hsame]
    exact ⟨0, .of_alias? rfl rfl fun _ => rfl⟩

theorem allots_run {as : List Action} (has : ∀ a ∈ as, a.isInner = true) :
    ∃ count, Allots s (s.run as) count := by
  induction as generalizing s with
  | nil => exact ⟨0, .of_alias? rfl rfl fun _ => rfl⟩
  | cons a as ih =>
      obtain ⟨ha, has⟩ := List.forall_mem_cons.mp has
      obtain ⟨m, hm⟩ := s.allots_step ha
      obtain ⟨n, hn⟩ := ih has
      exact ⟨m + n, hm.trans ((s.step a).later_run as) hn⟩

theorem isInner_of_mem_inner {c : Criteria} {a : Action} (ha : a ∈ s.inner c) : a.isInner = true := by
  rcases List.mem_append.mp ha with hask | hdraw
  · obtain ⟨id, -, rfl⟩ := List.mem_map.mp hask
    rfl
  · obtain rfl := List.eq_of_mem_replicate hdraw
    rfl

theorem refersTo_of_mem_inner {c : Criteria} {id : CriteriaId}
    (h : .aliasWhileHeld id ∈ s.inner c) : c.RefersTo id := by
  rcases List.mem_append.mp h with hask | hdraw
  · obtain ⟨asked, hmem, heq⟩ := List.mem_map.mp hask
    cases heq
    obtain ⟨r, hr, rfl⟩ := mem_of_mem_askedFrom hmem
    exact refersTo_of_mem_references hr
  · cases List.eq_of_mem_replicate hdraw

structure Framed (s t : Scope) (c : Criteria) (drawn numbered : Nat) : Prop where
  frame : t = { s with
    slots := t.slots
    parameters := s.parameters.advance drawn
    aliases := s.aliases.advance numbered }
  size : t.size = s.size
  slot : ∀ id slot, s.slot? id = some slot → ∃ name, t.slot? id = some { slot with aliasName := name } ∧
    (name = slot.aliasName ∨
      slot.aliasName = none ∧ c.RefersTo id ∧ ∃ a, name = some a ∧ s.IsDefault numbered a)

theorem framed_compile (s : Scope) (c : Criteria) :
    ∃ numbered, Framed s (s.compile c).2 c (s.parametersDrawn c) numbered := by
  cases hs : s.frozen with
  | true =>
      refine ⟨0, ?_⟩
      rw [compile_of_frozen hs, parametersDrawn_of_frozen hs]
      exact ⟨by simp, rfl, fun id slot hslot => ⟨slot.aliasName, hslot, .inl rfl⟩⟩
  | false =>
      have hinner : ∀ a ∈ s.inner c, a ≠ .unfreeze := by
        rintro a ha rfl
        cases isInner_of_mem_inner ha
      have hheld : s.held.frozen = true := rfl
      have hkept := kept_run hheld hinner
      obtain ⟨numbered, hallots⟩ := allots_run (s := s.held) fun a => isInner_of_mem_inner (s := s)
      have hparameters := s.parameters_compile c
      rw [compile_eq_run hs] at hparameters ⊢
      generalize s.held.run (s.inner c) = t at hkept hallots hparameters
      refine ⟨numbered, ?_, hkept.size, fun id slot hslot => ?_⟩
      · have hframe := hkept.frame
        rw [hframe]
        simp only [unfreeze, held, Scope.mk.injEq, true_and]
        exact ⟨hparameters, hallots.aliases, hs.symm⟩
      · obtain ⟨name, hname, hcases⟩ := hkept.slot id slot hslot
        refine ⟨name, hname, ?_⟩
        rcases hcases with hsame | ⟨hnone, hasked⟩
        · exact .inl hsame
        cases name with
        | none => exact .inl hnone.symm
        | some a =>
            have hbare : s.held.alias? id = none := (alias?_of_slot? hslot).trans hnone
            exact .inr ⟨hnone, refersTo_of_mem_inner hasked, a, rfl,
              hallots.gained id a hbare (alias?_of_slot? hname)⟩

theorem compile_of_drawn (hs : s.frozen = false) {c : Criteria}
    (h : drawAliases c.scope [] s.held c.references = (.ok (), t)) :
    (s.compile c).2 =
      { t with parameters := s.parameters.advance (s.parametersDrawn c), frozen := false } := by
  have hstate : (s.compile c).2 = { t with parameters := (s.compile c).2.parameters, frozen := false } := by
    rw [compile_of_unfrozen hs, compileHeld, h]
    rfl
  rw [hstate, s.parameters_compile c]

theorem parametersDrawn_of_compile {c : Criteria} {compiled : Compiled}
    (h : s.compile c = (.ok compiled, t)) : s.parametersDrawn c = compiled.bindings.size := by
  have hlength := congrArg List.length (names_of_compile h)
  rw [issuedBy, NumberedNames.length_drawMany] at hlength
  rw [← hlength]
  exact List.length_map _

theorem compile_busy_iff (s : Scope) (c : Criteria) :
    (s.compile c).1 = .error .scopeBusy ↔ s.frozen = true := by
  constructor
  · intro hbusy
    by_contra hs
    cases isHeld_compile (Bool.eq_false_iff.mpr hs) hbusy
  · intro hs
    rw [compile_of_frozen hs]

end Scope

def Criteria.ending (c : Criteria) : Except CompileError Compiled → Event
  | .error e => .compileFailed c.node.entity.name e
  | .ok compiled =>
      .compileFinished c.node.entity.name c.predicateCount compiled.bindings.size c.subqueryCount

namespace Workspace

theorem setScope_self (w : Workspace) (id : ScopeId) : w.setScope id (w.scope id) = w := by
  have hset : w.scopes.set id.index (w.scopes.getD id.index (.fresh {} {})) = w.scopes := by
    by_cases hopen : id.index < w.scopes.length
    · simp [List.getD, List.getElem?_eq_getElem hopen]
    · exact List.set_eq_of_length_le (Nat.le_of_not_lt hopen)
  rw [setScope, scope, hset]

theorem state_compile (w : Workspace) (c : Criteria) :
    (w.compile c).2 =
      (w.setScope c.scope ((w.scope c.scope).compile c).2).record (c.ending (w.compile c).1) := by
  unfold Workspace.compile
  rcases (w.scope c.scope).compile c with ⟨result, s⟩
  cases result <;> rfl

theorem closeSink_compile (w : Workspace) (c : Criteria) :
    (w.openSink.compile c).2.closeSink =
      ([c.ending (w.compile c).1], w.setScope c.scope ((w.scope c.scope).compile c).2) := by
  have hresult : (w.openSink.compile c).1 = (w.compile c).1 := by
    rw [result_compile, result_compile]
    rfl
  rw [state_compile, hresult]
  rfl

theorem compile_frame (w : Workspace) (c : Criteria) :
    let s := w.scope c.scope
    let t := (s.compile c).2
    let result := (w.compile c).1
    ∃ drawn numbered,
      s.Framed t c drawn numbered ∧
      (s.parameters.issued.toNat + drawn < UInt64.size →
        t.parameters.issued.toNat = s.parameters.issued.toNat + drawn) ∧
      (s.aliases.issued.toNat + numbered < UInt64.size →
        t.aliases.issued.toNat = s.aliases.issued.toNat + numbered) ∧
      (∀ compiled, result = .ok compiled → drawn = compiled.bindings.size) ∧
      (∀ u, s.frozen = false → drawAliases c.scope [] s.held c.references = (.ok (), u) →
        t = { u with parameters := s.parameters.advance drawn, frozen := false }) ∧
      (result = .error .scopeBusy → t = s ∧ (w.compile c).2 = w.record (c.ending result)) ∧
      (w.compile c).2 = (w.setScope c.scope t).record (c.ending result) ∧
      (w.openSink.compile c).2.closeSink = ([c.ending result], w.setScope c.scope t) := by
  intro s t result
  obtain ⟨numbered, hframed⟩ := s.framed_compile c
  have hresult : result = (s.compile c).1 := w.result_compile c
  have hparameters : t.parameters = s.parameters.advance (s.parametersDrawn c) := s.parameters_compile c
  have haliases : t.aliases = s.aliases.advance numbered := congrArg Scope.aliases hframed.frame
  refine ⟨s.parametersDrawn c, numbered, hframed, fun hroom => ?_, fun hroom => ?_, fun compiled hok => ?_,
    fun u hs hdrawn => Scope.compile_of_drawn hs hdrawn, fun hbusy => ?_, w.state_compile c,
    w.closeSink_compile c⟩
  · rw [hparameters]
    exact NumberedNames.toNat_ofNat_add _ hroom
  · rw [haliases]
    exact NumberedNames.toNat_ofNat_add _ hroom
  · exact Scope.parametersDrawn_of_compile (Prod.ext (hresult.symm.trans hok) rfl)
  · have hfrozen := (s.compile_busy_iff c).mp (hresult.symm.trans hbusy)
    have hsame : t = s := congrArg Prod.snd (Scope.compile_of_frozen hfrozen c)
    refine ⟨hsame, ?_⟩
    rw [w.state_compile c, show ((w.scope c.scope).compile c).2 = w.scope c.scope from hsame, setScope_self]

end Workspace

end QueryCriteria
