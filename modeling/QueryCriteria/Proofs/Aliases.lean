import QueryCriteria.Compile.Basic
import QueryCriteria.Proofs.Names
import QueryCriteria.Proofs.References

namespace QueryCriteria

namespace Scope

theorem isSome_slot? (s : Scope) (id : CriteriaId) :
    (s.slot? id).isSome = decide (id.index < s.size) := by
  by_cases h : id.index < s.slots.length <;> simp [slot?, size, h]

structure Aliased (s t : Scope) : Prop where
  frame : t = { s with slots := t.slots, aliases := { s.aliases with issued := t.aliases.issued } }
  size : t.size = s.size
  slot : ∀ id slot, s.slot? id = some slot → ∃ name, t.slot? id = some { slot with aliasName := name } ∧
    ∀ a, slot.aliasName = some a → name = some a

namespace Aliased

theorem refl (s : Scope) : Aliased s s where
  frame := rfl
  size := rfl
  slot _ slot h := ⟨slot.aliasName, h, fun _ ha => ha⟩

theorem trans {s t u : Scope} (h : Aliased s t) (k : Aliased t u) : Aliased s u where
  frame := by
    have hframe := k.frame
    rw [h.frame] at hframe
    exact hframe
  size := k.size.trans h.size
  slot id slot hslot := by
    obtain ⟨name, hname, hkept⟩ := h.slot id slot hslot
    obtain ⟨last, hlast, hkept'⟩ := k.slot id _ hname
    exact ⟨last, hlast, fun a ha => hkept' a (hkept a ha)⟩

variable {s t : Scope}

theorem config (h : Aliased s t) : t.config = s.config := by
  rw [h.frame]

theorem registry (h : Aliased s t) : t.registry = s.registry := by
  rw [h.frame]

theorem parameters (h : Aliased s t) : t.parameters = s.parameters := by
  rw [h.frame]

theorem isSome_slot? (h : Aliased s t) (id : CriteriaId) :
    (t.slot? id).isSome = (s.slot? id).isSome := by
  simp only [Scope.isSome_slot?, h.size]

theorem alias? (h : Aliased s t) {id : CriteriaId} {a : String} (ha : s.alias? id = some a) :
    t.alias? id = some a := by
  unfold Scope.alias? at ha ⊢
  obtain ⟨slot, hslot, hname⟩ := Option.bind_eq_some_iff.mp ha
  obtain ⟨name, hlast, hkept⟩ := h.slot id slot hslot
  rw [hlast, Option.bind_some, hkept a hname]

end Aliased

theorem slot?_setAlias (s : Scope) (id other : CriteriaId) (a : String) :
    (s.setAlias id a).slot? other =
      (s.slot? other).map fun slot =>
        if id = other then { slot with aliasName := some a } else slot := by
  have hindex : id = other ↔ id.index = other.index := by
    cases id
    cases other
    simp
  simp only [slot?, setAlias, List.getElem?_modify, hindex]
  rfl

theorem alias?_drawAlias {s : Scope} {id : CriteriaId} (h : (s.slot? id).isSome) :
    (s.drawAlias id).2.alias? id = some (s.drawAlias id).1 := by
  obtain ⟨slot, hslot⟩ := Option.isSome_iff_exists.mp h
  have hkeep : s.nextAlias.2.slot? id = some slot := hslot
  simp [drawAlias, Scope.alias?, slot?_setAlias, hkeep]

theorem aliased_drawAlias {s : Scope} {id : CriteriaId} (h : s.alias? id = none) :
    Aliased s (s.drawAlias id).2 where
  frame := by
    have hstem := NumberedNames.stem_drawFree s.reserved s.aliases
    simp only [drawAlias, nextAlias, setAlias, ← hstem]
  size := by simp [drawAlias, nextAlias, setAlias, size]
  slot other slot hslot := by
    have hkeep : s.nextAlias.2.slot? other = some slot := hslot
    simp only [drawAlias, slot?_setAlias, hkeep, Option.map_some]
    by_cases hid : id = other
    · subst hid
      refine ⟨_, by rw [if_pos rfl], fun a ha => ?_⟩
      simp [Scope.alias?, hslot, ha] at h
    · exact ⟨slot.aliasName, by rw [if_neg hid], fun a ha => ha⟩

theorem aliasWhileHeld_cases (s : Scope) (id : CriteriaId) :
    (s.slot? id = none ∧ s.aliasWhileHeld id = .error (.unknownCriteria id)) ∨
    ∃ a t, s.aliasWhileHeld id = .ok (a, t) ∧ (s.slot? id).isSome ∧ Aliased s t ∧
      t.alias? id = some a := by
  unfold aliasWhileHeld
  cases hslot : s.slot? id with
  | none => exact .inl ⟨rfl, rfl⟩
  | some slot =>
      right
      cases hname : slot.aliasName with
      | some current =>
          exact ⟨current, s, by simp [hname], rfl, .refl s, by simp [Scope.alias?, hslot, hname]⟩
      | none =>
          have hnone : s.alias? id = none := by simp [Scope.alias?, hslot, hname]
          exact ⟨_, _, by simp [hname], rfl, aliased_drawAlias hnone,
            alias?_drawAlias (by simp [hslot])⟩

def withAlias (s : Scope) (id : CriteriaId) : Scope :=
  match s.aliasWhileHeld id with
  | .error _ => s
  | .ok (_, t) => t

def settle (s : Scope) (references : List Reference) : Scope :=
  references.foldl (fun s r => s.withAlias r.id) s

theorem aliased_withAlias (s : Scope) (id : CriteriaId) : Aliased s (s.withAlias id) := by
  unfold withAlias
  rcases s.aliasWhileHeld_cases id with ⟨-, h⟩ | ⟨a, t, h, -, haliased, -⟩
  · rw [h]
    exact .refl s
  · rw [h]
    exact haliased

theorem aliased_settle (s : Scope) (references : List Reference) : Aliased s (s.settle references) := by
  induction references generalizing s with
  | nil => exact .refl s
  | cons r rs ih => exact (s.aliased_withAlias r.id).trans (ih (s.withAlias r.id))

theorem isSome_alias?_settle {s : Scope} {references : List Reference} {r : Reference}
    (hr : r ∈ references) (h : (s.slot? r.id).isSome) : ((s.settle references).alias? r.id).isSome := by
  induction references generalizing s with
  | nil => cases hr
  | cons first rest ih =>
      rcases List.mem_cons.mp hr with rfl | hr
      · rcases s.aliasWhileHeld_cases r.id with ⟨hnone, -⟩ | ⟨a, t, ht, -, -, ha⟩
        · simp [hnone] at h
        · have hwith : s.withAlias r.id = t := by simp [withAlias, ht]
          have hlast := ((s.withAlias r.id).aliased_settle rest).alias? (hwith ▸ ha)
          exact Option.isSome_iff_exists.mpr ⟨a, hlast⟩
      · exact ih hr (by rwa [(s.aliased_withAlias first.id).isSome_slot?])

end Scope

namespace Reference

def violation? (root : ScopeId) (t : Scope) (before : List Reference) : Reference → Option CompileError
  | .source scope id _ _ =>
      if scope ≠ root then some (.foreignScope id)
      else if id ∈ tables before then some (.duplicateCriteria id)
      else
        match t.alias? id with
        | none => some (.scope (.unknownCriteria id))
        | some a =>
            if some a ∈ (tables before).map t.alias? then some (.aliasCollision a) else none
  | .owner id => if (t.slot? id).isNone then some (.scope (.unknownCriteria id)) else none
  | .correlated id => if (t.slot? id).isNone then some (.scope (.unknownCriteria id)) else none

end Reference

def referenceViolations (root : ScopeId) (t : Scope) (before : List Reference) :
    List Reference → List CompileError
  | [] => []
  | r :: rs => (r.violation? root t before).toList ++ referenceViolations root t (before ++ [r]) rs

structure Placed (s : Scope) (before : List Reference) (placed : List (CriteriaId × String)) : Prop where
  ids : ∀ id, id ∈ tables before ↔ ∃ a, (id, a) ∈ placed
  aliases : ∀ id a, (id, a) ∈ placed → s.alias? id = some a

namespace Placed

variable {s t : Scope} {before : List Reference} {placed : List (CriteriaId × String)}

theorem nil (s : Scope) : Placed s [] [] where
  ids := by simp
  aliases := by simp

theorem aliased (h : Placed s before placed) (hst : s.Aliased t) : Placed t before placed where
  ids := h.ids
  aliases id a ha := hst.alias? (h.aliases id a ha)

theorem source (h : Placed s before placed) (scope : ScopeId) {id : CriteriaId} {a : String}
    (qualify : Option Bool) (joined : Bool) (ha : s.alias? id = some a) :
    Placed s (before ++ [.source scope id qualify joined]) ((id, a) :: placed) where
  ids other := by
    have hids := h.ids other
    simp only [tables_append, tables_cons, Reference.table?, Option.toList_some, tables_nil,
      List.append_nil, List.mem_append, hids, List.mem_cons, Prod.mk.injEq]
    grind
  aliases other b hb := by
    rcases List.mem_cons.mp hb with heq | hb
    · obtain ⟨rfl, rfl⟩ := Prod.mk.inj heq
      exact ha
    · exact h.aliases other b hb

theorem other (h : Placed s before placed) {r : Reference} (hr : r.table? = none) :
    Placed s (before ++ [r]) placed where
  ids id := by simpa [hr] using h.ids id
  aliases := h.aliases

theorem any_id (h : Placed s before placed) (id : CriteriaId) :
    placed.any (·.1 == id) = true ↔ id ∈ tables before := by
  simp only [h.ids, List.any_eq_true, beq_iff_eq, Prod.exists]
  grind

theorem any_alias (h : Placed s before placed) (a : String) :
    placed.any (·.2 == a) = true ↔ some a ∈ (tables before).map s.alias? := by
  simp only [List.any_eq_true, beq_iff_eq, Prod.exists, List.mem_map, h.ids]
  constructor
  · rintro ⟨id, b, hmem, rfl⟩
    exact ⟨id, ⟨b, hmem⟩, h.aliases id b hmem⟩
  · rintro ⟨id, ⟨b, hmem⟩, ha⟩
    rw [h.aliases id b hmem] at ha
    exact ⟨id, b, hmem, Option.some.inj ha⟩

end Placed

def verdict : List CompileError → Except CompileError Unit
  | [] => .ok ()
  | e :: _ => .error e

section Drawing

variable {s t : Scope} {before : List Reference} {placed : List (CriteriaId × String)}

theorem drawAliases_handle {r : Reference} (hr : r.table? = none) (root : ScopeId)
    (placed : List (CriteriaId × String)) (s : Scope) (rest : List Reference) :
    drawAliases root placed s (r :: rest) =
      match s.aliasWhileHeld r.id with
      | .error e => (.error (.scope e), s)
      | .ok (_, t) => drawAliases root placed t rest := by
  cases r with
  | source => cases hr
  | owner id => rfl
  | correlated id => rfl

theorem violation?_handle {r : Reference} (hr : r.table? = none) (root : ScopeId) (t : Scope)
    (before : List Reference) :
    r.violation? root t before =
      if (t.slot? r.id).isNone then some (.scope (.unknownCriteria r.id)) else none := by
  cases r with
  | source => cases hr
  | owner id => rfl
  | correlated id => rfl

def Passed (root : ScopeId) (s t : Scope) (before : List Reference) (placed : List (CriteriaId × String))
    (r : Reference) (rest : List Reference) : Prop :=
  (∃ e u, r.violation? root t before = some e ∧
    drawAliases root placed s (r :: rest) = (.error e, u) ∧ s.Aliased u) ∨
  ∃ next, r.violation? root t before = none ∧
    drawAliases root placed s (r :: rest) = drawAliases root next (s.withAlias r.id) rest ∧
    Placed (s.withAlias r.id) (before ++ [r]) next

theorem passed_handle {r : Reference} (hr : r.table? = none) (root : ScopeId) (rest : List Reference)
    (hp : Placed s before placed) (ht : (s.withAlias r.id).Aliased t) :
    Passed root s t before placed r rest := by
  have hst := (s.aliased_withAlias r.id).trans ht
  have hslot : (t.slot? r.id).isNone = (s.slot? r.id).isNone := by
    simp only [← Option.not_isSome, hst.isSome_slot?]
  unfold Passed
  rw [drawAliases_handle hr, violation?_handle hr, hslot]
  rcases s.aliasWhileHeld_cases r.id with ⟨hnone, herr⟩ | ⟨a, u, hu, hsome, haliased, -⟩
  · left
    exact ⟨_, s, by rw [hnone]; rfl, by rw [herr], .refl s⟩
  · right
    have hwith : s.withAlias r.id = u := by simp [Scope.withAlias, hu]
    refine ⟨placed, ?_, by rw [hu, hwith], hwith ▸ (hp.aliased haliased).other hr⟩
    rw [← Option.not_isSome, hsome]
    rfl

theorem passed_source (scope : ScopeId) (id : CriteriaId) (qualify : Option Bool) (joined : Bool)
    (root : ScopeId) (rest : List Reference) (hp : Placed s before placed)
    (ht : (s.withAlias id).Aliased t) :
    Passed root s t before placed (.source scope id qualify joined) rest := by
  have hst := (s.aliased_withAlias id).trans ht
  unfold Passed
  rw [drawAliases, Reference.violation?]
  by_cases hscope : scope ≠ root
  · exact .inl ⟨_, s, by rw [if_pos hscope], by rw [if_pos hscope], .refl s⟩
  by_cases hdup : id ∈ tables before
  · refine .inl ⟨.duplicateCriteria id, s, by rw [if_neg hscope, if_pos hdup], ?_, .refl s⟩
    rw [if_neg hscope, if_pos ((hp.any_id id).mpr hdup)]
  rw [if_neg hscope, if_neg hscope, if_neg (mt (hp.any_id id).mp hdup), if_neg hdup]
  rcases s.aliasWhileHeld_cases id with ⟨hnone, herr⟩ | ⟨a, u, hu, -, haliased, ha⟩
  · have hunknown : t.slot? id = none := by
      rw [← Option.isNone_iff_eq_none, ← Option.not_isSome, hst.isSome_slot?, hnone]
      rfl
    exact .inl ⟨_, s, by rw [Scope.alias?, hunknown]; rfl, by rw [herr], .refl s⟩
  have hwith : s.withAlias id = u := by simp [Scope.withAlias, hu]
  have hlast : t.alias? id = some a := ht.alias? (by rw [hwith, ha])
  have hcollides := (hp.aliased hst).any_alias a
  rw [hu, hlast]
  by_cases hcollision : placed.any (·.2 == a) = true
  · exact .inl ⟨_, u, if_pos (hcollides.mp hcollision), if_pos hcollision, haliased⟩
  · refine .inr ⟨(id, a) :: placed, if_neg (mt hcollides.mpr hcollision), ?_, ?_⟩
    · exact (if_neg hcollision).trans (by rw [Reference.id, hwith])
    · rw [Reference.id, hwith]
      exact (hp.aliased haliased).source scope qualify joined ha

theorem passed (root : ScopeId) (r : Reference) (rest : List Reference) (hp : Placed s before placed)
    (ht : (s.withAlias r.id).Aliased t) : Passed root s t before placed r rest := by
  cases r with
  | source scope id qualify joined => exact passed_source scope id qualify joined root rest hp ht
  | owner id => exact passed_handle rfl root rest hp ht
  | correlated id => exact passed_handle rfl root rest hp ht

theorem drawAliases_spec (root : ScopeId) (references : List Reference) (hp : Placed s before placed) :
    (drawAliases root placed s references).1 =
      verdict (referenceViolations root (s.settle references) before references) ∧
    s.Aliased (drawAliases root placed s references).2 ∧
    (referenceViolations root (s.settle references) before references = [] →
      (drawAliases root placed s references).2 = s.settle references) := by
  induction references generalizing s before placed with
  | nil => exact ⟨rfl, .refl s, fun _ => rfl⟩
  | cons r rest ih =>
      have hsettle : s.settle (r :: rest) = (s.withAlias r.id).settle rest := rfl
      have ht := (s.withAlias r.id).aliased_settle rest
      rw [hsettle, referenceViolations]
      rcases passed root r rest hp ht with ⟨e, u, hviolation, hdraw, hu⟩ | ⟨next, hnone, hdraw, hnext⟩
      · rw [hviolation, hdraw]
        exact ⟨rfl, hu, fun h => by cases h⟩
      · rw [hnone, hdraw]
        obtain ⟨hresult, haliased, hstate⟩ := ih hnext
        exact ⟨hresult, (s.aliased_withAlias r.id).trans haliased, hstate⟩

end Drawing

end QueryCriteria
