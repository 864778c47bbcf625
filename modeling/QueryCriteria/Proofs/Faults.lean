import QueryCriteria.Proofs.Compilation

namespace QueryCriteria

def Reference.scope? : Reference → Option ScopeId
  | .source scope _ _ _ => some scope
  | _ => none

theorem Reference.scope?_eq_none {r : Reference} (h : r.table? = none) : r.scope? = none := by
  cases r with
  | source scope id qualify joined => cases h
  | owner id => rfl
  | correlated id => rfl

structure InOrder (root : ScopeId) (t : Scope) (before refs : List Reference) : Prop where
  scope : ∀ r ∈ refs, ∀ scope ∈ r.scope?, scope = root
  handle : ∀ r ∈ refs, r.table? = none → (t.slot? r.id).isSome
  known : ∀ r ∈ refs, ∀ id ∈ r.table?, (t.alias? id).isSome
  ids : (tables (before ++ refs)).Nodup
  aliases : ((tables (before ++ refs)).map t.alias?).Nodup

section Violations

variable {root : ScopeId} {t : Scope} {before : List Reference}

theorem violation?_eq_none_iff {r : Reference} :
    r.violation? root t before = none ↔
      (∀ scope ∈ r.scope?, scope = root) ∧ (r.table? = none → (t.slot? r.id).isSome) ∧
        ∀ id ∈ r.table?, (t.alias? id).isSome ∧ id ∉ tables before ∧
          t.alias? id ∉ (tables before).map t.alias? := by
  cases r with
  | owner id =>
      simp [Reference.violation?, Reference.scope?, Reference.table?, Reference.id,
        Option.isSome_iff_ne_none]
  | correlated id =>
      simp [Reference.violation?, Reference.scope?, Reference.table?, Reference.id,
        Option.isSome_iff_ne_none]
  | source scope id qualify joined =>
      simp only [Reference.violation?, Reference.scope?, Reference.table?]
      by_cases hscope : scope = root
      · by_cases hid : id ∈ tables before
        · simp [hscope, hid]
        · cases ha : t.alias? id with
          | none => simp [hscope, hid, ha]
          | some a => simp [hscope, hid, ha]
      · simp [hscope]

theorem nodup_tables_append {r : Reference} (h : r.violation? root t before = none) :
    ((tables (before ++ [r])).Nodup ↔ (tables before).Nodup) ∧
      (((tables (before ++ [r])).map t.alias?).Nodup ↔ ((tables before).map t.alias?).Nodup) := by
  obtain ⟨-, -, hnew⟩ := violation?_eq_none_iff.mp h
  rw [tables_append]
  cases htable : r.table? with
  | none => simp [htable]
  | some id =>
      obtain ⟨-, hid, halias⟩ := hnew id htable
      have hlast : tables [r] = [id] := by simp [htable]
      rw [hlast, List.map_append, List.map_singleton, ← List.concat_eq_append,
        ← List.concat_eq_append, List.nodup_concat, List.nodup_concat]
      exact ⟨and_iff_right hid, and_iff_right halias⟩

theorem inOrder_cons {r : Reference} {rest : List Reference} :
    InOrder root t before (r :: rest) ↔
      r.violation? root t before = none ∧ InOrder root t (before ++ [r]) rest := by
  have hassoc : before ++ r :: rest = before ++ [r] ++ rest := List.append_cons ..
  constructor
  · intro h
    refine ⟨violation?_eq_none_iff.mpr ⟨h.scope r (by simp), h.handle r (by simp), ?_⟩, ?_⟩
    · intro id hid
      have htables : tables (before ++ r :: rest) = tables before ++ id :: tables rest := by
        rw [tables_append, tables_cons, Option.mem_def.mp hid]
        rfl
      have hids := h.ids
      have haliases := h.aliases
      rw [htables, List.nodup_middle, List.nodup_cons] at hids
      rw [htables, List.map_append, List.map_cons, List.nodup_middle, List.nodup_cons] at haliases
      exact ⟨h.known r (by simp) id hid, mt (List.mem_append_left _) hids.1,
        mt (List.mem_append_left _) haliases.1⟩
    · exact
        { scope := fun r hr => h.scope r (List.mem_cons_of_mem _ hr)
          handle := fun r hr => h.handle r (List.mem_cons_of_mem _ hr)
          known := fun r hr => h.known r (List.mem_cons_of_mem _ hr)
          ids := hassoc ▸ h.ids
          aliases := hassoc ▸ h.aliases }
  · rintro ⟨hviolation, h⟩
    obtain ⟨hscope, hhandle, hnew⟩ := violation?_eq_none_iff.mp hviolation
    exact
      { scope := List.forall_mem_cons.mpr ⟨hscope, h.scope⟩
        handle := List.forall_mem_cons.mpr ⟨hhandle, h.handle⟩
        known := List.forall_mem_cons.mpr ⟨fun id hid => (hnew id hid).1, h.known⟩
        ids := hassoc ▸ h.ids
        aliases := hassoc ▸ h.aliases }

theorem referenceViolations_eq_nil_iff (refs : List Reference) :
    (referenceViolations root t before refs = [] ∧ (tables before).Nodup ∧
      ((tables before).map t.alias?).Nodup) ↔ InOrder root t before refs := by
  induction refs generalizing before with
  | nil =>
      constructor
      · rintro ⟨-, hids, haliases⟩
        exact ⟨by simp, by simp, by simp, by simpa using hids, by simpa using haliases⟩
      · intro h
        exact ⟨rfl, by simpa using h.ids, by simpa using h.aliases⟩
  | cons r rest ih =>
      rw [inOrder_cons, ← ih, referenceViolations, List.append_eq_nil_iff, Option.toList_eq_nil_iff]
      constructor
      · rintro ⟨⟨hviolation, hrest⟩, hids, haliases⟩
        obtain ⟨hids', haliases'⟩ := nodup_tables_append hviolation
        exact ⟨hviolation, hrest, hids'.mpr hids, haliases'.mpr haliases⟩
      · rintro ⟨hviolation, hrest, hids, haliases⟩
        obtain ⟨hids', haliases'⟩ := nodup_tables_append hviolation
        exact ⟨⟨hviolation, hrest⟩, hids'.mp hids, haliases'.mp haliases⟩

end Violations

structure Resolved (s : Scope) (c : Criteria) : Prop where
  scope : ∀ m ∈ c.members, m.scope = c.scope
  registered : ∀ m ∈ c.members, (s.slot? m.id).isSome
  ids : (c.members.map Criteria.id).Nodup
  aliases : (c.members.map fun m => (s.settled c).alias? m.id).Nodup
  handles : ∀ p ∈ c.conditions, ∀ id ∈ p.handles, (s.slot? id).isSome

namespace Scope

theorem isSome_slot?_settled (s : Scope) (c : Criteria) (id : CriteriaId) :
    ((s.settled c).slot? id).isSome = (s.slot? id).isSome :=
  (s.aliased_settled c).isSome_slot? id

theorem isSome_alias?_settled {s : Scope} {c m : Criteria} (hm : m ∈ c.members) :
    ((s.settled c).alias? m.id).isSome ↔ (s.slot? m.id).isSome := by
  rw [← s.isSome_slot?_settled c m.id]
  constructor
  · intro h
    obtain ⟨a, ha⟩ := Option.isSome_iff_exists.mp h
    obtain ⟨slot, hslot, -⟩ := Option.bind_eq_some_iff.mp ha
    exact Option.isSome_iff_exists.mpr ⟨slot, hslot⟩
  · intro h
    have hmem : m.ownReference ∈ c.references := mem_references.mpr (.inl ⟨m, hm, rfl⟩)
    rw [s.isSome_slot?_settled] at h
    exact isSome_alias?_settle hmem h

theorem referenceFaults_eq_nil_iff (s : Scope) (c : Criteria) :
    s.referenceFaults c = [] ↔ Resolved s c := by
  have horder : s.referenceFaults c = [] ↔ InOrder c.scope (s.settled c) [] c.references := by
    rw [← referenceViolations_eq_nil_iff]
    simp [referenceFaults]
  have htables : tables ([] ++ c.references) = c.members.map Criteria.id := tables_references c
  rw [horder]
  constructor
  · intro h
    have hmem : ∀ m ∈ c.members, m.ownReference ∈ c.references := fun m hm =>
      mem_references.mpr (.inl ⟨m, hm, rfl⟩)
    refine ⟨fun m hm => h.scope _ (hmem m hm) _ rfl, fun m hm => ?_, htables ▸ h.ids, ?_,
      fun p hp id hid => ?_⟩
    · exact (isSome_alias?_settled hm).mp (h.known _ (hmem m hm) _ rfl)
    · have haliases := h.aliases
      rwa [htables, List.map_map] at haliases
    · rw [← map_id_ownReferences] at hid
      obtain ⟨r, hr, rfl⟩ := List.mem_map.mp hid
      rw [← s.isSome_slot?_settled c]
      exact h.handle r (mem_references.mpr (.inr ⟨p, hp, hr⟩)) (handle_of_mem_ownReferences hr)
  · intro h
    refine ⟨fun r hr => ?_, fun r hr htable => ?_, fun r hr => ?_, htables ▸ h.ids, ?_⟩
    · rcases mem_references.mp hr with ⟨m, hm, rfl⟩ | ⟨p, hp, hr⟩
      · rintro scope hscope
        cases hscope
        exact h.scope m hm
      · simp [Reference.scope?_eq_none (handle_of_mem_ownReferences hr)]
    · rcases mem_references.mp hr with ⟨m, hm, rfl⟩ | ⟨p, hp, hr⟩
      · cases htable
      · rw [s.isSome_slot?_settled]
        exact h.handles p hp _ (map_id_ownReferences p ▸ List.mem_map_of_mem hr)
    · rcases mem_references.mp hr with ⟨m, hm, rfl⟩ | ⟨p, hp, hr⟩
      · rintro id hid
        cases hid
        exact (isSome_alias?_settled hm).mpr (h.registered m hm)
      · simp [handle_of_mem_ownReferences hr]
    · rw [htables, List.map_map]
      exact h.aliases

end Scope

end QueryCriteria
