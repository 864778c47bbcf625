import QueryCriteria.Proofs.CompileFrame
import QueryCriteria.Proofs.Conditions
import QueryCriteria.Proofs.Session

namespace QueryCriteria

open QueryCriteria.Calendar QueryCriteria.Model

theorem map_eq_error {ε α β : Type} {x : Except ε α} {f : α → β} {e : ε} :
    x.map f = .error e ↔ x = .error e := by
  cases x <;> simp [Except.map]

theorem mapError_skipped_ne_unwritable {α : Type} (x : Except SkipReason α) :
    x.mapError Refusal.skipped ≠ .error .unwritable := by
  cases x <;> simp [Except.mapError]

section Texts

variable {v : Value} {value : Option Value}

theorem scalar_eq_ok_iff {missing : SkipReason} :
    scalar missing value = .ok v ↔ value = some v ∧ v.isNull = false ∧ v.isList = false := by
  cases value with
  | none => simp [scalar]
  | some u =>
      have hkept : scalar missing (some u) = .ok v ↔ u = v ∧ u.isNull = false ∧ u.isList = false := by
        cases u <;> simp [scalar, Value.isNull, Value.isList, Value.tag]
      rw [hkept, Option.some.injEq]
      constructor
      · rintro ⟨rfl, hkind⟩
        exact ⟨rfl, hkind⟩
      · rintro ⟨rfl, hkind⟩
        exact ⟨rfl, hkind⟩

theorem write?_eq_none_iff {t : Timestamp} : Rfc3339.write? t = none ↔ ¬ Rfc3339.Writable t := by
  unfold Rfc3339.write?
  split
  · next hwritable => simp [hwritable]
  · next hwritable => simp [hwritable]

theorem display?_eq_none_iff (hv : v.isList = false) :
    v.display? = none ↔ ∃ t, v = .timestamp t ∧ ¬ Rfc3339.Writable t := by
  cases v with
  | timestamp t => simp [Value.display?, write?_eq_none_iff]
  | list items => cases hv
  | _ => simp [Value.display?]

theorem fuzzyText_eq_unwritable_iff :
    fuzzyText value = .error .unwritable ↔
      ∃ t, value = some (.timestamp t) ∧ ¬ Rfc3339.Writable t := by
  unfold fuzzyText
  split
  · next reason hscalar =>
    constructor
    · intro h
      cases h
    · rintro ⟨t, rfl, -⟩
      cases hscalar
  · next v hscalar =>
    obtain ⟨rfl, -, hlist⟩ := scalar_eq_ok_iff.mp hscalar
    split
    · next htext =>
      obtain ⟨t, rfl, hwritable⟩ := (display?_eq_none_iff hlist).mp htext
      exact iff_of_true rfl ⟨t, rfl, hwritable⟩
    · next text htext =>
      refine iff_of_false ?_ ?_
      · split <;> simp
      · rintro ⟨t, ht, hwritable⟩
        have hnone := (display?_eq_none_iff hlist).mpr ⟨t, Option.some.inj ht, hwritable⟩
        simp [htext] at hnone

end Texts

namespace Condition

variable {entities : EntityLookup}

def Unmatchable (entities : EntityLookup) (c : Condition) : Prop :=
  (∃ target, c.head.resolve entities = .ok target) ∧
    ∃ op t wildcard escape, c.body = .fuzzy op (some (.timestamp t)) wildcard escape ∧
      ¬ Rfc3339.Writable t

theorem headTest_eq_unwritable_iff {head : Head} {form : Except Refusal Test} :
    head.test entities form = .error .unwritable ↔
      (∃ target, head.resolve entities = .ok target) ∧ form = .error .unwritable := by
  have hresolve : head.resolve entities ≠ .error .unwritable := mapError_skipped_ne_unwritable _
  unfold Head.test
  cases hcolumn : head.resolve entities with
  | error e => simpa [hcolumn] using hresolve
  | ok target => cases form <;> simp

theorem templateColumn_ne_unwritable (head : Head) :
    head.templateColumn entities ≠ .error .unwritable := by
  unfold Head.templateColumn
  split
  · simp
  · rw [Ne, map_eq_error]
    exact mapError_skipped_ne_unwritable _

theorem build_eq_unwritable_iff (c : Condition) :
    c.build entities = .error .unwritable ↔ c.Unmatchable entities := by
  obtain ⟨head, body⟩ := c
  -- The test of any other body is formed from reasons to skip alone.
  have hskips : ∀ form : Except SkipReason Test,
      head.test entities (form.mapError .skipped) ≠ .error .unwritable := fun form h =>
    mapError_skipped_ne_unwritable form (headTest_eq_unwritable_iff.mp h).2
  cases body with
  | fuzzy op text wildcard escape =>
      simp only [build, headTest_eq_unwritable_iff, map_eq_error, fuzzyText_eq_unwritable_iff, Unmatchable]
      simp
  | compare op value => simp [build, Unmatchable, hskips]
  | range op values => simp [build, Unmatchable, hskips]
  | between op low high => simp [build, Unmatchable, hskips]
  | columnEqual other => simp [build, Unmatchable, hskips]
  | nullable op => simp [build, Unmatchable, headTest_eq_unwritable_iff]
  | template text args =>
      simp only [build, Unmatchable]
      split
      · simp
      · simp [map_eq_error, templateColumn_ne_unwritable]
  | existence negated query => cases query <;> simp [build, Unmatchable]
  | subquery op query =>
      have hresolve : head.resolve entities ≠ .error .unwritable := mapError_skipped_ne_unwritable _
      simp only [build, Unmatchable]
      split <;> simp_all
  | nested negated children => cases children <;> simp [build, Unmatchable]

theorem build_cases (entities : EntityLookup) (c : Condition) :
    c.Unmatchable entities ∨ (∃ p, c.build entities = .ok p) ∨
      ∃ reason, c.build entities = .error (.skipped reason) := by
  cases hbuild : c.build entities with
  | ok p => exact .inr (.inl ⟨p, rfl⟩)
  | error refusal =>
      cases refusal with
      | skipped reason => exact .inr (.inr ⟨reason, rfl⟩)
      | unwritable => exact .inl ((build_eq_unwritable_iff c).mp hbuild)

end Condition

theorem add_eq_unwritable_iff {entities : EntityLookup} {c : Criteria} {a : Addition} :
    c.add entities a = .error .unwritable ↔
      ∃ condition, a = .condition condition ∧ (condition.adopt c.owner).Unmatchable entities := by
  cases a with
  | condition condition =>
      simp [Criteria.add, map_eq_error, Condition.build_eq_unwritable_iff]
  | _ => simp [Criteria.add, mapError_skipped_ne_unwritable]

namespace Workspace

theorem add_eq_none_iff {w : Workspace} {c : Criteria} {a : Addition} :
    (w.add c a).1 = none ↔
      ∃ condition, a = .condition condition ∧ (condition.adopt c.owner).Unmatchable w.entities := by
  rw [← add_eq_unwritable_iff]
  unfold add
  split <;> simp_all

theorem verdict_compile (w : Workspace) (c : Criteria) :
    let s := w.scope c.scope
    (w.compile c).1.map (fun _ => ()) =
      if s.frozen then .error .scopeBusy
      else verdict (s.referenceFaults c ++ c.renderFaults (s.settledContext c)) := by
  intro s
  rw [result_compile]
  cases hfrozen : s.frozen with
  | true => rw [Scope.compile_of_frozen hfrozen]; rfl
  | false => exact Scope.compile_verdict hfrozen c

end Workspace

theorem ends_unless_unmatchable (w : Workspace) (c : Criteria) (a : Addition) :
    (∀ condition : Condition,
      (w.buildCondition condition = .error .unwritable ↔ condition.Unmatchable w.entities) ∧
        (¬ condition.Unmatchable w.entities →
          (∃ p, w.buildCondition condition = .ok p) ∨
            ∃ reason, w.buildCondition condition = .error (.skipped reason))) ∧
    ((w.add c a).1 = none ↔
      ∃ condition, a = .condition condition ∧ (condition.adopt c.owner).Unmatchable w.entities) ∧
    ∀ d, (w.add c a).1 = some d →
      let v := (w.add c a).2
      let s := v.scope d.scope
      (v.compile d).1.map (fun _ => ()) =
        if s.frozen then .error .scopeBusy
        else verdict (s.referenceFaults d ++ d.renderFaults (s.settledContext d)) := by
  refine ⟨fun condition => ⟨Condition.build_eq_unwritable_iff condition, fun hmatchable => ?_⟩,
    Workspace.add_eq_none_iff, fun d _ => Workspace.verdict_compile _ d⟩
  exact (Condition.build_cases w.entities condition).resolve_left hmatchable

def annal : Entity :=
  { name := "Annal", table := "annals", columns := [{ name := "status", property := "status" }] }

def archive : Workspace :=
  let opened := Workspace.openScope {} {} { entities := [annal] }
  (opened.2.createRoot opened.1 "Annal").2

def antiquity : Timestamp :=
  ⟨⟨-1, 1, by decide, by decide⟩, ⟨0, 0, 0, 0, by decide, by decide, by decide, by decide⟩, .utc⟩

def statusLike (t : Timestamp) : Condition :=
  .onProperty .and "status" (.fuzzy .like (some (.timestamp t)) .both none)

theorem antiquity_not_matched :
    ¬ ∀ (w : Workspace) (c : Criteria) (a : Addition), ∃ d, (w.add c a).1 = some d := by
  intro h
  obtain ⟨d, hd⟩ := h archive (.fresh ⟨0⟩ ⟨0⟩ annal none) (.condition (statusLike antiquity))
  cases hd

theorem annal_grouped_ends :
    (archive.compile ((Criteria.fresh ⟨0⟩ ⟨0⟩ annal none).groupBy
        (.column (.resolved { name := "status", property := "status" })))).1.map (fun _ => ()) = .ok () ∧
      archive.buildCondition ((statusLike antiquity).adopt ⟨⟨0⟩, ⟨0⟩⟩) = .error .unwritable := by
  obtain ⟨hbuild, -, hcompile⟩ :=
    ends_unless_unmatchable archive (.fresh ⟨0⟩ ⟨0⟩ annal none) (.group "status")
  refine ⟨hcompile _ rfl, (hbuild _).1.mpr ⟨⟨_, rfl⟩, _, antiquity, _, _, rfl, by decide⟩⟩

end QueryCriteria
