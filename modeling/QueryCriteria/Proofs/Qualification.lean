import QueryCriteria.Proofs.ColumnUses
import QueryCriteria.Proofs.Sources
import QueryCriteria.Proofs.WellFormed

namespace QueryCriteria

open Fragment

def Predicate.isColumnEqual : Predicate → Bool
  | .test _ t => t.isColumnEqual
  | _ => false

namespace Criteria

def Correlates (c : Criteria) : Prop :=
  c.participants ≠ [] ∨ ∃ p ∈ c.conditions, p.isColumnEqual = true

def Qualifies (c : Criteria) (mode : QualifyMode) (id : CriteriaId) : Prop :=
  (∃ m ∈ c.members, m.id = id ∧ m.node.qualify = some true) ∨
    (∀ m ∈ c.members, m.id = id → m.node.qualify = none) ∧
      (mode = .always ∨ mode = .auto ∧ c.Correlates)

end Criteria

inductive ColumnUse.Written (alias? : CriteriaId → Option String) (qualified : Prop) :
    ColumnUse → String → Prop
  | given {use : ColumnUse} {a : String} : use.tableAlias = some a →
      Written alias? qualified use (a ++ "." ++ use.target.sqlName)
  | raw {use : ColumnUse} {sql : String} : use.tableAlias = none → use.target = .raw sql →
      Written alias? qualified use sql
  | prefixed {use : ColumnUse} {column : Model.Column} {a : String} : use.tableAlias = none →
      use.target = .resolved column → qualified → alias? use.owner = some a →
        Written alias? qualified use (a ++ "." ++ column.name)
  | bare {use : ColumnUse} {column : Model.Column} : use.tableAlias = none →
      use.target = .resolved column → ¬ qualified → Written alias? qualified use column.name

theorem written_of_failure? {ctx : Context} {use : ColumnUse} (h : use.failure? ctx = none) :
    use.Written ctx.alias? (use.correlated = true ∨ ctx.qualifies use.owner = true) (use.text ctx) := by
  cases halias : use.tableAlias with
  | some a =>
      have htext : use.text ctx = a ++ "." ++ use.target.sqlName := by
        simp [ColumnUse.text, ColumnUse.qualifier?, halias]
      rw [htext]
      exact .given halias
  | none =>
      cases htarget : use.target with
      | raw sql =>
          have htext : use.text ctx = sql := by
            simp [ColumnUse.text, ColumnUse.qualifier?, ColumnUse.needsOwner, halias, htarget,
              Target.isRaw, Target.sqlName]
          rw [htext]
          exact .raw halias htarget
      | resolved column =>
          have hneeds : use.needsOwner ctx = true ↔
              use.correlated = true ∨ ctx.qualifies use.owner = true := by
            simp [ColumnUse.needsOwner, halias, htarget, Target.isRaw]
          by_cases hqualified : use.correlated = true ∨ ctx.qualifies use.owner = true
          · have hneeded := hneeds.mpr hqualified
            cases ha : ctx.alias? use.owner with
            | none => simp [ColumnUse.failure?, hneeded, ha] at h
            | some a =>
                have htext : use.text ctx = a ++ "." ++ column.name := by
                  simp [ColumnUse.text, ColumnUse.qualifier?, halias, hneeded, ha, htarget, Target.sqlName]
                rw [htext]
                exact .prefixed halias htarget hqualified ha
          · have hfree : use.needsOwner ctx = false := by
              rw [← Bool.not_eq_true, hneeds]
              exact hqualified
            have htext : use.text ctx = column.name := by
              simp [ColumnUse.text, ColumnUse.qualifier?, halias, hfree, htarget, Target.sqlName]
            rw [htext]
            exact .bare halias htarget hqualified

theorem ColumnUse.Written.congr {alias? : CriteriaId → Option String} {p q : Prop} {use : ColumnUse}
    {text : String} (h : use.Written alias? p text) (hpq : p ↔ q) : use.Written alias? q text := by
  rwa [← propext hpq]

section Mode

variable {c : Criteria}

theorem any_correlates_references (c : Criteria) :
    c.references.any Reference.correlates = true ↔ c.Correlates := by
  have hjoined : (∃ m ∈ c.members, m.joins ≠ []) ↔ c.participants ≠ [] := by
    rw [Criteria.participants, gather_criteria, ne_eq, List.flatMap_eq_nil_iff]
    simp
  have hequal : ∀ p : Predicate, (∃ r ∈ p.ownReferences, r.correlates = true) ↔ p.isColumnEqual = true := by
    intro p
    have hhead : ∀ head : Predicate.Head, ¬ ∃ r ∈ head.references, r.correlates = true := by
      rintro head ⟨r, hr, hcorrelates⟩
      obtain ⟨id, -, rfl⟩ := List.mem_map.mp hr
      cases hcorrelates
    cases p with
    | test head t =>
        cases t with
        | columnEqual other =>
            exact iff_of_true ⟨.correlated other.criteria, List.mem_append_right _ (List.mem_singleton_self _),
              rfl⟩ rfl
        | _ =>
            refine iff_of_false ?_ Bool.false_ne_true
            rintro ⟨r, hr, hcorrelates⟩
            exact hhead head ⟨r, (List.mem_append.mp hr).resolve_right List.not_mem_nil, hcorrelates⟩
    | existence head negated query => exact iff_of_false (hhead head) Bool.false_ne_true
    | subquery head op query => exact iff_of_false (hhead head) Bool.false_ne_true
    | nested head negated children => exact iff_of_false (hhead head) Bool.false_ne_true
  rw [List.any_eq_true, Criteria.Correlates, ← hjoined]
  simp only [mem_references]
  constructor
  · rintro ⟨r, ⟨m, hm, rfl⟩ | ⟨p, hp, hown⟩, hr⟩
    · exact .inl ⟨m, hm, by simpa [Criteria.ownReference, Reference.correlates] using hr⟩
    · exact .inr ⟨p, hp, (hequal p).mp ⟨r, hown, hr⟩⟩
  · rintro (⟨m, hm, hne⟩ | ⟨p, hp, heq⟩)
    · exact ⟨m.ownReference, .inl ⟨m, hm, rfl⟩, by
        simpa [Criteria.ownReference, Reference.correlates] using hne⟩
    · obtain ⟨r, hown, hr⟩ := (hequal p).mpr heq
      exact ⟨r, .inr ⟨p, hp, hown⟩, hr⟩

theorem mem_overrides_iff {id : CriteriaId} {qualify : Bool} :
    (id, qualify) ∈ c.references.filterMap Reference.override? ↔
      ∃ m ∈ c.members, m.id = id ∧ m.node.qualify = some qualify := by
  simp only [List.mem_filterMap, mem_references]
  constructor
  · rintro ⟨r, ⟨m, hm, rfl⟩ | ⟨p, -, hown⟩, hr⟩
    · cases hqualify : m.node.qualify with
      | none => simp [Criteria.ownReference, hqualify, Reference.override?] at hr
      | some q =>
          simp only [Criteria.ownReference, hqualify, Reference.override?, Option.some.injEq,
            Prod.mk.injEq] at hr
          exact ⟨m, hm, hr.1, by rw [hqualify, hr.2]⟩
    · have htable := handle_of_mem_ownReferences hown
      cases r <;> simp_all [Reference.table?, Reference.override?]
  · rintro ⟨m, hm, rfl, hqualify⟩
    exact ⟨m.ownReference, .inl ⟨m, hm, rfl⟩, by simp [Criteria.ownReference, hqualify, Reference.override?]⟩

theorem qualifies_iff (hids : (c.members.map Criteria.id).Nodup) (mode : QualifyMode) (id : CriteriaId) :
    qualifies mode c.references id = true ↔ c.Qualifies mode id := by
  have hmode : mode.qualifies c.references = true ↔ mode = .always ∨ mode = .auto ∧ c.Correlates := by
    cases mode <;> simp [QualifyMode.qualifies, ← any_correlates_references]
  unfold qualifies Criteria.Qualifies
  cases hlookup : (c.references.filterMap Reference.override?).lookup id with
  | none =>
      have hnone : ∀ m ∈ c.members, m.id = id → m.node.qualify = none := by
        intro m hm hid
        cases hqualify : m.node.qualify with
        | none => rfl
        | some qualify =>
            have hkey := List.lookup_eq_none_iff.mp hlookup _ (mem_overrides_iff.mpr ⟨m, hm, hid, hqualify⟩)
            simp at hkey
      have hno : ¬ ∃ m ∈ c.members, m.id = id ∧ m.node.qualify = some true := by
        rintro ⟨m, hm, hid, hqualify⟩
        rw [hnone m hm hid] at hqualify
        cases hqualify
      simp only [Option.getD_none, hmode, hno, false_or]
      exact ⟨fun h => ⟨hnone, h⟩, And.right⟩
  | some qualify =>
      obtain ⟨before, after, hsplit, -⟩ := List.lookup_eq_some_iff.mp hlookup
      have hmem : (id, qualify) ∈ c.references.filterMap Reference.override? := by simp [hsplit]
      obtain ⟨m, hm, hid, hqualify⟩ := mem_overrides_iff.mp hmem
      have honly : ∀ n ∈ c.members, n.id = id → n.node.qualify = some qualify := by
        intro n hn hnid
        rw [List.inj_on_of_nodup_map hids hn hm (hnid.trans hid.symm), hqualify]
      constructor
      · rintro rfl
        exact .inl ⟨m, hm, hid, hqualify⟩
      · rintro (⟨n, hn, hnid, htrue⟩ | ⟨hnone, -⟩)
        · rw [honly n hn hnid] at htrue
          exact Option.some.inj htrue
        · rw [hnone m hm hid] at hqualify
          cases hqualify

end Mode

theorem written_of_traced {s u : Scope} {c : Criteria} {compiled : Compiled}
    (h : s.compile c = (.ok compiled, u)) {cs : Clauses (Traced (u.context c.references))}
    (hfragments : cs.map Traced.fragment = c.statementDraft) {x : Traced (u.context c.references)}
    (hx : x ∈ cs.bindingOrder) {use : ColumnUse} (huse : x.fragment = .column use) :
    ∃ text, x.part = .text text ∧ use.Written u.alias?
      (use.correlated = true ∨ (u.context c.references).qualifies use.owner = true) text := by
  refine ⟨use.text (u.context c.references), ?_,
    written_of_failure? (failure?_of_traced h hfragments hx huse)⟩
  have hagrees := x.agrees
  rw [huse] at hagrees
  cases hpart : x.part with
  | text s => simpa [hpart, Piece.map, Fragment.piece] using hagrees
  | hole p => simp [hpart, Piece.map, Fragment.piece] at hagrees

theorem columns_qualified {s u : Scope} {c : Criteria} {compiled : Compiled}
    (h : s.compile c = (.ok compiled, u)) :
    ∃ cs : Clauses (Traced (u.context c.references)),
      cs.map Traced.part = compiled.clauses ∧ cs.map Traced.fragment = c.statementDraft ∧
        cs.statement.map Traced.part = compiled.statementParts ∧
        c.statementDraft.statement.filterMap Fragment.column? = c.columnUses false ∧
        ∀ x ∈ cs.bindingOrder, ∀ use, x.fragment = .column use → ∃ text, x.part = .text text ∧
          use.Written u.alias? (use.correlated = true ∨ c.Qualifies s.config.qualify use.owner) text := by
  obtain ⟨cs, hparts, hfragments, hstatement⟩ := exists_traced h
  obtain ⟨-, hfaults, hfailure, -, -⟩ := Scope.compile_eq_ok h
  have hids := ((s.referenceFaults_eq_nil_iff c).mp hfaults).ids
  have hconfig : u.config = s.config := by rw [← s.config_compile c, h]
  refine ⟨cs, hparts, hfragments, hstatement,
    column?_statementDraft (Fragment.accepted_of_firstFailure? hfailure), fun x hx use huse => ?_⟩
  have hqualifies : (u.context c.references).qualifies use.owner = true ↔
      c.Qualifies s.config.qualify use.owner := by
    rw [← hconfig]
    exact qualifies_iff hids _ _
  obtain ⟨text, hpart, hwritten⟩ := written_of_traced h hfragments hx huse
  exact ⟨text, hpart, hwritten.congr (or_congr_right hqualifies)⟩

def age : Target := .resolved { name := "age", property := "age" }

def ofStaff : Predicate :=
  .test { matched := .standard, target := some (.resolved { name := "staff_id", property := "staff" }) }
    (.columnEqual { criteria := ⟨0⟩, target := .resolved { name := "id", property := "id" } })

def rosterTree : Criteria :=
  .mk (member 0 "staff")
    [.test { matched := .standard, target := some age } (.compare .gt (.int 30)),
      .existence {} true (.mk (member 1 "tasks") [.nested {} false [ofStaff]] [])] []

def rosterScope : Scope :=
  { Scope.fresh {} {} with
    slots := ["staff", "tasks"].map fun table => { entity := { name := table, table }, parent := none } }

theorem roster_age_qualified :
    ∃ compiled u, rosterScope.compile rosterTree = (.ok compiled, u) ∧
      ∃ cs : Clauses (Traced (u.context rosterTree.references)), cs.map Traced.part = compiled.clauses ∧
        ∀ x ∈ cs.bindingOrder, x.fragment = .column { owner := ⟨0⟩, target := age } →
          x.part = .text "t1.age" := by
  have hqualifies : rosterTree.Qualifies .auto ⟨0⟩ :=
    .inr ⟨by decide, .inr ⟨rfl, .inr ⟨ofStaff, by simp [rosterTree, ofStaff], rfl⟩⟩⟩
  obtain ⟨compiled, u, h, hstaff⟩ : ∃ compiled u, rosterScope.compile rosterTree = (.ok compiled, u) ∧
      u.alias? ⟨0⟩ = some "t1" := ⟨_, _, rfl, rfl⟩
  obtain ⟨cs, hparts, -, -, -, hcolumns⟩ := columns_qualified h
  refine ⟨compiled, u, h, cs, hparts, fun x hx hage => ?_⟩
  obtain ⟨text, hpart, hwritten⟩ := hcolumns x hx _ hage
  cases hwritten with
  | given halias => cases halias
  | raw _ htarget => cases htarget
  | prefixed _ htarget _ hown =>
      cases htarget
      cases hstaff.symm.trans hown
      exact hpart
  | bare _ _ hplain => exact absurd (.inr hqualifies) hplain

end QueryCriteria
