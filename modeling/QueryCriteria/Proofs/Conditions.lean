import QueryCriteria.Criteria.Addition

namespace QueryCriteria

open QueryCriteria.Model QueryCriteria.Text

theorem map_eq_ok {ε α β : Type} {x : Except ε α} {f : α → β} {b : β} :
    x.map f = .ok b ↔ ∃ a, x = .ok a ∧ f a = b := by
  cases x <;> simp [Except.map]

theorem mapError_eq_ok {ε δ α : Type} {x : Except ε α} {f : ε → δ} {a : α} :
    x.mapError f = .ok a ↔ x = .ok a := by
  cases x with
  | error e => exact ⟨fun h => (by cases h), fun h => (by cases h)⟩
  | ok b =>
      have hkept : (Except.ok b : Except ε α).mapError f = .ok b := rfl
      rw [hkept, Except.ok.injEq, Except.ok.injEq]

section Resolve

def EntityLookup.model? (entities : EntityLookup) (o : Owner) : Option Entity :=
  (entities.entity? o).bind fun entity => (entities.registry o.scope).entity? entity.name

def ColumnSpec.find? (entity : Entity) : ColumnSpec → Option Column
  | .unset => none
  | .property name => if isBlank name then none else entity.property? name
  | .raw _ => none
  | .primaryKey => entity.idColumn?

@[simp]
theorem Condition.Head.target_predicateHead (head : Condition.Head) (target : Target) :
    (head.predicateHead (.ofTarget target)).target = some target := by
  cases target <;> rfl

theorem mem_of_find? {entity : Entity} {column : ColumnSpec} {found : Column}
    (h : column.find? entity = some found) : found ∈ entity.columns := by
  cases column with
  | unset => cases h
  | property name =>
      simp only [ColumnSpec.find?] at h
      split at h
      · cases h
      · exact List.mem_of_find?_eq_some h
  | raw sql => cases h
  | primaryKey => exact List.mem_of_find?_eq_some h

variable {entities : EntityLookup} {owner : Option Owner}

theorem lookUp_found_iff {property : String} {pick : Entity → Option Column} {fault : String → SkipReason}
    {target : Target} :
    ((lookUp entities owner property).bind fun (registry, name) =>
        match (registry.entity? name).bind pick with
        | none => .error (fault name)
        | some column => .ok (Target.resolved column)) = .ok target ↔
      ∃ o entity found, owner = some o ∧ entities.model? o = some entity ∧ pick entity = some found ∧
        target = .resolved found := by
  cases owner with
  | none => simp [lookUp, Except.bind]
  | some o =>
      cases hentity : entities.entity? o with
      | none => simp [lookUp, hentity, EntityLookup.model?, Except.bind]
      | some entity =>
          cases hmodel : (entities.registry o.scope).entity? entity.name with
          | none => simp [lookUp, hentity, hmodel, EntityLookup.model?, Except.bind]
          | some model =>
              cases hpick : pick model <;>
                simp [lookUp, hentity, hmodel, hpick, EntityLookup.model?, Except.bind, eq_comm]

theorem resolve_eq_ok_iff {column : ColumnSpec} {target : Target} :
    column.resolve entities owner = .ok target ↔
      (∃ sql, column = .raw sql ∧ isBlank sql = false ∧ target = .raw sql) ∨
        ∃ o entity found, owner = some o ∧ entities.model? o = some entity ∧
          column.find? entity = some found ∧ target = .resolved found := by
  cases column with
  | unset => simp [ColumnSpec.resolve, ColumnSpec.find?]
  | raw sql =>
      rw [ColumnSpec.resolve]
      cases hblank : isBlank sql <;> simp [ColumnSpec.find?, hblank, @eq_comm _ target]
  | property name =>
      rw [ColumnSpec.resolve]
      cases hblank : isBlank name with
      | true => simp [ColumnSpec.find?, hblank]
      | false =>
          have hfound := @lookUp_found_iff entities owner name (fun entity => entity.property? name)
            (fun entity => .unresolvedProperty entity name) target
          simp only [Bool.false_eq_true, if_false, reduceCtorEq, false_and, exists_false, false_or,
            ColumnSpec.find?, hblank]
          rw [← hfound]
          cases lookUp entities owner name <;> rfl
  | primaryKey =>
      have hfound := @lookUp_found_iff entities owner "id" Entity.idColumn? .unresolvedId target
      simp only [reduceCtorEq, false_and, exists_false, false_or, ColumnSpec.find?]
      rw [← hfound, ColumnSpec.resolve]
      cases lookUp entities owner "id" <;> rfl

end Resolve

namespace Condition

inductive Body.Asks (entities : EntityLookup) : Body → Test → Prop
  | compare {op : CompareOp} {value : Option Value} {v : Value} : scalar .nullValue value = .ok v →
      Asks entities (.compare op value) (.compare op v)
  | range {op : RangeOp} {values : Option Value} {vs : List Value} : collection values = .ok vs →
      Asks entities (.range op values) (.range op vs)
  | between {op : BetweenOp} {low high : Option Value} {l h : Value} :
      scalar .missingBound low = .ok l → scalar .missingBound high = .ok h →
        Asks entities (.between op low high) (.between op l h)
  | fuzzy {op : FuzzyOp} {text : Option Value} {wildcard : Wildcard} {escape : Option Char} {s : String} :
      fuzzyText text = .ok s → Asks entities (.fuzzy op text wildcard escape) (.fuzzy op s wildcard escape)
  | nullable {op : NullOp} : Asks entities (.nullable op) (.nullable op)
  | columnEqual {other : OtherSide} {target : Target} :
      other.column.resolve entities (some other.owner) = .ok target →
        Asks entities (.columnEqual (some other))
          (.columnEqual ⟨other.owner.id, other.tableAlias, target⟩)

inductive Forms (entities : EntityLookup) (head : Head) : Body → Predicate → Prop
  | test {body : Body} {target : Target} {t : Test} : head.resolve entities = .ok target →
      body.Asks entities t → Forms entities head body (.test (head.predicateHead (.ofTarget target)) t)
  | template {text : String} {args : TemplateArgs} {column : Option Target} : isBlank text = false →
      head.templateColumn entities = .ok column →
        Forms entities head (.template text args)
          (.test (head.predicateHead (.immediate text)) (.template args column))
  | existence {negated : Bool} {query : Criteria} :
      Forms entities head (.existence negated (some query))
        (.existence (head.predicateHead .existence) negated query)
  | subquery {op : SubqueryOp} {query : Criteria} {target : Target} : head.resolve entities = .ok target →
      Forms entities head (.subquery op (some query))
        (.subquery (head.predicateHead (.ofTarget target)) op query)
  | nested {negated : Bool} {children : List Predicate} : children ≠ [] →
      Forms entities head (.nested negated children)
        (.nested (head.predicateHead .existence) negated children)

variable {entities : EntityLookup} {head : Head} {body : Body} {p : Predicate}

theorem headTest_eq_ok_iff {form : Except Refusal Test} :
    head.test entities form = .ok p ↔ ∃ target t, head.resolve entities = .ok target ∧ form = .ok t ∧
      head.own (.test (head.predicateHead (.ofTarget target)) t) = p := by
  unfold Head.test
  cases head.resolve entities with
  | error e => simp
  | ok target => cases form <;> simp

theorem resolve_of_templateColumn {column : Option Target} (h : head.templateColumn entities = .ok column) :
    ∀ target ∈ column, head.resolve entities = .ok target := by
  unfold Head.templateColumn at h
  split at h
  · obtain rfl := Except.ok.inj h
    simp
  · obtain ⟨target, htarget, rfl⟩ := map_eq_ok.mp h
    simpa using htarget

theorem betweenTest_eq_ok_iff {op : BetweenOp} {low high : Option Value} {t : Test} :
    betweenTest op low high = .ok t ↔ ∃ l h, scalar .missingBound low = .ok l ∧
      scalar .missingBound high = .ok h ∧ .between op l h = t := by
  unfold betweenTest
  cases scalar .missingBound low with
  | error e => simp
  | ok l => cases scalar .missingBound high <;> simp

theorem forms_of_headTest {form : Except Refusal Test} (hform : ∀ t, form = .ok t → body.Asks entities t)
    (h : head.test entities form = .ok p) : ∃ q, Forms entities head body q ∧ head.own q = p := by
  obtain ⟨target, t, hresolve, ht, rfl⟩ := headTest_eq_ok_iff.mp h
  exact ⟨_, .test hresolve (hform t ht), rfl⟩

theorem exists_forms_of_build (h : (⟨head, body⟩ : Condition).build entities = .ok p) :
    ∃ q, Forms entities head body q ∧ head.own q = p := by
  cases body with
  | compare op value =>
      refine forms_of_headTest (fun t ht => ?_) h
      obtain ⟨v, hv, rfl⟩ := map_eq_ok.mp (mapError_eq_ok.mp ht)
      exact .compare hv
  | range op values =>
      refine forms_of_headTest (fun t ht => ?_) h
      obtain ⟨vs, hvs, rfl⟩ := map_eq_ok.mp (mapError_eq_ok.mp ht)
      exact .range hvs
  | between op low high =>
      refine forms_of_headTest (fun t ht => ?_) h
      obtain ⟨l, h, hlow, hhigh, rfl⟩ := betweenTest_eq_ok_iff.mp (mapError_eq_ok.mp ht)
      exact .between hlow hhigh
  | fuzzy op text wildcard escape =>
      refine forms_of_headTest (fun t ht => ?_) h
      obtain ⟨s, hs, rfl⟩ := map_eq_ok.mp ht
      exact .fuzzy hs
  | nullable op =>
      refine forms_of_headTest (fun t ht => ?_) h
      obtain rfl := Except.ok.inj ht
      exact .nullable
  | columnEqual other =>
      refine forms_of_headTest (fun t ht => ?_) h
      cases other with
      | none => cases ht
      | some other =>
          obtain ⟨target, htarget, rfl⟩ := map_eq_ok.mp (mapError_eq_ok.mp ht)
          exact .columnEqual htarget
  | template text args =>
      simp only [build] at h
      split at h
      · cases h
      · next hblank =>
        obtain ⟨column, hcolumn, rfl⟩ := map_eq_ok.mp h
        exact ⟨_, .template (Bool.eq_false_iff.mpr hblank) hcolumn, rfl⟩
  | existence negated query =>
      cases query with
      | none => cases h
      | some query =>
          obtain rfl := Except.ok.inj h
          exact ⟨_, .existence, rfl⟩
  | subquery op query =>
      simp only [build] at h
      split at h
      · cases h
      · cases h
      · next hresolve =>
        obtain rfl := Except.ok.inj h
        exact ⟨_, .subquery hresolve, rfl⟩
  | nested negated children =>
      simp only [build] at h
      split at h
      · cases h
      · next hne =>
        obtain rfl := Except.ok.inj h
        exact ⟨_, .nested hne, rfl⟩

theorem build_of_forms (h : Forms entities head body q) :
    (⟨head, body⟩ : Condition).build entities = .ok (head.own q) := by
  cases h with
  | test hresolve hasks =>
      have hbuilt {form : Except Refusal Test} {t : Test} (hform : form = .ok t) :=
        headTest_eq_ok_iff.mpr ⟨_, _, hresolve, hform, rfl⟩
      cases hasks with
      | compare hv => exact hbuilt (mapError_eq_ok.mpr (map_eq_ok.mpr ⟨_, hv, rfl⟩))
      | range hvs => exact hbuilt (mapError_eq_ok.mpr (map_eq_ok.mpr ⟨_, hvs, rfl⟩))
      | between hlow hhigh => exact hbuilt (mapError_eq_ok.mpr (betweenTest_eq_ok_iff.mpr ⟨_, _, hlow, hhigh, rfl⟩))
      | fuzzy hs => exact hbuilt (map_eq_ok.mpr ⟨_, hs, rfl⟩)
      | nullable => exact hbuilt rfl
      | columnEqual htarget => exact hbuilt (mapError_eq_ok.mpr (map_eq_ok.mpr ⟨_, htarget, rfl⟩))
  | template hblank hcolumn => simp [build, hblank, hcolumn, Except.map]
  | existence => simp [build]
  | subquery hresolve => simp [build, hresolve]
  | nested => simp [build]

end Condition

section Additions

def Selection.target? : Selection → Option Target
  | .column target _ => some target
  | .native _ _ => none
  | .aggregate _ target _ _ => target

def Grouping.target? : Grouping → Option Target
  | .column target => some target
  | .native _ => none

def OrderItem.target? : OrderItem → Option Target
  | .column target _ => some target
  | .native _ => none

def Model.Entity.Has (e : Entity) (target : Target) : Prop :=
  ∃ column ∈ e.columns, target = .resolved column

def Criteria.Finds (entities : EntityLookup) (c : Criteria) (target : Target) : Prop :=
  ∃ entity, (entities.registry c.scope).entity? c.node.entity.name = some entity ∧ entity.Has target

theorem finds_of_resolve {entities : EntityLookup} {c : Criteria} {property : String} {target : Target}
    (h : c.resolve entities property = .ok target) : c.Finds entities target := by
  unfold Criteria.resolve at h
  split at h
  · cases h
  · split at h
    · cases h
    · next column hcolumn =>
      obtain rfl := Except.ok.inj h
      obtain ⟨entity, hentity, hfound⟩ := Option.bind_eq_some_iff.mp hcolumn
      exact ⟨entity, hentity, column, List.mem_of_find?_eq_some hfound, rfl⟩

structure Node.Adds (selected listed : Target → Prop) (n n' : Node) : Prop where
  scope : n'.scope = n.scope
  id : n'.id = n.id
  entity : n'.entity = n.entity
  selections : ∀ target ∈ n'.selections.filterMap Selection.target?,
    target ∈ n.selections.filterMap Selection.target? ∨ selected target
  groups : ∀ target ∈ n'.groups.filterMap Grouping.target?,
    target ∈ n.groups.filterMap Grouping.target? ∨ listed target
  orders : ∀ target ∈ n'.orders.filterMap OrderItem.target?,
    target ∈ n.orders.filterMap OrderItem.target? ∨ listed target

variable {entities : EntityLookup} {c d : Criteria} {a : Addition}

theorem add_cases (h : c.add entities a = .ok d) :
    (∃ p, d = c.push p ∧ ((∃ condition, a = .condition condition ∧
      (condition.adopt c.owner).build entities = .ok p) ∨ a = .built (.ok p))) ∨
    ∃ f, d = c.mapNode f ∧
      c.node.Adds (c.Finds entities) (c.Finds entities) (f c.node) := by
  cases a with
  | condition condition =>
      obtain ⟨p, hp, rfl⟩ := map_eq_ok.mp h
      exact .inl ⟨p, rfl, .inl ⟨condition, rfl, hp⟩⟩
  | built result =>
      obtain ⟨p, rfl, rfl⟩ := map_eq_ok.mp (mapError_eq_ok.mp h)
      exact .inl ⟨p, rfl, .inr rfl⟩
  | column property label =>
      obtain ⟨target, htarget, rfl⟩ := map_eq_ok.mp (mapError_eq_ok.mp h)
      have hown := finds_of_resolve htarget
      refine .inr ⟨_, rfl, rfl, rfl, rfl, ?_, fun _ ht => .inl ht, fun _ ht => .inl ht⟩
      simp +contextual [Selection.target?, or_imp, hown]
  | aggregate func property distinct label =>
      obtain ⟨target, htarget, rfl⟩ := map_eq_ok.mp (mapError_eq_ok.mp h)
      have hown : ∀ t ∈ target, c.Finds entities t := by
        cases property with
        | none =>
            cases htarget
            simp
        | some property =>
            obtain ⟨t, ht, rfl⟩ := map_eq_ok.mp htarget
            simpa using finds_of_resolve ht
      let f : Node → Node := fun n =>
        { n with
          flags := { n.flags with containsFunction := true }
          selections := n.selections ++ [.aggregate func target distinct label] }
      refine .inr ⟨f, rfl, rfl, rfl, rfl, fun t ht => ?_, fun _ ht => .inl ht, fun _ ht => .inl ht⟩
      simp only [f, List.filterMap_append, List.mem_append] at ht
      refine ht.imp_right fun ht => hown t ?_
      simpa [Selection.target?] using ht
  | group property =>
      obtain ⟨target, htarget, rfl⟩ := map_eq_ok.mp (mapError_eq_ok.mp h)
      have hown := finds_of_resolve htarget
      refine .inr ⟨_, rfl, rfl, rfl, rfl, fun _ ht => .inl ht, ?_, fun _ ht => .inl ht⟩
      simp +contextual [Grouping.target?, or_imp, hown]
  | order property direction =>
      obtain ⟨target, htarget, rfl⟩ := map_eq_ok.mp (mapError_eq_ok.mp h)
      have hown := finds_of_resolve htarget
      refine .inr ⟨_, rfl, rfl, rfl, rfl, fun _ ht => .inl ht, fun _ ht => .inl ht, ?_⟩
      simp +contextual [OrderItem.target?, or_imp, hown]

end Additions

end QueryCriteria
