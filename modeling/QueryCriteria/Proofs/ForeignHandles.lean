import QueryCriteria.Proofs.Session

namespace QueryCriteria

def Owner.within (scope : ScopeId) (o : Owner) : Owner :=
  { o with scope }

def OtherSide.within (scope : ScopeId) (other : OtherSide) : OtherSide :=
  { other with owner := other.owner.within scope }

namespace Condition

def referents (c : Condition) : List Owner :=
  c.head.owner.toList ++
    match c.body with
    | .columnEqual other => (other.map OtherSide.owner).toList
    | _ => []

def Head.within (scope : ScopeId) (h : Head) : Head :=
  { h with owner := h.owner.map (Owner.within scope) }

def Body.within (scope : ScopeId) : Body → Body
  | .columnEqual other => .columnEqual (other.map (OtherSide.within scope))
  | body => body

def within (scope : ScopeId) (c : Condition) : Condition where
  head := c.head.within scope
  body := c.body.within scope

section Within

variable {entities : EntityLookup} {scope : ScopeId} {head : Head} {body : Body}

theorem resolve_within {owner : Option Owner}
    (h : ∀ o ∈ owner, entities.model? (o.within scope) = entities.model? o) {column : ColumnSpec}
    {target : Target} (hresolve : column.resolve entities owner = .ok target) :
    column.resolve entities (owner.map (Owner.within scope)) = .ok target := by
  rcases resolve_eq_ok_iff.mp hresolve with hraw | ⟨o, entity, found, rfl, hmodel, hfound⟩
  · exact resolve_eq_ok_iff.mpr (.inl hraw)
  · exact resolve_eq_ok_iff.mpr (.inr ⟨o.within scope, entity, found, rfl, (h o rfl).trans hmodel, hfound⟩)

theorem head_resolve_within (h : ∀ o ∈ head.owner, entities.model? (o.within scope) = entities.model? o)
    {target : Target} (hresolve : head.resolve entities = .ok target) :
    (head.within scope).resolve entities = .ok target :=
  mapError_eq_ok.mpr (resolve_within h (mapError_eq_ok.mp hresolve))

theorem templateColumn_within (h : ∀ o ∈ head.owner, entities.model? (o.within scope) = entities.model? o)
    {column : Option Target} (hcolumn : head.templateColumn entities = .ok column) :
    (head.within scope).templateColumn entities = .ok column := by
  unfold Head.templateColumn at hcolumn ⊢
  by_cases hunset : head.column = .unset
  · simpa [Head.within, hunset] using hcolumn
  · have hkept : (head.within scope).column ≠ .unset := hunset
    rw [if_neg hunset] at hcolumn
    obtain ⟨target, hresolve, rfl⟩ := map_eq_ok.mp hcolumn
    rw [if_neg hkept, head_resolve_within h hresolve]
    rfl

theorem own_within : (head.within scope).own = head.own := by
  obtain ⟨column, tableAlias, connective, owner⟩ := head
  funext p
  cases owner <;> rfl

theorem asks_within {t : Test}
    (h : ∀ o ∈ (⟨head, body⟩ : Condition).referents, entities.model? (o.within scope) = entities.model? o)
    (hasks : body.Asks entities t) : (body.within scope).Asks entities t := by
  cases hasks with
  | compare hv => exact .compare hv
  | range hvs => exact .range hvs
  | between hlow hhigh => exact .between hlow hhigh
  | fuzzy hs => exact .fuzzy hs
  | nullable => exact .nullable
  | @columnEqual other target htarget =>
      have hside : ∀ o ∈ some other.owner, entities.model? (o.within scope) = entities.model? o := by
        rintro o ⟨⟩
        exact h _ (List.mem_append_right _ (List.mem_singleton_self _))
      exact .columnEqual (resolve_within hside htarget)

theorem build_within {c : Condition} {p : Predicate}
    (h : ∀ o ∈ c.referents, entities.model? (o.within scope) = entities.model? o)
    (hbuild : c.build entities = .ok p) : (c.within scope).build entities = .ok p := by
  obtain ⟨head, body⟩ := c
  have hhead : ∀ o ∈ head.owner, entities.model? (o.within scope) = entities.model? o := fun o ho =>
    h o (List.mem_append_left _ (Option.mem_toList.mpr ho))
  obtain ⟨q, hforms, rfl⟩ := exists_forms_of_build hbuild
  have hforms : Forms entities (head.within scope) (body.within scope) q := by
    cases hforms with
    | test hresolve hasks => exact .test (head_resolve_within hhead hresolve) (asks_within h hasks)
    | template hblank hcolumn => exact .template hblank (templateColumn_within hhead hcolumn)
    | existence => exact .existence
    | subquery hresolve => exact .subquery (head_resolve_within hhead hresolve)
    | nested hne => exact .nested hne
  have hown : (head.within scope).own = head.own := own_within
  exact hown ▸ build_of_forms hforms

end Within

end Condition

theorem handles_subset_bindOwner (id : CriteriaId) (p : Predicate) :
    p.handles ⊆ (p.bindOwner id).handles := by
  have howner : ∀ head : Predicate.Head, head.owner.toList ⊆ (head.bindOwner id).owner.toList := by
    intro head
    cases howner : head.owner <;> simp [Predicate.Head.bindOwner, howner]
  cases p with
  | test head t =>
      exact List.append_subset.mpr ⟨List.subset_append_of_subset_left _ (howner head),
        List.subset_append_right _ _⟩
  | _ => simpa [Predicate.handles, Predicate.bindOwner, Predicate.head] using howner _

theorem handles_own {head : Condition.Head} {p : Predicate} (h : p.head.owner = none) :
    (head.own p).handles = head.owner.toList.map Owner.id ++ p.handles := by
  unfold Condition.Head.own
  cases head.owner with
  | none => rfl
  | some owner =>
      cases p <;>
        simp_all [Predicate.handles, Predicate.bindOwner, Predicate.head, Predicate.Head.bindOwner]

section Build

variable {entities : EntityLookup} {head : Condition.Head} {p : Predicate}

theorem handles_build {c : Condition} (h : c.build entities = .ok p) :
    p.handles = c.referents.map Owner.id := by
  obtain ⟨head, body⟩ := c
  obtain ⟨q, hforms, rfl⟩ := Condition.exists_forms_of_build h
  rw [Condition.referents, List.map_append]
  cases hforms with
  | test _ hasks =>
      rw [handles_own rfl]
      cases hasks <;> rfl
  | _ =>
      rw [handles_own rfl]
      rfl

end Build

theorem Workspace.knows_of_compile {w : Workspace} {c : Criteria} {compiled : Compiled}
    (h : (w.compile c).1 = .ok compiled) {p : Predicate} (hp : p ∈ c.conditions) {id : CriteriaId}
    (hid : id ∈ p.handles) : w.Knows c.scope id := by
  rw [result_compile] at h
  obtain ⟨-, hfaults, -⟩ := Scope.compile_eq_ok (Prod.ext h rfl)
  exact ((Scope.referenceFaults_eq_nil_iff _ c).mp hfaults).handles p hp id hid

theorem referents_read_in_scope {w v : Workspace} {condition : Condition} {p q : Predicate}
    {c : Criteria} (hbuild : w.buildCondition condition = .ok p)
    (hbound : q = p ∨ ∃ id, q = p.bindOwner id) (hq : q ∈ c.conditions) :
    (∀ compiled, (v.compile c).1 = .ok compiled → ∀ o ∈ condition.referents, v.Knows c.scope o.id) ∧
      ((∀ o ∈ condition.referents, w.entities.model? (o.within c.scope) = w.entities.model? o) →
        w.buildCondition (condition.within c.scope) = .ok p) := by
  have hkept : p.handles ⊆ q.handles := by
    rcases hbound with rfl | ⟨id, rfl⟩
    · exact List.Subset.refl _
    · exact handles_subset_bindOwner id p
  refine ⟨fun compiled hcompiled o ho => ?_, fun hentities => ?_⟩
  · have hhandle : o.id ∈ p.handles := handles_build hbuild ▸ List.mem_map_of_mem ho
    exact v.knows_of_compile hcompiled hq (hkept hhandle)
  · exact Condition.build_within hentities hbuild

def berth : Model.Entity :=
  { name := "Berth", table := "berths", columns := [{ name := "code", property := "code" }] }

def quays : Workspace :=
  let opened := ((({} : Workspace).openScope {} { entities := [berth] }).2.openScope {}
    { entities := [berth] }).2
  ((opened.create ⟨0⟩ "Berth" none).2.create ⟨1⟩ "Berth" none).2

def sameCode : Condition where
  head := { column := .property "code", owner := some ⟨⟨0⟩, ⟨0⟩⟩ }
  body := .columnEqual (some { owner := ⟨⟨1⟩, ⟨0⟩⟩, column := .property "code" })

def sameCodePredicate : Predicate :=
  .test { owner := some ⟨0⟩, matched := .standard,
          target := some (.resolved { name := "code", property := "code" }) }
    (.columnEqual { criteria := ⟨0⟩, target := .resolved { name := "code", property := "code" } })

def berthTree : Criteria :=
  (Criteria.fresh ⟨0⟩ ⟨0⟩ berth none).push sameCodePredicate

theorem mem_berthTree : sameCodePredicate ∈ berthTree.conditions := by
  have hconditions : berthTree.conditions = [sameCodePredicate] := rfl
  rw [hconditions]
  exact List.mem_singleton_self _

theorem quays_read_in_scope :
    quays.Knows ⟨0⟩ ⟨0⟩ ∧ quays.buildCondition (sameCode.within ⟨0⟩) = .ok sameCodePredicate := by
  have hbuild : quays.buildCondition sameCode = .ok sameCodePredicate := rfl
  obtain ⟨hknown, hsame⟩ := referents_read_in_scope (v := quays) hbuild (.inl rfl) mem_berthTree
  have hreferents : sameCode.referents = [⟨⟨0⟩, ⟨0⟩⟩, ⟨⟨1⟩, ⟨0⟩⟩] := rfl
  rw [hreferents] at hknown hsame
  refine ⟨hknown _ rfl ⟨⟨1⟩, ⟨0⟩⟩ (by simp), hsame fun o ho => ?_⟩
  rcases List.mem_pair.mp ho with rfl | rfl <;> rfl

theorem foreign_side_compiles :
    quays.buildCondition sameCode = .ok sameCodePredicate ∧ sameCodePredicate ∈ berthTree.conditions ∧
      (∃ o ∈ sameCode.referents, o.scope ≠ berthTree.scope) ∧
      ∃ compiled, (quays.compile berthTree).1 = .ok compiled ∧
        compiled.filterText = "t1.code = t1.code" := by
  refine ⟨rfl, mem_berthTree, ⟨⟨⟨1⟩, ⟨0⟩⟩, ?_, by decide⟩, _, rfl, by rfl⟩
  have hreferents : sameCode.referents = [⟨⟨0⟩, ⟨0⟩⟩, ⟨⟨1⟩, ⟨0⟩⟩] := rfl
  simp [hreferents]

end QueryCriteria
