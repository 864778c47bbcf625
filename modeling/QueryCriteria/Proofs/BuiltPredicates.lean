import QueryCriteria.Proofs.CopyRules

namespace QueryCriteria

open QueryCriteria.Text

def Target.Written : Target → Prop
  | .raw sql => isBlank sql = false
  | .resolved _ => True

def Value.Single : Value → Prop
  | .null => False
  | .list _ => False
  | _ => True

def Test.Meaningful : Test → Prop
  | .compare _ value => value.Single
  | .range _ values => values ≠ []
  | .between _ low high => low.Single ∧ high.Single
  | .fuzzy _ text _ _ => text ≠ ""
  | .nullable _ => True
  | .template _ column => ∀ target ∈ column, target.Written
  | .columnEqual other => other.target.Written

def Test.Accepts (target : Target) : Test → Prop
  | .template _ _ => target.isRaw
  | _ => True

def Predicate.Meaningful : Predicate → Prop
  | .test head t =>
      ∃ target, head.target = some target ∧ target.Written ∧ t.Accepts target ∧ t.Meaningful
  | .existence head _ _ => head.target = none
  | .subquery head _ _ => ∃ target, head.target = some target ∧ target.Written
  | .nested head _ children => head.target = none ∧ children ≠ []

def MatchMode.Names : MatchMode → Option Target → Prop
  | .immediate, some (.raw _) => True
  | .standard, some (.resolved _) => True
  | .existence, none => True
  | _, _ => False

def Predicate.Head.Matched (h : Head) : Prop :=
  h.matched.Names h.target

def Criteria.Built (c : Criteria) : Prop :=
  ∀ p ∈ c.conditions, p.Meaningful ∧ p.head.Matched

def Predicate.Built (p : Predicate) : Prop :=
  ∀ q ∈ p.conditions, q.Meaningful ∧ q.head.Matched

section Outlines

variable {t u : Test} {p q : Predicate}

theorem meaningful_of_anonymous (h : t.anonymous = u.anonymous) (hu : u.Meaningful) :
    t.Meaningful := by
  have hforget : ∀ t : Test, t.anonymous.Meaningful ↔ t.Meaningful := by
    intro t
    cases t <;> rfl
  rwa [← hforget, h, hforget]

theorem accepts_of_anonymous {target : Target} (h : t.anonymous = u.anonymous)
    (hu : u.Accepts target) : t.Accepts target := by
  have hforget : ∀ t : Test, t.anonymous.Accepts target ↔ t.Accepts target := by
    intro t
    cases t <;> rfl
  rwa [← hforget, h, hforget]

theorem subject_of_outline (h : p.outline = q.outline) : p.head.subject = q.head.subject := by
  cases p <;> cases q <;> simp_all [Predicate.outline, Predicate.head]

theorem meaningful_of_outline (h : p.outline = q.outline) (hq : q.Meaningful) : p.Meaningful := by
  have htarget : p.head.target = q.head.target := congrArg Prod.snd (subject_of_outline h)
  cases p with
  | test head t =>
      cases q <;> simp only [Predicate.outline, Predicate.Outline.test.injEq, reduceCtorEq] at h
      obtain ⟨target, hfound, hwritten, haccepts, hmeaningful⟩ := hq
      exact ⟨target, htarget.trans hfound, hwritten, accepts_of_anonymous h.2 haccepts,
        meaningful_of_anonymous h.2 hmeaningful⟩
  | existence head negated query =>
      cases q <;> simp only [Predicate.outline, reduceCtorEq] at h
      exact htarget.trans hq
  | subquery head op query =>
      cases q <;> simp only [Predicate.outline, reduceCtorEq] at h
      obtain ⟨target, hfound, hwritten⟩ := hq
      exact ⟨target, htarget.trans hfound, hwritten⟩
  | nested head negated children =>
      cases q <;> simp only [Predicate.outline, Predicate.Outline.nested.injEq, reduceCtorEq] at h
      obtain ⟨hnone, hne⟩ := hq
      refine ⟨htarget.trans hnone, ?_⟩
      rwa [← List.length_pos_iff, h.2, List.length_pos_iff]

theorem matched_of_outline (h : p.outline = q.outline) (hq : q.head.Matched) : p.head.Matched := by
  obtain ⟨hmode, htarget⟩ := Prod.mk.inj (subject_of_outline h)
  rwa [Predicate.Head.Matched, hmode, htarget]

theorem built_of_outlines {ps qs : List Predicate}
    (h : ps.map Predicate.outline = qs.map Predicate.outline)
    (hqs : ∀ q ∈ qs, q.Meaningful ∧ q.head.Matched) : ∀ p ∈ ps, p.Meaningful ∧ p.head.Matched := by
  intro p hp
  obtain ⟨q, hq, houtline⟩ := List.mem_map.mp (h ▸ List.mem_map_of_mem hp)
  exact (hqs q hq).imp (meaningful_of_outline houtline.symm) (matched_of_outline houtline.symm)

theorem built_bindOwner (id : CriteriaId) (h : p.Built) : (p.bindOwner id).Built :=
  built_of_outlines (outlines_bindOwner id p) h

theorem built_derive {w v : Workspace} {c d : Criteria} (hc : c.Built)
    (h : w.derive c = (.ok d, v)) : d.Built :=
  built_of_outlines (Workspace.outlines_derive h) hc

end Outlines

section Parts

theorem built_mk {node : Node} {ps : List Predicate} {js : List Criteria} :
    (Criteria.mk node ps js).Built ↔ (∀ p ∈ ps, p.Built) ∧ ∀ c ∈ js, c.Built := by
  simp only [Criteria.Built, Predicate.Built, Criteria.conditions_mk, List.mem_append, List.mem_flatMap]
  grind

theorem built_test {head : Predicate.Head} {t : Test} (h : (Predicate.test head t).Meaningful)
    (hmatched : head.Matched) : (Predicate.test head t).Built := by
  intro q hq
  obtain rfl := List.mem_singleton.mp (Predicate.conditions_test .. ▸ hq)
  exact ⟨h, hmatched⟩

theorem built_existence {head : Predicate.Head} {negated : Bool} {query : Criteria}
    (htarget : head.target = none) (hmatched : head.Matched) (h : query.Built) :
    (Predicate.existence head negated query).Built := by
  intro q hq
  rcases List.mem_cons.mp (Predicate.conditions_existence .. ▸ hq) with rfl | hq
  · exact ⟨htarget, hmatched⟩
  · exact h q hq

theorem built_subquery {head : Predicate.Head} {op : SubqueryOp} {query : Criteria}
    (hself : (Predicate.subquery head op query).Meaningful) (hmatched : head.Matched) (h : query.Built) :
    (Predicate.subquery head op query).Built := by
  intro q hq
  rcases List.mem_cons.mp (Predicate.conditions_subquery .. ▸ hq) with rfl | hq
  · exact ⟨hself, hmatched⟩
  · exact h q hq

theorem built_nested {head : Predicate.Head} {negated : Bool} {children : List Predicate}
    (htarget : head.target = none) (hmatched : head.Matched) (hne : children ≠ [])
    (h : ∀ p ∈ children, p.Built) : (Predicate.nested head negated children).Built := by
  intro q hq
  rcases List.mem_cons.mp (Predicate.conditions_nested .. ▸ hq) with rfl | hq
  · exact ⟨⟨htarget, hne⟩, hmatched⟩
  · obtain ⟨p, hp, hq⟩ := List.mem_flatMap.mp hq
    exact h p hp q hq

theorem conditions_subset :
    (∀ c : Criteria, (∀ m ∈ c.members, m.conditions ⊆ c.conditions) ∧
      ∀ p ∈ c.conditions, p.conditions ⊆ c.conditions) ∧
    ∀ p : Predicate, (∀ m ∈ p.members, m.conditions ⊆ p.conditions) ∧
      ∀ q ∈ p.conditions, q.conditions ⊆ p.conditions :=
  gather_subset

end Parts

section Build

variable {entities : EntityLookup}

theorem written_of_resolve {column : ColumnSpec} {owner : Option Owner} {target : Target}
    (h : column.resolve entities owner = .ok target) : target.Written := by
  rcases resolve_eq_ok_iff.mp h with ⟨sql, -, hblank, rfl⟩ | ⟨o, entity, found, -, -, -, rfl⟩
  · exact hblank
  · trivial

theorem single_of_scalar {missing : SkipReason} {value : Option Value} {v : Value}
    (h : scalar missing value = .ok v) : v.Single := by
  unfold scalar at h
  split at h
  · cases h
  · cases h
  · cases h
  · next v' hnull hlist =>
    obtain rfl := Except.ok.inj h
    cases v' with
    | null => exact absurd rfl hnull
    | list items => exact absurd rfl (hlist items)
    | _ => trivial

theorem ne_empty_of_fuzzyText {value : Option Value} {text : String} (h : fuzzyText value = .ok text) :
    text ≠ "" := by
  unfold fuzzyText at h
  split at h
  · cases h
  · split at h
    · cases h
    · split at h
      · cases h
      · next hne =>
        obtain rfl := Except.ok.inj h
        exact hne

namespace Condition

theorem Head.written_of_resolve {head : Head} {target : Target}
    (h : head.resolve entities = .ok target) : target.Written :=
  QueryCriteria.written_of_resolve (mapError_eq_ok.mp h)

theorem Head.matched_predicateHead (head : Head) (resolution : Resolution) :
    (head.predicateHead resolution).Matched := by
  cases resolution <;> trivial

theorem built_own {p : Predicate} (h : p.Built) (head : Head) : (head.own p).Built := by
  unfold Head.own
  cases head.owner with
  | none => exact h
  | some owner => exact built_bindOwner owner.id h

theorem meaningful_of_asks {body : Body} {t : Test} (h : body.Asks entities t) :
    t.Meaningful ∧ ∀ target, t.Accepts target := by
  cases h with
  | compare hv => exact ⟨single_of_scalar hv, fun _ => trivial⟩
  | range hvs => exact ⟨ne_nil_of_collection hvs, fun _ => trivial⟩
  | between hlow hhigh => exact ⟨⟨single_of_scalar hlow, single_of_scalar hhigh⟩, fun _ => trivial⟩
  | fuzzy hs => exact ⟨ne_empty_of_fuzzyText hs, fun _ => trivial⟩
  | nullable => exact ⟨trivial, fun _ => trivial⟩
  | columnEqual htarget => exact ⟨QueryCriteria.written_of_resolve htarget, fun _ => trivial⟩

theorem built_build {c : Condition} {p : Predicate} (hqueries : ∀ q ∈ c.queries, q.Built)
    (hchildren : ∀ q ∈ c.children, q.Built) (h : c.build entities = .ok p) : p.Built := by
  obtain ⟨head, body⟩ := c
  obtain ⟨q, hforms, rfl⟩ := exists_forms_of_build h
  refine built_own ?_ head
  cases hforms with
  | @test _ target _ hresolve hasks =>
      obtain ⟨hmeaningful, haccepts⟩ := meaningful_of_asks hasks
      exact built_test ⟨target, head.target_predicateHead target, head.written_of_resolve hresolve,
        haccepts target, hmeaningful⟩ (head.matched_predicateHead _)
  | @template text _ _ hblank hcolumn =>
      exact built_test ⟨.raw text, rfl, hblank, rfl, fun target htarget =>
        head.written_of_resolve (resolve_of_templateColumn hcolumn target htarget)⟩
        (head.matched_predicateHead _)
  | existence =>
      exact built_existence rfl (head.matched_predicateHead _) (hqueries _ (by simp [queries]))
  | @subquery _ _ target hresolve =>
      exact built_subquery ⟨target, head.target_predicateHead target, head.written_of_resolve hresolve⟩
        (head.matched_predicateHead _) (hqueries _ (by simp [queries]))
  | nested hne => exact built_nested rfl (head.matched_predicateHead _) hne hchildren

end Condition

end Build

end QueryCriteria
