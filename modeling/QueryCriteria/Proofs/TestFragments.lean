import QueryCriteria.Proofs.Fragments
import QueryCriteria.Proofs.References

namespace QueryCriteria

open Fragment

structure Fragment.OfTests (ids : List CriteriaId) (a : Fragment → Prop) : Prop where
  sql : ∀ s, a (.sql s)
  bind : ∀ v, a (.bind v)
  column : ∀ use : ColumnUse, use.owner ∈ ids → a (.column use)
  reject : ∀ e, a (.reject e)
  rejectEmpty : ∀ use : ColumnUse, use.owner ∈ ids → a (.rejectEmpty use)

section OfTests

variable {ids : List CriteriaId} {a : Fragment → Prop} {enclosing : CriteriaId} {head : Predicate.Head}

theorem within_boundList (ha : OfTests ids a) (values : List Value) : Within a (boundList values) := by
  intro f hf
  rcases mem_intercalate hf with rfl | ⟨item, hitem, hf⟩
  · exact ha.sql ","
  · obtain ⟨v, -, rfl⟩ := List.mem_map.mp hitem
    obtain rfl := List.mem_singleton.mp hf
    exact ha.bind v

theorem within_argumentFragments (ha : OfTests ids a) (template : String) (token : Template.Token)
    (argument : Option Value) : Within a (argumentFragments template token argument) := by
  unfold argumentFragments
  split
  · simp [Within, ha.reject]
  · simp [Within, ha.reject]
  · exact within_boundList ha _
  · simp [Within, ha.bind]

theorem within_templateFragments (ha : OfTests ids a) {template : String} {args : TemplateArgs}
    {column : Option ColumnUse} (h : ∀ use ∈ column, use.owner ∈ ids) :
    Within a (templateFragments template args column) := by
  unfold templateFragments
  split
  · simp [Within, ha.reject]
  · refine within_flatMap.mpr fun segment _ => ?_
    cases segment with
    | text s => simp [segmentFragments, Within, ha.sql]
    | token token =>
        cases token with
        | positional index => exact within_argumentFragments ha _ _ _
        | named name => exact within_argumentFragments ha _ _ _
        | column =>
            cases column with
            | none => simp [segmentFragments, Within, ha.reject]
            | some use => simpa [segmentFragments, Within] using ha.column use (h use rfl)

theorem within_testFragments (ha : OfTests ids a) {target : Target} {t : Test}
    (howner : head.owner.getD enclosing ∈ ids) (ht : ∀ id ∈ t.handles, id ∈ ids) :
    Within a (testFragments enclosing head target t) := by
  have hcolumn : ∀ target, a (.column (head.columnUse enclosing target)) := fun _ =>
    ha.column _ howner
  cases t with
  | range op values =>
      simp only [testFragments]
      split
      · simpa [Within] using ha.rejectEmpty (head.columnUse enclosing target) howner
      · have hrest : Within a (boundList values ++ [.sql ")"]) :=
          within_append.mpr ⟨within_boundList ha values, by simp [Within, ha.sql]⟩
        exact within_cons.mpr ⟨hcolumn target, within_cons.mpr ⟨ha.sql _, hrest⟩⟩
  | fuzzy op text wildcard escape =>
      cases escape <;> simp [testFragments, escapeClause, Within, ha.sql, ha.bind, hcolumn]
  | template args column =>
      refine within_templateFragments ha fun use huse => ?_
      obtain ⟨target, -, rfl⟩ := Option.map_eq_some_iff.mp huse
      exact howner
  | columnEqual other =>
      have hleft : a (.column { head.columnUse enclosing target with correlated := true }) :=
        ha.column _ howner
      have hright := fun use (huse : use.owner = other.criteria) =>
        ha.column use (huse ▸ ht _ (by simp [Test.handles]))
      simp [testFragments, Within, ha.sql, hleft, hright]
  | _ => simp [testFragments, Within, ha.sql, ha.bind, hcolumn]

theorem inner_testFragments {target : Target} {t : Test} (howner : head.owner.getD enclosing ∈ ids)
    (ht : ∀ id ∈ t.handles, id ∈ ids) : Inner ids (testFragments enclosing head target t) := by
  refine within_testFragments ?_ howner ht
  constructor <;> simp [isSource, owner?]

end OfTests

end QueryCriteria
