import QueryCriteria.Compile.Draft
import QueryCriteria.Proofs.Clauses
import QueryCriteria.Proofs.Tree

namespace QueryCriteria

namespace Fragment

def isSource : Fragment → Bool
  | .source _ _ => true
  | _ => false

def isReject : Fragment → Bool
  | .reject _ => true
  | .rejectEmpty _ => true
  | _ => false

def owner? : Fragment → Option CriteriaId
  | .keyword _ use => some use.owner
  | .column use => some use.owner
  | .source id _ => some id
  | .rejectEmpty use => some use.owner
  | _ => none

def isPlain (ids : List CriteriaId) : Fragment → Prop
  | .sql _ => True
  | .column use => use.owner ∈ ids
  | _ => False

def Selective {α : Type} (h : Fragment → Option α) : Prop :=
  ∀ f, f.isBind = false → f.isSource = false → f.isReject = false → h f = none

theorem heading_cases (text : String) (parts : List Fragment) :
    SqlPart.heading text parts = .sql text ∨
      ∃ use, .column use ∈ parts ∧ (∀ f ∈ parts, f.isEmpty = true ∨ f.column?.isSome = true) ∧
        SqlPart.heading text parts = .keyword text use := by
  change heading text parts = _ ∨ ∃ use, _ ∧ _ ∧ heading text parts = _
  unfold heading
  split
  · exact .inl rfl
  · next use hfound =>
    split
    · next hall =>
      obtain ⟨f, hf, hcolumn⟩ := List.exists_of_findSome?_eq_some hfound
      refine .inr ⟨use, ?_, by simpa using hall, rfl⟩
      cases f with
      | column other =>
          obtain rfl := Option.some.inj hcolumn
          exact hf
      | _ => cases hcolumn
    · exact .inl rfl

theorem heading_map {f : Fragment → Fragment} {g : ColumnUse → ColumnUse}
    (hsql : ∀ s, f (.sql s) = .sql s) (hkeyword : ∀ s use, f (.keyword s use) = .keyword s (g use))
    (hcolumn : ∀ x, (f x).column? = x.column?.map g) (hempty : ∀ x, (f x).isEmpty = x.isEmpty) (text : String)
    (parts : List Fragment) : f (SqlPart.heading text parts) = SqlPart.heading text (parts.map f) := by
  have hfirst : (parts.map f).findSome? column? = (parts.findSome? column?).map g := by
    induction parts with
    | nil => rfl
    | cons x xs ih =>
        rw [List.map_cons, List.findSome?_cons, List.findSome?_cons, hcolumn]
        cases x.column? with
        | none => exact ih
        | some use => rfl
  have hall : (parts.map f).all (fun x => x.isEmpty || x.column?.isSome) =
      parts.all fun x => x.isEmpty || x.column?.isSome := by
    rw [List.all_map]
    refine congrArg parts.all (funext fun x => ?_)
    rw [Function.comp_apply, hempty, hcolumn, Option.isSome_map]
  change f (heading text parts) = heading text (parts.map f)
  unfold heading
  rw [hfirst, hall]
  cases parts.findSome? column? with
  | none => exact hsql text
  | some use =>
      simp only [Option.map_some]
      split
      · exact hkeyword text use
      · exact hsql text

theorem Selective.blind {α : Type} {h : Fragment → Option α} (hs : Selective h) : SqlPart.Blind h where
  sql s := hs (.sql s) rfl rfl rfl
  heading text parts := by
    rcases heading_cases text parts with heq | ⟨use, -, -, heq⟩
    · exact (congrArg h heq).trans (hs (.sql text) rfl rfl rfl)
    · exact (congrArg h heq).trans (hs (.keyword text use) rfl rfl rfl)
  empty f hf := by
    cases f with
    | sql s => exact hs (.sql s) rfl rfl rfl
    | lead connective => exact hs (.lead connective) rfl rfl rfl
    | _ => cases hf

def Within (a : Fragment → Prop) (fs : List Fragment) : Prop :=
  ∀ f ∈ fs, a f

abbrev Accepted : List Fragment → Prop :=
  Within fun f => f.isReject = false

abbrev Plain (ids : List CriteriaId) : List Fragment → Prop :=
  Within (isPlain ids)

abbrev Inner (ids : List CriteriaId) : List Fragment → Prop :=
  Within fun f => f.isSource = false ∧ ∀ id ∈ f.owner?, id ∈ ids

abbrev Asking (k : Fragment → Option CriteriaId) (ids : List CriteriaId) : List Fragment → Prop :=
  Within fun f => ∀ id ∈ k f, id ∈ ids

abbrev OwnedBy (ids : List CriteriaId) : List Fragment → Prop :=
  Asking owner? ids

section Within

variable {a : Fragment → Prop}

theorem within_append {fs gs : List Fragment} : Within a (fs ++ gs) ↔ Within a fs ∧ Within a gs := by
  simp only [Within, List.forall_mem_append]

theorem within_cons {f : Fragment} {fs : List Fragment} : Within a (f :: fs) ↔ a f ∧ Within a fs := by
  simp only [Within, List.forall_mem_cons]

theorem within_flatMap {α : Type} {l : List α} {k : α → List Fragment} :
    Within a (l.flatMap k) ↔ ∀ x ∈ l, Within a (k x) := by
  simp only [Within, List.mem_flatMap]
  grind

theorem within_bindingOrder (ha : ∀ f, f.isEmpty = true → a f) {c : Clauses Fragment}
    (hc : Within a c.statement) : Within a c.bindingOrder := by
  intro f hf
  cases he : f.isEmpty with
  | false => exact hc f (Clauses.mem_statement hf he)
  | true => exact ha f he

theorem accepted_of_isEmpty (f : Fragment) (h : f.isEmpty = true) : f.isReject = false := by
  cases f <;> first | rfl | cases h

end Within

section Plain

variable {ids : List CriteriaId} {fs : List Fragment}

theorem Plain.filterMap {α : Type} {h : Fragment → Option α} (hs : Selective h) (hp : Plain ids fs) :
    fs.filterMap h = [] := by
  refine List.filterMap_eq_nil_iff.mpr fun f hf => ?_
  have hf := hp f hf
  cases f with
  | sql s => exact hs (.sql s) rfl rfl rfl
  | column use => exact hs (.column use) rfl rfl rfl
  | _ => cases hf

theorem Plain.ownedBy (hp : Plain ids fs) : OwnedBy ids fs := by
  intro f hf id hid
  have hf := hp f hf
  cases f with
  | column use =>
      obtain rfl := Option.some.inj hid
      exact hf
  | sql s => cases hid
  | _ => cases hf

theorem Plain.accepted (hp : Plain ids fs) : Accepted fs := by
  intro f hf
  have hf := hp f hf
  cases f <;> first | rfl | cases hf

theorem Plain.mono {more : List CriteriaId} (hp : Plain ids fs) (hids : ids ⊆ more) : Plain more fs := by
  intro f hf
  have hf := hp f hf
  cases f with
  | sql s => exact hf
  | column use => exact hids hf
  | _ => cases hf

theorem Inner.ownedBy (h : Inner ids fs) : OwnedBy ids fs :=
  fun f hf => (h f hf).2

theorem Asking.mono {k : Fragment → Option CriteriaId} {more : List CriteriaId} (h : Asking k ids fs)
    (hids : ids ⊆ more) : Asking k more fs :=
  fun f hf id hid => hids (h f hf id hid)

end Plain

end Fragment

open Fragment

theorem mem_intercalate {α : Type} {sep a : α} {items : List (List α)}
    (ha : a ∈ [sep].intercalate items) : a = sep ∨ ∃ item ∈ items, a ∈ item := by
  induction items with
  | nil => simp [List.intercalate] at ha
  | cons item rest ih =>
      cases rest with
      | nil => exact .inr ⟨item, by simp, by simpa [List.intercalate] using ha⟩
      | cons next rest =>
          simp only [List.intercalate, List.intersperse_cons_cons, List.flatten_cons,
            List.mem_append, List.mem_singleton] at ha ih
          rcases ha with ha | rfl | ha
          · exact .inr ⟨item, by simp, ha⟩
          · exact .inl rfl
          · rcases ih ha with rfl | ⟨other, hother, ha⟩
            · exact .inl rfl
            · exact .inr ⟨other, List.mem_cons_of_mem _ hother, ha⟩

theorem filterMap_intercalate {α β : Type} {h : α → Option β} {sep : α} (hsep : h sep = none)
    (items : List (List α)) :
    ([sep].intercalate items).filterMap h = items.flatMap (·.filterMap h) := by
  induction items with
  | nil => rfl
  | cons item rest ih =>
      cases rest with
      | nil => simp [List.intercalate]
      | cons next rest =>
          simp only [List.intercalate, List.intersperse_cons_cons, List.flatten_cons,
            List.filterMap_append, List.filterMap_cons_none hsep, List.filterMap_nil,
            List.nil_append, List.flatMap_cons] at ih ⊢
          rw [ih]

theorem filterMap_boundList {α : Type} {h : Fragment → Option α} (hsql : h (.sql ",") = none)
    (values : List Value) :
    (boundList values).filterMap h = values.filterMap fun v => h (.bind v) := by
  rw [boundList, filterMap_intercalate hsql, List.flatMap_map, List.filterMap_eq_flatMap_toList]
  refine List.flatMap_congr fun v _ => ?_
  cases hv : h (.bind v) <;> simp [hv]

theorem plain_labelled {ids : List CriteriaId} {parts : List Fragment} (h : Plain ids parts)
    (label : Option String) : Plain ids (labelled parts label) := by
  cases label with
  | none => exact h
  | some label => exact within_append.mpr ⟨h, by simp [Within, isPlain]⟩

theorem plain_listed {ids : List CriteriaId} {items : List (List Fragment)}
    (h : ∀ item ∈ items, Plain ids item) : Plain ids (listed items) := by
  intro f hf
  rcases mem_intercalate hf with rfl | ⟨item, hitem, hf⟩
  · exact trivial
  · exact h item hitem f hf

namespace Node

variable {ids : List CriteriaId} {n : Node}

theorem plain_column (hn : n.id ∈ ids) (target : Target) : Plain ids [n.column target] := by
  simpa [Within, isPlain, Node.column] using hn

theorem plain_items (hn : n.id ∈ ids) : ∀ item ∈ n.items, Plain ids item := by
  intro item hitem
  rcases List.mem_append.mp hitem with hitem | hitem
  · unfold defaultItems at hitem
    split at hitem
    · obtain ⟨column, -, rfl⟩ := List.mem_map.mp hitem
      exact plain_labelled (plain_column hn _) _
    · simp at hitem
  · obtain ⟨selection, -, rfl⟩ := List.mem_map.mp hitem
    cases selection with
    | column target label => exact plain_labelled (plain_column hn _) _
    | native sql label => exact plain_labelled (by simp [Within, isPlain]) _
    | aggregate func target distinct label =>
        refine plain_labelled ?_ _
        cases target <;> simp [Within, Node.column, isPlain, hn]

theorem plain_groupItem (hn : n.id ∈ ids) (g : Grouping) : Plain ids (n.groupItem g) := by
  cases g <;> simp [Within, groupItem, Node.column, isPlain, hn]

theorem plain_orderItem (hn : n.id ∈ ids) (o : OrderItem) : Plain ids (n.orderItem o) := by
  cases o <;> simp [Within, orderItem, Node.column, isPlain, hn]

end Node

theorem members_of_join {node : Node} {ps : List Predicate} {js : List Criteria} {c : Criteria}
    (hc : c ∈ js) :
    c.members.map Criteria.id ⊆ (Criteria.mk node ps js).members.map Criteria.id := by
  refine List.map_subset _ fun m hm => ?_
  simp only [Criteria.members_mk, List.mem_cons, List.mem_append, List.mem_flatMap]
  exact .inr (.inr ⟨c, hc, hm⟩)

theorem allFetchedItems_eq_flatMap (js : List Criteria) : allFetchedItems js = js.flatMap fetchedItems := by
  induction js with
  | nil => rfl
  | cons c cs ih => simp [allFetchedItems, ih]

theorem plain_fetchedItems (c : Criteria) :
    ∀ item ∈ fetchedItems c, Plain (c.members.map Criteria.id) item := by
  revert c
  refine (tree_induction (P := fun _ => True) ?_ ?_ ?_ ?_ ?_).1
  case refine_1 =>
    intro node ps js _ hj item hitem
    simp only [fetchedItems, allFetchedItems_eq_flatMap, List.mem_append, List.mem_flatMap] at hitem
    rcases hitem with hitem | ⟨c, hc, hitem⟩
    · split at hitem
      · exact node.plain_items (by simp [Criteria.id, Criteria.node]) item hitem
      · simp at hitem
    · exact (hj c hc item hitem).mono (members_of_join hc)
  all_goals simp

theorem plain_projection {ids : List CriteriaId} {n : Node} {js : List Criteria} (hn : n.id ∈ ids)
    (hjs : ∀ c ∈ js, ∀ item ∈ fetchedItems c, Plain ids item) : Plain ids (projection n js) := by
  have hitems : ∀ item ∈ n.items ++ allFetchedItems js, Plain ids item := by
    intro item hitem
    rw [allFetchedItems_eq_flatMap, List.mem_append, List.mem_flatMap] at hitem
    rcases hitem with hitem | ⟨c, hc, hitem⟩
    · exact n.plain_items hn item hitem
    · exact hjs c hc item hitem
  have hlist : Plain ids (if (n.items ++ allFetchedItems js).isEmpty then [.sql "*"]
      else listed (n.items ++ allFetchedItems js)) := by
    split
    · simp [Within, isPlain]
    · exact plain_listed hitems
  unfold projection
  split
  · exact within_cons.mpr ⟨trivial, hlist⟩
  · exact hlist

theorem plain_draft (existenceOnly : Bool) (c : Criteria) :
    let ids := c.members.map Criteria.id
    Plain ids (draft existenceOnly c).select ∧ Plain ids (draft existenceOnly c).group ∧
      Plain ids (draft existenceOnly c).order := by
  intro ids
  have hself : c.id ∈ ids := List.mem_map_of_mem c.self_mem_members
  obtain ⟨node, ps, js⟩ := c
  have hjs : ∀ c ∈ js, ∀ item ∈ fetchedItems c, Plain ids item := fun c hc item hitem =>
    (plain_fetchedItems c item hitem).mono (members_of_join hc)
  simp only [draft]
  refine ⟨?_, ?_, ?_⟩
  · split
    · simp [Within, isPlain]
    · exact plain_projection hself hjs
  · exact plain_listed (by simpa using fun g _ => node.plain_groupItem hself g)
  · exact plain_listed (by simpa using fun o _ => node.plain_orderItem hself o)

end QueryCriteria
