import QueryCriteria.Compile.Placement
import QueryCriteria.Proofs.Draft
import QueryCriteria.Proofs.TestFragments

namespace QueryCriteria

open Fragment

namespace Fragment

def refusal? (ctx : Context) : Fragment → Option CompileError
  | .reject e => some e
  | .rejectEmpty use => some (.emptyInList (use.text ctx))
  | _ => none

theorem selective_refusal? (ctx : Context) : Selective (refusal? ctx) := by
  intro f _ _ hreject
  cases f with
  | reject e => cases hreject
  | rejectEmpty use => cases hreject
  | _ => rfl

variable {ctx : Context}

theorem failure?_eq_refusal? {f : Fragment} (h : ∀ id ∈ f.owner?, (ctx.alias? id).isSome) :
    f.failure? ctx = f.refusal? ctx := by
  have hcolumn : ∀ use : ColumnUse, (ctx.alias? use.owner).isSome → use.failure? ctx = none := by
    intro use hsome
    simp [ColumnUse.failure?, Option.isSome_iff_ne_none.mp hsome]
  cases f with
  | column use => exact hcolumn use (h _ rfl)
  | source id table =>
      have hsome := h id rfl
      simp [failure?, refusal?, Option.isSome_iff_ne_none.mp hsome]
  | rejectEmpty use => simp [failure?, refusal?, hcolumn use (h _ rfl)]
  | lead connective => cases connective <;> rfl
  | _ => rfl

theorem firstFailure?_of_known {ids : List CriteriaId} {fs : List Fragment} (hfs : OwnedBy ids fs)
    (hknown : ∀ id ∈ ids, (ctx.alias? id).isSome) :
    firstFailure? ctx fs = (fs.filterMap (refusal? ctx)).head? := by
  rw [List.head?_filterMap, firstFailure?]
  induction fs with
  | nil => rfl
  | cons f fs ih =>
      obtain ⟨hf, hfs⟩ := within_cons.mp hfs
      rw [List.findSome?_cons, List.findSome?_cons, ih hfs,
        failure?_eq_refusal? fun id hid => hknown id (hf id hid)]

end Fragment

def Criteria.named (c : Criteria) : List CriteriaId :=
  c.references.map Reference.id

theorem named_eq_gather (c : Criteria) : c.named = c.gather (fun c => [c.id]) Predicate.handles := by
  have hpredicate : ∀ p : Predicate, (p.ownReferences.flatMap fun r => [r.id]) = p.handles := by
    intro p
    rw [← List.map_eq_flatMap, map_id_ownReferences]
  rw [Criteria.named, references_eq_gather.1, List.map_eq_flatMap, (flatMap_gather _).1, funext hpredicate]
  rfl

theorem members_subset_gather (c : Criteria) (g : Predicate → List CriteriaId) :
    c.members.map Criteria.id ⊆ c.gather (fun c => [c.id]) g := by
  intro id hid
  obtain ⟨m, hm, rfl⟩ := List.mem_map.mp hid
  exact mem_gather.1 c |>.mpr (.inl ⟨m, hm, List.mem_singleton_self _⟩)

theorem members_subset_named (c : Criteria) : c.members.map Criteria.id ⊆ c.named := by
  rw [named_eq_gather]
  exact members_subset_gather c _

structure Fragment.Granted (k : Fragment → Option CriteriaId) (g : Predicate → List CriteriaId) : Prop where
  owned : ∀ f, ∀ id ∈ k f, id ∈ f.owner?
  keyword : ∀ text use, k (.keyword text use) = k (.column use)
  owner : ∀ p : Predicate, ∀ id ∈ p.head.owner, id ∈ g p
  test : ∀ enclosing head t,
    Asking k (enclosing :: g (.test head t)) (predicateFragment enclosing (.test head t))

namespace Fragment.Granted

variable {k : Fragment → Option CriteriaId} {g : Predicate → List CriteriaId} {ids : List CriteriaId}

theorem silent (hk : Granted k g) {f : Fragment} (hf : f.owner? = none) : ∀ id ∈ k f, id ∈ ids := by
  intro id hid
  have howner := hk.owned f id hid
  rw [hf] at howner
  cases howner

theorem of_ownedBy (hk : Granted k g) {fs : List Fragment} (h : OwnedBy ids fs) : Asking k ids fs :=
  fun f hf id hid => h f hf id (hk.owned f id hid)

theorem statement (hk : Granted k g) {d : Clauses Fragment} (h : Asking k ids d.bindingOrder) :
    Asking k ids d.statement := by
  intro f hf
  rcases Clauses.mem_bindingOrder hf with hf | ⟨s, rfl⟩ | ⟨text, parts, hparts, rfl⟩
  · exact h f hf
  · exact hk.silent rfl
  · rcases heading_cases text parts with heq | ⟨use, huse, -, heq⟩
    · exact heq ▸ hk.silent rfl
    · rw [heq, hk.keyword]
      exact h _ (hparts huse)

theorem predicates (hk : Granted k g) {enclosing : CriteriaId} {ps : List Predicate}
    (hp : ∀ p ∈ ps, Asking k ids (predicateFragment enclosing p)) (first : Bool) :
    Asking k ids (predicateFragments enclosing first ps) := by
  induction ps generalizing first with
  | nil => simp [predicateFragments, Within]
  | cons p ps ih =>
      obtain ⟨hp, hps⟩ := List.forall_mem_cons.mp hp
      exact within_cons.mpr ⟨hk.silent rfl, within_append.mpr ⟨hp, ih hps false⟩⟩

theorem source (hk : Granted k g) {id : CriteriaId} (hid : id ∈ ids) (table : String) :
    ∀ other ∈ k (.source id table), other ∈ ids := by
  intro other hother
  obtain rfl := Option.some.inj (hk.owned _ other hother)
  exact hid

theorem subject (hk : Granted k g) {enclosing : CriteriaId} {p : Predicate} {operator : String}
    {more : List CriteriaId} :
    ∀ id ∈ k (subjectFragment enclosing p.head operator), id ∈ enclosing :: (g p ++ more) := by
  intro id hid
  have howned := hk.owned _ id hid
  unfold subjectFragment at howned
  split at howned
  · cases howned
  · obtain rfl := Option.some.inj howned
    cases howner : p.head.owner with
    | none => simp [Predicate.Head.columnUse, howner]
    | some owner => simp [Predicate.Head.columnUse, howner, hk.owner p owner howner]

section Node

variable {node : Node} {ps : List Predicate} {js : List Criteria}

theorem draft_mk (hk : Granted k g) (hnode : (Criteria.mk node ps js).members.map Criteria.id ⊆ ids)
    (hjoins : Asking k ids (joinFragments js)) (hfilter : Asking k ids (predicateFragments node.id true ps))
    (existenceOnly : Bool) : Asking k ids (draft existenceOnly (.mk node ps js)).bindingOrder := by
  obtain ⟨hselect, hgroup, horder⟩ := plain_draft existenceOnly (.mk node ps js)
  have hplain : ∀ {fs}, Plain ((Criteria.mk node ps js).members.map Criteria.id) fs → Asking k ids fs :=
    fun hfs => (hk.of_ownedBy hfs.ownedBy).mono hnode
  have hself : node.id ∈ ids := hnode (List.mem_map_of_mem (Criteria.self_mem_members _))
  have hsource := within_cons.mpr ⟨hk.source hself node.entity.table, hjoins⟩
  have hwhere := within_append.mpr ⟨hsource, hfilter⟩
  have hgrouped := within_append.mpr ⟨hwhere, hplain hgroup⟩
  have hordered := within_append.mpr ⟨hgrouped, hplain horder⟩
  exact within_append.mpr ⟨hordered, hplain hselect⟩

theorem participant_mk (hk : Granted k g) (hself : node.id ∈ ids) (hjoins : Asking k ids (joinFragments js))
    (hfilter : Asking k ids (predicateFragments node.id true ps)) :
    Asking k ids (participantFragments (.mk node ps js)) := by
  unfold participantFragments
  split
  · exact within_cons.mpr ⟨hk.silent rfl, fun _ hf => by cases hf⟩
  · exact within_append.mpr ⟨within_cons.mpr ⟨hk.silent rfl,
      within_cons.mpr ⟨hk.source hself node.entity.table,
        within_cons.mpr ⟨hk.silent rfl, hfilter⟩⟩⟩, hjoins⟩

end Node

theorem of_draft (hk : Granted k g) :
    (∀ c : Criteria,
      (∀ existenceOnly, Asking k (c.gather (fun c => [c.id]) g) (draft existenceOnly c).bindingOrder) ∧
      Asking k (c.gather (fun c => [c.id]) g) (participantFragments c)) ∧
    ∀ (p : Predicate) enclosing,
      Asking k (enclosing :: p.gather (fun c => [c.id]) g) (predicateFragment enclosing p) := by
  have hlast : ∀ {ids}, Asking k ids [.closeQuery] ∧ Asking k ids [.closeGroup] := fun {ids} =>
    ⟨within_cons.mpr ⟨hk.silent rfl, fun _ hf => by cases hf⟩,
      within_cons.mpr ⟨hk.silent rfl, fun _ hf => by cases hf⟩⟩
  apply tree_induction
  case criteria =>
    intro node ps js hp hj
    let ids := (Criteria.mk node ps js).gather (fun c => [c.id]) g
    have hmembers : (Criteria.mk node ps js).members.map Criteria.id ⊆ ids := members_subset_gather _ g
    have hself : node.id ∈ ids := hmembers (List.mem_map_of_mem (Criteria.self_mem_members _))
    have hps : ∀ p ∈ ps, p.gather (fun c => [c.id]) g ⊆ ids := by
      intro p hmem id hid
      simp only [ids, gather_mk, List.mem_append, List.mem_flatMap]
      exact .inl (.inr ⟨p, hmem, hid⟩)
    have hjs : ∀ c ∈ js, c.gather (fun c => [c.id]) g ⊆ ids := by
      intro c hc id hid
      simp only [ids, gather_mk, List.mem_append, List.mem_flatMap]
      exact .inr ⟨c, hc, hid⟩
    have hfilter : Asking k ids (predicateFragments node.id true ps) :=
      hk.predicates (fun p hmem => (hp p hmem node.id).mono (List.cons_subset.mpr ⟨hself, hps p hmem⟩)) true
    have hjoins : Asking k ids (joinFragments js) := by
      rw [joinFragments_eq_flatMap]
      exact within_flatMap.mpr fun c hc => (hj c hc).2.mono (hjs c hc)
    exact ⟨hk.draft_mk hmembers hjoins hfilter, hk.participant_mk hself hjoins hfilter⟩
  case test =>
    intro head t enclosing
    rw [gather_test]
    exact hk.test enclosing head t
  case existence =>
    intro head negated query hq enclosing
    rw [gather_existence]
    have hstatement := (hk.statement (hq.1 true)).mono (List.subset_cons_of_subset enclosing
      (List.subset_append_right (g (.existence head negated query)) _))
    exact within_append.mpr ⟨within_cons.mpr ⟨hk.silent rfl, within_cons.mpr ⟨hk.silent rfl,
      hstatement⟩⟩, hlast.1⟩
  case subquery =>
    intro head op query hq enclosing
    rw [gather_subquery]
    have hstatement := (hk.statement (hq.1 false)).mono (List.subset_cons_of_subset enclosing
      (List.subset_append_right (g (.subquery head op query)) _))
    exact within_append.mpr ⟨within_cons.mpr ⟨hk.subject (p := .subquery head op query),
      within_cons.mpr ⟨hk.silent rfl, within_cons.mpr ⟨hk.silent rfl, hstatement⟩⟩⟩, hlast.1⟩
  case nested =>
    intro head negated children hc enclosing
    rw [gather_nested]
    have hchildren := hk.predicates (fun p hmem => (hc p hmem enclosing).mono
      (List.cons_subset_cons enclosing fun id hid =>
        List.mem_append_right (g (.nested head negated children)) (List.mem_flatMap.mpr ⟨p, hmem, hid⟩))) true
    exact within_append.mpr ⟨within_cons.mpr ⟨hk.silent rfl, hchildren⟩, hlast.2⟩

end Fragment.Granted

theorem owner_mem {enclosing : CriteriaId} {head : Predicate.Head} {more : List CriteriaId} :
    head.owner.getD enclosing ∈ enclosing :: (head.owner.toList ++ more) := by
  cases head.owner <;> simp

theorem granted_owner? : Granted owner? Predicate.handles where
  keyword _ _ := rfl
  owned _ _ hid := hid
  owner p id hid := by simp [Predicate.handles, Option.mem_def.mp hid]
  test enclosing head t := by
    unfold predicateFragment
    split
    · simp [Within, owner?]
    · exact (inner_testFragments owner_mem fun id hid => by simp [hid]).ownedBy

theorem ownedBy_draft (c : Criteria) (existenceOnly : Bool) :
    OwnedBy c.named (draft existenceOnly c).bindingOrder := by
  rw [named_eq_gather]
  exact (granted_owner?.of_draft.1 c).1 existenceOnly

end QueryCriteria
