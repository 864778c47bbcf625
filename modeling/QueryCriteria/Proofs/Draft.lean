import QueryCriteria.Proofs.Fragments

namespace QueryCriteria

open Fragment

theorem joinFragments_eq_flatMap (js : List Criteria) :
    joinFragments js = js.flatMap participantFragments := by
  induction js with
  | nil => rfl
  | cons c cs ih => simp [joinFragments, ih]

section Within

variable {a : Fragment → Prop} {node : Node} {ps : List Predicate} {js : List Criteria}

theorem infix_predicateFragments {enclosing : CriteriaId} {first : Bool} {p : Predicate} (hp : p ∈ ps) :
    predicateFragment enclosing p <:+: predicateFragments enclosing first ps := by
  induction ps generalizing first with
  | nil => cases hp
  | cons q ps ih =>
      rw [predicateFragments]
      rcases List.mem_cons.mp hp with rfl | hp
      · exact ⟨[.lead _], predicateFragments enclosing false ps, rfl⟩
      · exact (ih hp).trans (List.suffix_append _ _).isInfix

theorem within_of_predicateFragments {enclosing : CriteriaId} {first : Bool}
    (h : Within a (predicateFragments enclosing first ps)) :
    ∀ p ∈ ps, Within a (predicateFragment enclosing p) :=
  fun _ hp f hf => h f ((infix_predicateFragments hp).subset hf)

theorem within_of_joinFragments (h : Within a (joinFragments js)) :
    ∀ c ∈ js, Within a (participantFragments c) := by
  rw [joinFragments_eq_flatMap] at h
  exact within_flatMap.mp h

theorem within_of_draft {existenceOnly : Bool}
    (h : Within a (draft existenceOnly (.mk node ps js)).bindingOrder) :
    Within a (joinFragments js) ∧ Within a (predicateFragments node.id true ps) := by
  simp only [draft, Clauses.bindingOrder, within_append, within_cons] at h
  obtain ⟨⟨⟨⟨⟨-, hjoins⟩, hfilter⟩, -⟩, -⟩, -⟩ := h
  exact ⟨hjoins, hfilter⟩

theorem participantFragments_mk (hne : ps ≠ []) :
    participantFragments (.mk node ps js) =
      .sql (" " ++ node.join.kind.text ++ " ") :: .source node.id node.entity.table :: .sql " ON " ::
        predicateFragments node.id true ps ++ joinFragments js := by
  have hempty : ps.isEmpty = false := by simpa using hne
  rw [participantFragments, hempty, if_neg Bool.false_ne_true]

theorem within_of_participant (hne : ps ≠ []) (h : Within a (participantFragments (.mk node ps js))) :
    Within a (joinFragments js) ∧ Within a (predicateFragments node.id true ps) := by
  simp only [participantFragments_mk hne, within_append, within_cons] at h
  obtain ⟨⟨-, -, -, hfilter⟩, hjoins⟩ := h
  exact ⟨hjoins, hfilter⟩

theorem ne_nil_of_accepted (h : Accepted (participantFragments (.mk node ps js))) : ps ≠ [] := by
  rintro rfl
  simp [participantFragments, Within, isReject] at h

variable {enclosing : CriteriaId} {head : Predicate.Head}

theorem within_of_existence {negated : Bool} {query : Criteria}
    (h : Within a (predicateFragment enclosing (.existence head negated query))) :
    Within a (draft true query).statement := by
  simp only [predicateFragment, within_append, within_cons] at h
  exact h.1.2.2

theorem within_of_subquery {op : SubqueryOp} {query : Criteria}
    (h : Within a (predicateFragment enclosing (.subquery head op query))) :
    a (subjectFragment enclosing head op.text) ∧ Within a (draft false query).statement := by
  simp only [predicateFragment, within_append, within_cons] at h
  exact ⟨h.1.1, h.1.2.2.2⟩

theorem within_of_nested {negated : Bool} {children : List Predicate}
    (h : Within a (predicateFragment enclosing (.nested head negated children))) :
    Within a (predicateFragments enclosing true children) := by
  simp only [predicateFragment, within_append, within_cons] at h
  exact h.1.2

end Within

section Selective

variable {α : Type} {h : Fragment → Option α}

theorem filterMap_predicateFragments (hs : Selective h) (enclosing : CriteriaId) (first : Bool)
    (ps : List Predicate) :
    (predicateFragments enclosing first ps).filterMap h =
      ps.flatMap fun p => (predicateFragment enclosing p).filterMap h := by
  induction ps generalizing first with
  | nil => rfl
  | cons p ps ih =>
      rw [predicateFragments, List.cons_append, List.filterMap_cons_none (hs (.lead _) rfl rfl rfl),
        List.filterMap_append, ih, List.flatMap_cons]

theorem filterMap_statement_draft (hs : Selective h) (existenceOnly : Bool) (c : Criteria) :
    (draft existenceOnly c).statement.filterMap h =
      ((draft existenceOnly c).source ++ (draft existenceOnly c).filter).filterMap h := by
  obtain ⟨hselect, hgroup, horder⟩ := plain_draft existenceOnly c
  rw [Clauses.filterMap_statement hs.blind, hselect.filterMap hs, hgroup.filterMap hs,
    horder.filterMap hs]
  simp

theorem filterMap_bindingOrder_draft (hs : Selective h) (existenceOnly : Bool) (c : Criteria) :
    (draft existenceOnly c).bindingOrder.filterMap h =
      ((draft existenceOnly c).source ++ (draft existenceOnly c).filter).filterMap h := by
  obtain ⟨hselect, hgroup, horder⟩ := plain_draft existenceOnly c
  simp [Clauses.bindingOrder, hselect.filterMap hs, hgroup.filterMap hs, horder.filterMap hs]

structure Congruent (R : List α → List α → Prop) : Prop where
  nil : R [] []
  append : ∀ {xs ys xs' ys'}, R xs ys → R xs' ys' → R (xs ++ xs') (ys ++ ys')

theorem Congruent.eq : Congruent (α := α) (· = ·) where
  nil := rfl
  append h k := by rw [h, k]

theorem Congruent.flatMap {β : Type} {R : List α → List α → Prop} (hR : Congruent R) {l : List β}
    {k k' : β → List α} (h : ∀ b ∈ l, R (k b) (k' b)) : R (l.flatMap k) (l.flatMap k') := by
  induction l with
  | nil => exact hR.nil
  | cons b bs ih =>
      obtain ⟨hb, hbs⟩ := List.forall_mem_cons.mp h
      exact hR.append hb (ih hbs)

end Selective

structure Reads {α : Type} (a : Fragment → Prop) (R : List α → List α → Prop) (h : Fragment → Option α)
    (q j : Criteria → List α) (g : CriteriaId → Predicate → List α) : Prop where
  selective : Selective h
  congruent : Congruent R
  empty : ∀ f, f.isEmpty = true → a f
  table : ∀ c : Criteria, R (h (.source c.id c.node.entity.table)).toList (q c)
  joined : ∀ c : Criteria, c.predicates ≠ [] → R (h (.source c.id c.node.entity.table)).toList (j c)
  unjoined : ∀ c : Criteria, c.predicates = [] → Within a (participantFragments c) →
    R ((participantFragments c).filterMap h) (c.joinedReading q j g)
  test : ∀ enclosing head t, Within a (predicateFragment enclosing (.test head t)) →
    R ((predicateFragment enclosing (.test head t)).filterMap h) (g enclosing (.test head t))
  existence : ∀ enclosing head negated query, R [] (g enclosing (.existence head negated query))
  subquery : ∀ enclosing head op query, a (subjectFragment enclosing head op.text) →
    R (h (subjectFragment enclosing head op.text)).toList (g enclosing (.subquery head op query))
  nested : ∀ enclosing head negated children, R [] (g enclosing (.nested head negated children))

namespace Reads

variable {α : Type} {a : Fragment → Prop} {R : List α → List α → Prop} {h : Fragment → Option α}
  {q j : Criteria → List α} {g : CriteriaId → Predicate → List α}

theorem statement (hr : Reads a R h q j g) {existenceOnly : Bool} {c : Criteria}
    (hc : Within a (draft existenceOnly c).bindingOrder →
      R ((draft existenceOnly c).bindingOrder.filterMap h) (c.reading q j g))
    (ha : Within a (draft existenceOnly c).statement) :
    R ((draft existenceOnly c).statement.filterMap h) (c.reading q j g) := by
  rw [filterMap_statement_draft hr.selective, ← filterMap_bindingOrder_draft hr.selective]
  exact hc (within_bindingOrder hr.empty ha)

theorem predicates (hr : Reads a R h q j g) {enclosing : CriteriaId} {ps : List Predicate}
    (hp : ∀ p ∈ ps, Within a (predicateFragment enclosing p) →
      R ((predicateFragment enclosing p).filterMap h) (p.reading q j g enclosing)) {first : Bool}
    (ha : Within a (predicateFragments enclosing first ps)) :
    R ((predicateFragments enclosing first ps).filterMap h)
      (ps.flatMap (·.reading q j g enclosing)) := by
  rw [filterMap_predicateFragments hr.selective]
  exact hr.congruent.flatMap fun p hmem => hp p hmem (within_of_predicateFragments ha p hmem)

theorem joins (hr : Reads a R h q j g) {js : List Criteria}
    (hj : ∀ c ∈ js, Within a (participantFragments c) →
      R ((participantFragments c).filterMap h) (c.joinedReading q j g))
    (ha : Within a (joinFragments js)) :
    R ((joinFragments js).filterMap h) (js.flatMap (·.joinedReading q j g)) := by
  rw [joinFragments_eq_flatMap, List.filterMap_flatMap]
  exact hr.congruent.flatMap fun c hc => hj c hc (within_of_joinFragments ha c hc)

section Node

variable {node : Node} {ps : List Predicate} {js : List Criteria}

theorem of_draft_mk (hr : Reads a R h q j g)
    (hjoins : R ((joinFragments js).filterMap h) (js.flatMap (·.joinedReading q j g)))
    (hfilter : R ((predicateFragments node.id true ps).filterMap h)
      (ps.flatMap (·.reading q j g node.id))) (existenceOnly : Bool) :
    R ((draft existenceOnly (.mk node ps js)).bindingOrder.filterMap h)
      ((Criteria.mk node ps js).reading q j g) := by
  have hsource := hr.congruent.append (hr.table (.mk node ps js)) hjoins
  have hall := hr.congruent.append hsource hfilter
  rw [filterMap_bindingOrder_draft hr.selective, reading_mk]
  simp only [draft, List.filterMap_append, List.filterMap_cons]
  cases hseen : h (.source node.id node.entity.table) <;>
    simpa [Criteria.id, Criteria.node, hseen] using hall

theorem of_participant_mk (hr : Reads a R h q j g) (hne : ps ≠ [])
    (hjoins : R ((joinFragments js).filterMap h) (js.flatMap (·.joinedReading q j g)))
    (hfilter : R ((predicateFragments node.id true ps).filterMap h)
      (ps.flatMap (·.reading q j g node.id))) :
    R ((participantFragments (.mk node ps js)).filterMap h)
      ((Criteria.mk node ps js).joinedReading q j g) := by
  have hcondition := hr.congruent.append (hr.joined (.mk node ps js) hne) hfilter
  have hall := hr.congruent.append hcondition hjoins
  rw [participantFragments_mk hne, joinedReading_mk]
  simp only [List.filterMap_append, List.filterMap_cons, hr.selective (.sql _) rfl rfl rfl]
  cases hseen : h (.source node.id node.entity.table) <;>
    simpa [Criteria.id, Criteria.node, hseen] using hall

end Node

theorem of_draft (hr : Reads a R h q j g) :
    (∀ c : Criteria,
      (∀ existenceOnly, Within a (draft existenceOnly c).bindingOrder →
        R ((draft existenceOnly c).bindingOrder.filterMap h) (c.reading q j g)) ∧
      (Within a (participantFragments c) →
        R ((participantFragments c).filterMap h) (c.joinedReading q j g))) ∧
    ∀ (p : Predicate) enclosing, Within a (predicateFragment enclosing p) →
      R ((predicateFragment enclosing p).filterMap h) (p.reading q j g enclosing) := by
  have hs := hr.selective
  apply tree_induction
  case criteria =>
    intro node ps js hp hj
    have hps := fun p hmem => hp p hmem node.id
    have hjs := hr.joins fun c hc => (hj c hc).2
    constructor
    · intro existenceOnly ha
      obtain ⟨hjoins, hfilter⟩ := within_of_draft ha
      exact hr.of_draft_mk (hjs hjoins) (hr.predicates hps hfilter) existenceOnly
    · intro ha
      by_cases hempty : ps = []
      · exact hr.unjoined (.mk node ps js) hempty ha
      · obtain ⟨hjoins, hfilter⟩ := within_of_participant hempty ha
        exact hr.of_participant_mk hempty (hjs hjoins) (hr.predicates hps hfilter)
  case test =>
    intro head t enclosing ha
    rw [reading_test]
    exact hr.test enclosing head t ha
  case existence =>
    intro head negated query hq enclosing ha
    have hall := hr.congruent.append (hr.existence enclosing head negated query)
      (hr.statement (hq.1 true) (within_of_existence ha))
    rw [reading_existence]
    simpa [predicateFragment, hs (.sql _) rfl rfl rfl, hs .openQuery rfl rfl rfl,
      hs .closeQuery rfl rfl rfl] using hall
  case subquery =>
    intro head op query hq enclosing ha
    obtain ⟨hsubject, hstatement⟩ := within_of_subquery ha
    have hall := hr.congruent.append (hr.subquery enclosing head op query hsubject)
      (hr.statement (hq.1 false) hstatement)
    rw [reading_subquery]
    simp only [predicateFragment, List.filterMap_append, List.filterMap_cons,
      hs (.sql _) rfl rfl rfl, hs .openQuery rfl rfl rfl, hs .closeQuery rfl rfl rfl]
    cases hseen : h (subjectFragment enclosing head op.text) <;> simpa [hseen] using hall
  case nested =>
    intro head negated children hc enclosing ha
    have hall := hr.congruent.append (hr.nested enclosing head negated children)
      (hr.predicates (fun p hmem => hc p hmem enclosing) (within_of_nested ha))
    rw [reading_nested]
    simpa [predicateFragment, hs (.openGroup _) rfl rfl rfl, hs .closeGroup rfl rfl rfl] using hall

theorem of_accepted (hs : Selective h) {g : Predicate → List α}
    (htest : ∀ enclosing head t, Accepted (predicateFragment enclosing (.test head t)) →
      (predicateFragment enclosing (.test head t)).filterMap h = g (.test head t))
    (hexistence : ∀ head negated query, g (.existence head negated query) = [])
    (hsubquery : ∀ head op query, g (.subquery head op query) = [])
    (hnested : ∀ head negated children, g (.nested head negated children) = []) :
    Reads (fun f => f.isReject = false) (· = ·) h
      (fun c => (h (.source c.id c.node.entity.table)).toList)
      (fun c => (h (.source c.id c.node.entity.table)).toList) fun _ => g where
  selective := hs
  congruent := .eq
  empty := accepted_of_isEmpty
  table _ := rfl
  joined _ _ := rfl
  unjoined c hempty ha := by
    obtain ⟨node, ps, js⟩ := c
    obtain rfl : ps = [] := hempty
    simp [participantFragments, Within, isReject] at ha
  test := htest
  existence _ head negated query := (hexistence head negated query).symm
  subquery enclosing head op query ha := by
    unfold subjectFragment at ha ⊢
    cases htarget : head.target with
    | none => simp [htarget, isReject] at ha
    | some target => rw [hs (.column _) rfl rfl rfl, hsubquery, Option.toList_none]
  nested _ head negated children := (hnested head negated children).symm

end Reads

end QueryCriteria
