import QueryCriteria.Proofs.BuiltSessions
import QueryCriteria.Proofs.Placeholders
import QueryCriteria.Proofs.Templates
import QueryCriteria.Proofs.TestFragments

namespace QueryCriteria

open Fragment Template Metrics

section Spoken

def Fragment.Spoken (fs : List Fragment) : Prop :=
  ∃ f ∈ fs, f.isEmpty = false

theorem spoken_cons {f : Fragment} (h : f.isEmpty = false) (fs : List Fragment) : Spoken (f :: fs) :=
  ⟨f, List.mem_cons_self, h⟩

theorem spoken_boundList {values : List Value} (h : values ≠ []) : Spoken (boundList values) := by
  obtain ⟨v, rest, rfl⟩ := List.exists_cons_of_ne_nil h
  cases rest <;> exact spoken_cons rfl _

theorem spoken_argumentFragments (template : String) (token : Token) (argument : Option Value) :
    Spoken (argumentFragments template token argument) := by
  unfold argumentFragments
  split
  · exact spoken_cons rfl _
  · exact spoken_cons rfl _
  · next values hne => exact spoken_boundList (by simpa using hne)
  · exact spoken_cons rfl _

theorem spoken_segmentFragments (template : String) (args : TemplateArgs) (subject : Option ColumnUse)
    {segment : Segment} (h : segment ≠ .text "") :
    Spoken (segmentFragments template args subject segment) := by
  cases segment with
  | text s =>
      have hs : s ≠ "" := fun heq => h (heq ▸ rfl)
      exact spoken_cons (by simpa [isEmpty] using hs) _
  | token token =>
      cases token with
      | positional index => exact spoken_argumentFragments _ _ _
      | named name => exact spoken_argumentFragments _ _ _
      | column => cases subject <;> exact spoken_cons rfl _

theorem spoken_templateFragments {template : String} (args : TemplateArgs) (subject : Option ColumnUse)
    (h : template ≠ "") : Spoken (templateFragments template args subject) := by
  unfold templateFragments
  cases hparse : parse template with
  | error fault => exact spoken_cons rfl _
  | ok segments =>
      obtain ⟨hnormal, hspelled⟩ := parse_eq_ok_iff.mp hparse
      have hne : segments ≠ [] := by
        rintro rfl
        generalize hread : template.toList = cs at hspelled
        cases hspelled
        exact h (String.toList_eq_nil_iff.mp hread)
      obtain ⟨segment, hsegment⟩ := List.exists_mem_of_ne_nil _ hne
      have htext : segment ≠ .text "" := fun heq => hnormal.nonempty (heq ▸ hsegment)
      obtain ⟨f, hf, hempty⟩ := spoken_segmentFragments template args subject htext
      exact ⟨f, List.mem_flatMap.mpr ⟨segment, hsegment, hf⟩, hempty⟩

theorem spoken_predicateFragment {enclosing : CriteriaId} {p : Predicate} (h : p.Meaningful) :
    Spoken (predicateFragment enclosing p) := by
  cases p with
  | test head t =>
      obtain ⟨target, htarget, hwritten, haccepts, -⟩ := h
      simp only [predicateFragment, htarget]
      cases t with
      | range op values =>
          simp only [testFragments]
          split <;> exact spoken_cons rfl _
      | template args subject =>
          cases target with
          | raw sql =>
              refine spoken_templateFragments args _ ?_
              rintro rfl
              simp [Target.Written, Text.isBlank_empty] at hwritten
          | resolved column => cases haccepts
      | _ => exact spoken_cons rfl _
  | existence head negated query => cases negated <;> exact spoken_cons (by simp [isEmpty]) _
  | subquery head op query =>
      obtain ⟨target, htarget, -⟩ := h
      simp only [predicateFragment, subjectFragment, htarget]
      exact spoken_cons rfl _
  | nested head negated children => exact spoken_cons rfl _

theorem spoken_predicateFragments {enclosing : CriteriaId} {ps : List Predicate} (hne : ps ≠ [])
    (h : ∀ p ∈ ps, p.Meaningful) (first : Bool) : Spoken (predicateFragments enclosing first ps) := by
  obtain ⟨p, rest, rfl⟩ := List.exists_cons_of_ne_nil hne
  obtain ⟨f, hf, hempty⟩ := spoken_predicateFragment (h p List.mem_cons_self)
  exact ⟨f, List.mem_append_left _ (List.mem_cons_of_mem _ hf), hempty⟩

end Spoken

def Predicate.asksQuery : Predicate → Bool
  | .existence _ _ _ => true
  | .subquery _ _ _ => true
  | _ => false

structure Fragment.Tallies (fs : List Fragment) (ps : List Predicate) : Prop where
  leads : fs.countP isLead = ps.length
  queries : fs.countP isQuery = ps.countP Predicate.asksQuery

namespace Fragment.Tallies

variable {fs gs : List Fragment} {ps qs : List Predicate}

theorem of_silent (h : Within (fun f => f.isLead = false ∧ f.isQuery = false) fs) : Tallies fs [] where
  leads := List.countP_eq_zero.mpr fun f hf => by simp [h f hf]
  queries := List.countP_eq_zero.mpr fun f hf => by simp [h f hf]

theorem append (h : Tallies fs ps) (k : Tallies gs qs) : Tallies (fs ++ gs) (ps ++ qs) where
  leads := by rw [List.countP_append, h.leads, k.leads, List.length_append]
  queries := by rw [List.countP_append, h.queries, k.queries, List.countP_append]

theorem flatMap {α : Type} {l : List α} {k : α → List Fragment} {k' : α → List Predicate}
    (h : ∀ a ∈ l, Tallies (k a) (k' a)) : Tallies (l.flatMap k) (l.flatMap k') := by
  induction l with
  | nil => exact ⟨rfl, rfl⟩
  | cons a l ih =>
      obtain ⟨ha, hl⟩ := List.forall_mem_cons.mp h
      exact ha.append (ih hl)

theorem perm (h : Tallies fs ps) (hfs : fs.Perm gs) (hps : ps.Perm qs) : Tallies gs qs where
  leads := by rw [← hfs.countP_eq, h.leads, hps.length_eq]
  queries := by rw [← hfs.countP_eq, h.queries, hps.countP_eq]

end Fragment.Tallies

section Draft

abbrev Fragment.Silent : List Fragment → Prop :=
  Within fun f => f.isLead = false ∧ f.isQuery = false

theorem silent_plain {ids : List CriteriaId} {fs : List Fragment} (h : Plain ids fs) : Silent fs := by
  intro f hf
  have hplain := h f hf
  cases f with
  | sql s => exact ⟨rfl, rfl⟩
  | column use => exact ⟨rfl, rfl⟩
  | _ => cases hplain

theorem silent_testFragments (enclosing : CriteriaId) (head : Predicate.Head) (target : Target) (t : Test) :
    Silent (testFragments enclosing head target t) := by
  have hsilent : OfTests (head.owner.getD enclosing :: t.handles)
      fun f => f.isLead = false ∧ f.isQuery = false := by
    constructor <;> simp [isLead, isQuery]
  exact within_testFragments hsilent List.mem_cons_self fun _ => List.mem_cons_of_mem _

theorem silent_subjectFragment (enclosing : CriteriaId) (head : Predicate.Head) (operator : String) :
    (subjectFragment enclosing head operator).isLead = false ∧
      (subjectFragment enclosing head operator).isQuery = false := by
  unfold subjectFragment
  split <;> exact ⟨rfl, rfl⟩

variable {ps qs : List Predicate}

theorem tallies_clause {parts : List Fragment} (h : Tallies parts qs) (hspoken : qs ≠ [] → Spoken parts)
    (keyword : String) : Tallies (Clauses.clause keyword parts) qs := by
  unfold Clauses.clause
  split
  next hall =>
    have hnil : qs = [] := by
      by_contra hne
      obtain ⟨f, hf, hempty⟩ := hspoken hne
      have hdropped : f.isEmpty = true := List.all_eq_true.mp hall f hf
      rw [hempty] at hdropped
      cases hdropped
    rw [hnil]
    exact ⟨rfl, rfl⟩
  next =>
    have hkeyword : Silent [(SqlPart.heading keyword parts : Fragment)] := by
      rcases heading_cases keyword parts with heq | ⟨use, -, -, heq⟩ <;> simp [heq, Within, isLead, isQuery]
    exact (Tallies.of_silent hkeyword).append h

theorem tallies_clauses {d : Clauses Fragment} (hselect : Silent d.select) (hgroup : Silent d.group)
    (horder : Silent d.order) (hsource : Tallies d.source ps) (hfilter : Tallies d.filter qs)
    (hspoken : qs ≠ [] → Spoken d.filter) :
    Tallies d.bindingOrder (ps ++ qs) ∧ Tallies d.statement (ps ++ qs) := by
  have hsilent : ∀ {fs}, Silent fs → Tallies fs [] := Tallies.of_silent
  have hsql : ∀ s, Silent [(SqlPart.sql s : Fragment)] := by simp [Within, SqlPart.sql, isLead, isQuery]
  have hwindow : Silent (Clauses.windowParts d.window) := by
    cases d.window with
    | none => simp [Clauses.windowParts, Within]
    | some w => exact hsql _
  constructor
  · have hall := (((hsource.append hfilter).append (hsilent hgroup)).append (hsilent horder)).append
      (hsilent hselect)
    simpa [Clauses.bindingOrder] using hall
  · have hwhere := tallies_clause hfilter hspoken " WHERE "
    have hgrouped := tallies_clause (hsilent hgroup) (by simp) " GROUP BY "
    have hordered := tallies_clause (hsilent horder) (by simp) " ORDER BY "
    have hfrom := (hsilent (hsql " FROM ")).append hsource
    have hopening := ((hsilent (hsql "SELECT ")).append (hsilent hselect)).append hfrom
    have hall := (((hopening.append hwhere).append hgrouped).append hordered).append (hsilent hwindow)
    simpa [Clauses.statement, Clauses.query] using hall

theorem tallies_predicateFragments {enclosing : CriteriaId} (h : ∀ p ∈ ps, ∀ connective,
    Tallies (.lead connective :: predicateFragment enclosing p) p.conditions) (first : Bool) :
    Tallies (predicateFragments enclosing first ps) (ps.flatMap Predicate.conditions) := by
  induction ps generalizing first with
  | nil => exact ⟨rfl, rfl⟩
  | cons p ps ih =>
      obtain ⟨hp, hps⟩ := List.forall_mem_cons.mp h
      exact (hp _).append (ih hps false)

theorem self_mem_conditions (p : Predicate) : p ∈ p.conditions := by
  cases p <;> simp

theorem spoken_of_built {node : Node} {js : List Criteria} (h : (Criteria.mk node ps js).Built)
    (hne : ps.flatMap Predicate.conditions ≠ []) : Spoken (predicateFragments node.id true ps) := by
  refine spoken_predicateFragments (fun heq => hne (by simp [heq])) (fun p hp => ?_) true
  exact ((built_mk.mp h).1 p hp p (self_mem_conditions p)).1

theorem tallies_lead (connective : Option Connective) {p : Predicate} (hp : p.asksQuery = false) :
    Tallies [.lead connective] [p] where
  leads := rfl
  queries := by simp [isQuery, hp]

theorem tallies_query (connective : Option Connective) {opening : List Fragment} {p : Predicate}
    (hopening : Silent opening) (hp : p.asksQuery = true) :
    Tallies (.lead connective :: opening ++ [.openQuery]) [p] where
  leads := by
    have hnone := (Tallies.of_silent hopening).leads
    simp [List.countP_cons, isLead, hnone]
  queries := by
    have hnone := (Tallies.of_silent hopening).queries
    simp [List.countP_cons, isQuery, hnone, hp]

theorem tallies_draft :
    (∀ c : Criteria, c.Built →
      (∀ existenceOnly, Accepted (draft existenceOnly c).bindingOrder →
        Tallies (draft existenceOnly c).bindingOrder c.conditions ∧
          Tallies (draft existenceOnly c).statement c.conditions) ∧
      (Accepted (participantFragments c) → Tallies (participantFragments c) c.conditions)) ∧
    ∀ p : Predicate, p.Built → ∀ enclosing, Accepted (predicateFragment enclosing p) →
      ∀ connective, Tallies (.lead connective :: predicateFragment enclosing p) p.conditions := by
  have hclosing : Silent [.closeQuery] := by simp [Within, isLead, isQuery]
  apply tree_induction
  case criteria =>
    intro node ps js hp hj hbuilt
    obtain ⟨hps, hjs⟩ := built_mk.mp hbuilt
    have hjoins : Accepted (joinFragments js) →
        Tallies (joinFragments js) (js.flatMap Criteria.conditions) := by
      intro ha
      rw [joinFragments_eq_flatMap]
      exact .flatMap fun c hc => (hj c hc (hjs c hc)).2 (within_of_joinFragments ha c hc)
    have hfilter : Accepted (predicateFragments node.id true ps) →
        Tallies (predicateFragments node.id true ps) (ps.flatMap Predicate.conditions) := fun ha =>
      tallies_predicateFragments
        (fun p hmem => hp p hmem (hps p hmem) node.id (within_of_predicateFragments ha p hmem)) true
    rw [Criteria.conditions_mk]
    constructor
    · intro existenceOnly ha
      obtain ⟨hselect, hgroup, horder⟩ := plain_draft existenceOnly (.mk node ps js)
      obtain ⟨hsources, hwhere⟩ := within_of_draft ha
      have hsource : Silent [.source node.id node.entity.table] := by simp [Within, isLead, isQuery]
      have hall := tallies_clauses (d := draft existenceOnly (.mk node ps js)) (silent_plain hselect)
        (silent_plain hgroup) (silent_plain horder) ((Tallies.of_silent hsource).append (hjoins hsources))
        (hfilter hwhere) (spoken_of_built hbuilt)
      exact ⟨hall.1.perm (.refl _) List.perm_append_comm, hall.2.perm (.refl _) List.perm_append_comm⟩
    · intro ha
      have hne := ne_nil_of_accepted ha
      obtain ⟨hsources, hon⟩ := within_of_participant hne ha
      have hopening : Silent [.sql (" " ++ node.join.kind.text ++ " "), .source node.id node.entity.table,
          .sql " ON "] := by simp [Within, isLead, isQuery]
      rw [participantFragments_mk hne]
      exact ((Tallies.of_silent hopening).append (hfilter hon)).append (hjoins hsources)
  case test =>
    intro head t hbuilt enclosing ha connective
    have hsilent : Silent (predicateFragment enclosing (.test head t)) := by
      unfold predicateFragment
      split
      · simp [Within, isLead, isQuery]
      · exact silent_testFragments _ _ _ _
    rw [Predicate.conditions_test]
    exact (tallies_lead connective rfl).append (.of_silent hsilent)
  case existence =>
    intro head negated query hq hbuilt enclosing ha connective
    rw [Predicate.conditions_existence]
    have hquery := ((hq fun q hmem => hbuilt q (by simp [hmem])).1 true
      (within_bindingOrder accepted_of_isEmpty (within_of_existence ha))).2
    have hopening : Silent [.sql (if negated then "NOT EXISTS " else "EXISTS ")] := by
      simp [Within, isLead, isQuery]
    have hasked : (Predicate.existence head negated query).asksQuery = true := rfl
    have hall := ((tallies_query connective hopening hasked).append hquery).append (.of_silent hclosing)
    simpa [predicateFragment] using hall
  case subquery =>
    intro head op query hq hbuilt enclosing ha connective
    rw [Predicate.conditions_subquery]
    have hquery := ((hq fun q hmem => hbuilt q (by simp [hmem])).1 false
      (within_bindingOrder accepted_of_isEmpty (within_of_subquery ha).2)).2
    have hopening : Silent [subjectFragment enclosing head op.text, .sql (" " ++ op.text ++ " ")] :=
      within_cons.mpr ⟨silent_subjectFragment enclosing head op.text, by simp [Within, isLead, isQuery]⟩
    have hasked : (Predicate.subquery head op query).asksQuery = true := rfl
    have hall := ((tallies_query connective hopening hasked).append hquery).append (.of_silent hclosing)
    simpa [predicateFragment] using hall
  case nested =>
    intro head negated children hc hbuilt enclosing ha connective
    rw [Predicate.conditions_nested]
    have hbuilt : ∀ p ∈ children, p.Built := by
      intro p hmem q hq
      refine hbuilt q ?_
      rw [Predicate.conditions_nested]
      exact List.mem_cons_of_mem _ (List.mem_flatMap.mpr ⟨p, hmem, hq⟩)
    have hchildren := tallies_predicateFragments (fun p hmem => hc p hmem (hbuilt p hmem) enclosing
      (within_of_predicateFragments (within_of_nested ha) p hmem)) true
    have hopened : Silent [.openGroup negated] := by simp [Within, isLead, isQuery]
    have hclosed : Silent [.closeGroup] := by simp [Within, isLead, isQuery]
    have hasked : (Predicate.nested head negated children).asksQuery = false := rfl
    have hall := (((tallies_lead connective hasked).append (.of_silent hopened)).append hchildren).append
      (.of_silent hclosed)
    simpa [predicateFragment] using hall

end Draft

theorem values_and_counts {S : Session} (hS : S.Reachable) {c : Criteria} (hc : c ∈ S.criteria)
    {compiled : Compiled} {w : Workspace} (h : S.workspace.compile c = (.ok compiled, w)) :
    compiled.bindings.values = c.boundValues ∧
      w.telemetry = S.workspace.telemetry.record (.compileFinished c.node.entity.name c.conditions.length
        c.boundValues.length (c.conditions.countP Predicate.asksQuery)) := by
  have hresult : ((S.workspace.scope c.scope).compile c).1 = .ok compiled := by
    rw [← Workspace.result_compile, h]
  have hcompile : (S.workspace.scope c.scope).compile c =
      (.ok compiled, ((S.workspace.scope c.scope).compile c).2) := Prod.ext hresult rfl
  have hvalues := values_of_compile hcompile
  obtain ⟨-, -, hfailure, -, -⟩ := Scope.compile_eq_ok hcompile
  have hbuilt := (Session.allBuilt_of_reachable hS).criteria c hc
  have htally := ((tallies_draft.1 c hbuilt).1 false (Fragment.accepted_of_firstFailure? hfailure)).1
  have hsize : compiled.bindings.size = c.boundValues.length := by
    rw [← hvalues]
    exact (List.length_map _).symm
  refine ⟨hvalues, ?_⟩
  have hstate := congrArg (fun outcome => outcome.2.telemetry) h
  rw [← hstate, Workspace.compile, hcompile, ← hsize, ← htally.leads, ← htally.queries]
  rfl

def lookout : Criteria :=
  (Criteria.fresh ⟨0⟩ ⟨1⟩ vessel none).push
    (.test { matched := .immediate, target := some (.raw "speed IN ({0}) OR limit IN ({0})") }
      (.template { positional := [.list [.int 3, .int 5]] } none))

def patrol : Criteria :=
  (Criteria.fresh ⟨0⟩ ⟨0⟩ vessel none).push (.existence {} true lookout)

theorem reachable_patrol : ((fleet.holding lookout).holding patrol).Reachable := by
  have hharbour : harbour.Reachable := .single (.openScope {} { entities := [vessel] })
  have hflagship : flagship.Reachable := hharbour.tail (.create "Vessel" none (by decide))
  have hfleet : fleet.Reachable := hflagship.tail (.create "Vessel" none (by decide))
  let speeds : Condition :=
    .plain .and (.template "speed IN ({0}) OR limit IN ({0})" { positional := [.list [.int 3, .int 5]] })
  have hspeeds : fleet.workspace.add (.fresh ⟨0⟩ ⟨1⟩ vessel none) (.condition speeds) =
      (some lookout, fleet.workspace) := rfl
  have hlookout : (fleet.holding lookout).Reachable :=
    hfleet.tail (.add List.mem_cons_self (List.nil_subset _) (List.nil_subset _) hspeeds)
  have hexistence : fleet.workspace.add (.fresh ⟨0⟩ ⟨0⟩ vessel none)
      (.condition (.plain .and (.existence true (some lookout)))) = (some patrol, fleet.workspace) := rfl
  have hqueries : [lookout] ⊆ (fleet.holding lookout).criteria :=
    List.cons_subset_cons _ (List.nil_subset _)
  exact hlookout.tail (.add (a := .condition (.plain .and (.existence true (some lookout))))
    (List.mem_cons_of_mem _ (List.mem_cons_of_mem _ List.mem_cons_self)) hqueries (List.nil_subset _)
    hexistence)

theorem patrol_tallied : ∃ compiled w, fleet.workspace.compile patrol = (.ok compiled, w) ∧
    compiled.bindings.values = [.int 3, .int 5, .int 3, .int 5] ∧
      w.telemetry = fleet.workspace.telemetry.record (.compileFinished "Vessel" 2 4 1) := by
  obtain ⟨compiled, w, hcompile⟩ : ∃ compiled w, fleet.workspace.compile patrol = (.ok compiled, w) :=
    ⟨_, _, rfl⟩
  obtain ⟨hvalues, htelemetry⟩ :=
    values_and_counts reachable_patrol (c := patrol) List.mem_cons_self hcompile
  have hbound : patrol.boundValues = [.int 3, .int 5, .int 3, .int 5] := rfl
  rw [hbound] at hvalues htelemetry
  exact ⟨compiled, w, hcompile, hvalues, htelemetry⟩

end QueryCriteria
