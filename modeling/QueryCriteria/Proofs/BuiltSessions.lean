import QueryCriteria.Proofs.BuiltPredicates
import QueryCriteria.Proofs.Session

namespace QueryCriteria

section Session

theorem built_push {c : Criteria} {p : Predicate} (hc : c.Built) (hp : p.Built) : (c.push p).Built := by
  obtain ⟨node, ps, js⟩ := c
  obtain ⟨hps, hjs⟩ := built_mk.mp hc
  refine built_mk.mpr ⟨fun q hq => ?_, hjs⟩
  rcases List.mem_append.mp hq with hq | hq
  · exact hps q hq
  · obtain rfl := List.mem_singleton.mp hq
    exact built_bindOwner _ hp

theorem built_mapNode {c : Criteria} (f : Node → Node) (hc : c.Built) : (c.mapNode f).Built := by
  obtain ⟨node, ps, js⟩ := c
  exact built_mk.mpr (built_mk.mp hc)

theorem built_join {c participant : Criteria} (hc : c.Built) (hp : participant.Built) :
    (c.join participant).Built := by
  obtain ⟨node, ps, js⟩ := c
  obtain ⟨hps, hjs⟩ := built_mk.mp hc
  refine built_mk.mpr ⟨hps, fun d hd => ?_⟩
  rcases List.mem_append.mp hd with hd | hd
  · exact hjs d hd
  · obtain rfl := List.mem_singleton.mp hd
    exact hp

theorem built_fresh (scope : ScopeId) (id : CriteriaId) (entity : Model.Entity)
    (parent : Option CriteriaId) : (Criteria.fresh scope id entity parent).Built :=
  built_mk.mpr ⟨by simp, by simp⟩

theorem built_add {entities : EntityLookup} {c d : Criteria} {a : Addition} (hc : c.Built)
    (hqueries : ∀ q ∈ a.queries, q.Built) (hchildren : ∀ q ∈ a.children, q.Built)
    (hadd : c.add entities a = .ok d) : d.Built := by
  rcases add_cases hadd with ⟨p, rfl, ⟨condition, rfl, hp⟩ | rfl⟩ | ⟨f, rfl, -⟩
  · exact built_push hc (Condition.built_build (c := condition.adopt c.owner) hqueries hchildren hp)
  · exact built_push hc (hchildren p List.mem_cons_self)
  · exact built_mapNode f hc

theorem built_register {w v : Workspace} {id : ScopeId} {entity : Model.Entity}
    {parent : Option CriteriaId} {c : Criteria} (h : w.register id entity parent = (.ok c, v)) :
    c.Built := by
  unfold Workspace.register at h
  split at h
  · cases h
  · cases h
    exact built_fresh _ _ _ _

theorem built_create {w v : Workspace} {id : ScopeId} {name : String} {parent : Option CriteriaId}
    {c : Criteria} (h : w.create id name parent = (.ok c, v)) : c.Built := by
  rcases w.create_cases id name parent with ⟨-, hcreate⟩ | ⟨entity, -, hcreate⟩
  · rw [hcreate] at h
    cases h
  · exact built_register (hcreate ▸ h)

structure Session.All (C : Criteria → Prop) (P : Predicate → Prop) (S : Session) : Prop where
  criteria : ∀ c ∈ S.criteria, C c
  predicates : ∀ p ∈ S.predicates, P p

namespace Session.All

variable {C : Criteria → Prop} {P : Predicate → Prop} {S T : Session}

theorem holding (h : S.All C P) {c : Criteria} (hc : C c) : (S.holding c).All C P where
  criteria := List.forall_mem_cons.mpr ⟨hc, h.criteria⟩
  predicates := h.predicates

theorem keeping (h : S.All C P) {p : Predicate} (hp : P p) : (S.keeping p).All C P where
  criteria := h.criteria
  predicates := List.forall_mem_cons.mpr ⟨hp, h.predicates⟩

theorem moved (h : S.All C P) (w : Workspace) : All C P { S with workspace := w } where
  criteria := h.criteria
  predicates := h.predicates

theorem taking (h : S.All C P) {ε : Type} {outcome : Except ε Criteria × Workspace}
    (hc : ∀ c w, outcome = (.ok c, w) → C c) : (S.taking outcome).All C P := by
  obtain ⟨result, w⟩ := outcome
  cases result with
  | error e => exact h.moved w
  | ok c => exact (h.moved w).holding (hc c w rfl)

theorem adding (h : S.All C P) {c d : Criteria} {a : Addition} {w : Workspace} (hc : c ∈ S.criteria)
    (hadd : S.workspace.add c a = (some d, w)) (hadded : ∀ entities, c.add entities a = .ok d → C d) :
    (Session.holding { S with workspace := w } d).All C P := by
  unfold Workspace.add at hadd
  split at hadd
  · next hbuilt =>
    cases hadd
    exact (h.moved _).holding (hadded _ hbuilt)
  · cases hadd
    exact (h.moved _).holding (h.criteria _ hc)
  · cases hadd

theorem built_step (h : S.All Criteria.Built Predicate.Built) (hstep : Step S T) :
    T.All Criteria.Built Predicate.Built := by
  cases hstep with
  | openScope config registry => exact h.moved _
  | act id a => exact h.moved _
  | observe telemetry => exact h.moved _
  | create entity parent hid => exact h.taking fun c w hcreate => built_create hcreate
  | createSibling hc => exact h.taking fun c w hcreate => built_create hcreate
  | derive hc => exact h.taking fun d w hderive => built_derive (h.criteria _ hc) hderive
  | build hqueries hchildren hbuild =>
      exact h.keeping (Condition.built_build (fun q hq => h.criteria q (hqueries hq))
        (fun p hp => h.predicates p (hchildren hp)) hbuild)
  | bindOwner id hp => exact h.keeping (built_bindOwner id (h.predicates _ hp))
  | add hc hqueries hchildren hadd =>
      exact h.adding hc hadd fun _ => built_add (h.criteria _ hc) (fun q hq => h.criteria q (hqueries hq))
        fun p hp => h.predicates p (hchildren hp)
  | configure f hc _ _ _ => exact h.holding (built_mapNode f (h.criteria _ hc))
  | join hc hparticipant =>
      exact h.holding (built_join (h.criteria _ hc) (h.criteria _ hparticipant))
  | scratch hc => exact h.holding (built_fresh _ _ _ _)
  | member hc hm =>
      exact h.holding fun p hp => h.criteria _ hc p ((conditions_subset.1 _).1 _ hm hp)
  | condition hc hp =>
      exact h.keeping fun q hq => h.criteria _ hc q ((conditions_subset.1 _).2 _ hp hq)
  | memberOf hp hm =>
      exact h.holding fun q hq => h.predicates _ hp q ((conditions_subset.2 _).1 _ hm hq)
  | conditionOf hp hq =>
      exact h.keeping fun r hr => h.predicates _ hp r ((conditions_subset.2 _).2 _ hq hr)

end Session.All

theorem Session.allBuilt_of_reachable {S : Session} (h : Reachable S) :
    S.All Criteria.Built Predicate.Built := by
  induction h with
  | refl => exact ⟨by simp, by simp⟩
  | tail _ hstep ih => exact ih.built_step hstep

end Session

theorem matched_iff {p : Predicate} (h : p.head.Matched) :
    (p.matched = .immediate ↔ ∃ sql, p.head.target = some (.raw sql)) ∧
      (p.matched = .standard ↔ ∃ column, p.head.target = some (.resolved column)) ∧
      (p.matched = .existence ↔ p.head.target = none) := by
  unfold Predicate.matched
  unfold Predicate.Head.Matched at h
  cases hmode : p.head.matched <;> cases htarget : p.head.target with
  | none => simp_all [MatchMode.Names]
  | some target => cases target <;> simp_all [MatchMode.Names]

theorem fault_of_compile {S : Session} (hS : S.Reachable) {c : Criteria} (hc : c ∈ S.criteria)
    (hfree : (S.workspace.scope c.scope).frozen = false) {e : CompileError}
    (h : (S.workspace.compile c).1 = .error e) :
    (S.workspace.scope c.scope).Misreferenced c e ∨ c.Misshapen e := by
  obtain ⟨hknown, hformed⟩ := (Session.sound_of_reachable hS).criteria c hc
  have hverdict := Scope.compile_verdict hfree c
  rw [renderFaults_of_formed hformed, ← Workspace.result_compile, h] at hverdict
  have hmem : e ∈ (S.workspace.scope c.scope).referenceFaults c ++ c.shapeFaults := by
    cases hfaults : (S.workspace.scope c.scope).referenceFaults c ++ c.shapeFaults with
    | nil => simp [hfaults, verdict, Except.map] at hverdict
    | cons fault faults =>
        simp only [hfaults, verdict, Except.map, Except.error.injEq] at hverdict
        exact hverdict ▸ List.mem_cons_self
  rcases List.mem_append.mp hmem with hmem | hmem
  · refine .inl (Scope.misreferenced_of_mem (fun m hm hscope => ?_) hmem)
    have hmember := hknown m hm
    rwa [hscope] at hmember
  · exact .inr (mem_shapeFaults.mp hmem)

def Session.conditions (S : Session) : List Predicate :=
  S.criteria.flatMap Criteria.conditions ++ S.predicates.flatMap Predicate.conditions

theorem built_predicates_meaningful {S : Session} (hS : S.Reachable) :
    (∀ p ∈ S.conditions, p.Meaningful ∧
      (p.matched = .immediate ↔ ∃ sql, p.head.target = some (.raw sql)) ∧
      (p.matched = .standard ↔ ∃ column, p.head.target = some (.resolved column)) ∧
      (p.matched = .existence ↔ p.head.target = none)) ∧
    ∀ c ∈ S.criteria, ∀ e, (S.workspace.compile c).1 = .error e →
      (∀ operator, e ≠ .missingTarget operator) ∧
      ∀ template, e = .emptyInList template → ∃ p ∈ c.conditions, ∃ args column segments token,
        p.template? = some (template, args, column) ∧ Template.parse template = .ok segments ∧
          .token token ∈ segments ∧ Template.Emptied args token := by
  have hbuilt := Session.allBuilt_of_reachable hS
  constructor
  · intro p hp
    refine And.imp_right matched_iff ?_
    rcases List.mem_append.mp hp with hp | hp
    · obtain ⟨c, hc, hp⟩ := List.mem_flatMap.mp hp
      exact hbuilt.criteria c hc p hp
    · obtain ⟨q, hq, hp⟩ := List.mem_flatMap.mp hp
      exact hbuilt.predicates q hq p hp
  · intro c hc e he
    cases hfrozen : (S.workspace.scope c.scope).frozen with
    | true =>
        rw [Workspace.result_compile, Scope.compile_of_frozen hfrozen] at he
        obtain rfl := Except.error.inj he
        simp
    | false =>
        rcases fault_of_compile hS hc hfrozen he with h | h
        · cases h <;> simp
        · cases h with
          | emptied hp htemplate hparse htoken hemptied =>
              refine ⟨by simp, fun template heq => ?_⟩
              obtain rfl := CompileError.emptyInList.inj heq
              exact ⟨_, hp, _, _, _, _, htemplate, hparse, htoken, hemptied⟩
          | _ => simp

def pickSpeeds : Predicate :=
  .test { matched := .immediate, target := some (.raw "speed IN ({0})") }
    (.template { positional := [.list []] } none)

def pickNoSpeeds : Predicate :=
  .nested { connective := .or } true [pickSpeeds]

def barge : Criteria :=
  (Criteria.fresh ⟨0⟩ ⟨0⟩ vessel none).push pickNoSpeeds

def loaded : Session :=
  ((flagship.keeping pickSpeeds).keeping pickNoSpeeds).holding barge

def towed : Session :=
  loaded.taking (loaded.workspace.derive barge)

def tow : Criteria :=
  .mk { scope := ⟨0⟩, id := ⟨1⟩, entity := vessel, parent := none }
    [.nested { owner := some ⟨1⟩, connective := .or } true
      [.test { owner := some ⟨1⟩, matched := .immediate, target := some (.raw "speed IN ({0})") }
        (.template { positional := [.list []] } none)]] []

theorem reachable_towed : towed.Reachable := by
  have hharbour : harbour.Reachable := .single (.openScope {} { entities := [vessel] })
  have hflagship : flagship.Reachable := hharbour.tail (.create "Vessel" none (by decide))
  have hbuild : flagship.workspace.buildCondition
      (.plain .and (.template "speed IN ({0})" { positional := [.list []] })) = .ok pickSpeeds := rfl
  have hpicked : (flagship.keeping pickSpeeds).Reachable :=
    hflagship.tail (.build (List.nil_subset _) (List.nil_subset _) hbuild)
  have hgroup : (flagship.keeping pickSpeeds).workspace.buildCondition
      (.plain .or (.nested true [pickSpeeds])) = .ok pickNoSpeeds := rfl
  have hgrouped : ((flagship.keeping pickSpeeds).keeping pickNoSpeeds).Reachable :=
    hpicked.tail (.build (List.nil_subset _) (List.Subset.refl _) hgroup)
  have hadd : flagship.workspace.add (.fresh ⟨0⟩ ⟨0⟩ vessel none) (.built (.ok pickNoSpeeds)) =
      (some barge, flagship.workspace) := rfl
  have hchildren : [pickNoSpeeds] ⊆ [pickNoSpeeds, pickSpeeds] :=
    List.cons_subset_cons _ (List.nil_subset _)
  have hloaded : loaded.Reachable :=
    hgrouped.tail (.add (a := .built (.ok pickNoSpeeds)) List.mem_cons_self (List.nil_subset _)
      hchildren hadd)
  exact hloaded.tail (.derive List.mem_cons_self)

theorem tow_meaningful :
    (∀ p ∈ tow.conditions, p.Meaningful ∧
        (p.matched = .immediate ↔ ∃ sql, p.head.target = some (.raw sql))) ∧
      (towed.workspace.compile tow).1 = .error (.emptyInList "speed IN ({0})") ∧
      ∃ p ∈ tow.conditions, ∃ args column segments token,
        p.template? = some ("speed IN ({0})", args, column) ∧
          Template.parse "speed IN ({0})" = .ok segments ∧ .token token ∈ segments ∧
          Template.Emptied args token := by
  have htow : tow ∈ towed.criteria := List.mem_cons_self
  have hcompile : (towed.workspace.compile tow).1 = .error (.emptyInList "speed IN ({0})") := rfl
  obtain ⟨hmeaningful, herror⟩ := built_predicates_meaningful reachable_towed
  refine ⟨fun p hp => ?_, hcompile, (herror tow htow _ hcompile).2 _ rfl⟩
  exact (hmeaningful p (List.mem_append_left _ (List.mem_flatMap.mpr ⟨tow, htow, hp⟩))).imp_right (·.1)

end QueryCriteria
