import QueryCriteria.Proofs.RootedCopies
import QueryCriteria.Proofs.Session

namespace QueryCriteria

open QueryCriteria.Model QueryCriteria.Metrics

variable {σ : ScopeId} {given : Target → Prop}

namespace Session

inductive LocalStep (σ : ScopeId) (given : Target → Prop) (S : Session) : Session → Prop
  | openScope (config : Config) (registry : Registry) :
      LocalStep σ given S { S with workspace := (S.workspace.openScope config registry).2 }
  | act (id : ScopeId) {a : Scope.Action} :
      (∀ entity parent, a = .register entity parent → (S.workspace.scope id).registry.Holds entity) →
      LocalStep σ given S
        { S with workspace := S.workspace.setScope id ((S.workspace.scope id).step a) }
  | observe (telemetry : Telemetry) :
      LocalStep σ given S { S with workspace := { S.workspace with telemetry := telemetry } }
  | create (entity : String) (parent : Option CriteriaId) : σ.index < S.workspace.scopes.length →
      LocalStep σ given S (S.taking (S.workspace.create σ entity parent))
  | createSibling {c : Criteria} : c ∈ S.criteria →
      LocalStep σ given S (S.taking (S.workspace.createSibling c))
  | derive {c : Criteria} : c ∈ S.criteria → LocalStep σ given S (S.taking (S.workspace.derive c))
  | build {condition : Condition} {p : Predicate} : (∀ o ∈ condition.referents, o.scope = σ) →
      condition.queries ⊆ S.criteria → condition.children ⊆ S.predicates →
      S.workspace.buildCondition condition = .ok p → LocalStep σ given S (S.keeping p)
  | bindOwner {p : Predicate} (id : CriteriaId) : p ∈ S.predicates →
      LocalStep σ given S (S.keeping (p.bindOwner id))
  | add {c d : Criteria} {a : Addition} {w : Workspace} : c ∈ S.criteria →
      (∀ condition, a = .condition condition → ∀ o ∈ condition.referents, o.scope = σ) →
      a.queries ⊆ S.criteria → a.children ⊆ S.predicates → S.workspace.add c a = (some d, w) →
      LocalStep σ given S (holding { S with workspace := w } d)
  | configure {c : Criteria} {f : Node → Node} : c ∈ S.criteria →
      c.node.Adds given (fun _ => False) (f c.node) → LocalStep σ given S (S.holding (c.mapNode f))
  | join {c participant : Criteria} : c ∈ S.criteria → participant ∈ S.criteria →
      LocalStep σ given S (S.holding (c.join participant))
  | scratch {c : Criteria} : c ∈ S.criteria → LocalStep σ given S (S.holding c.scratch)
  | member {c m : Criteria} : c ∈ S.criteria → m ∈ c.members → LocalStep σ given S (S.holding m)
  | condition {c : Criteria} {p : Predicate} : c ∈ S.criteria → p ∈ c.conditions →
      LocalStep σ given S (S.keeping p)
  | memberOf {p : Predicate} {m : Criteria} : p ∈ S.predicates → m ∈ p.members →
      LocalStep σ given S (S.holding m)
  | conditionOf {p q : Predicate} : p ∈ S.predicates → q ∈ p.conditions →
      LocalStep σ given S (S.keeping q)

def ReachableWithin (σ : ScopeId) (given : Target → Prop) (S : Session) : Prop :=
  Relation.ReflTransGen (LocalStep σ given) {} S

structure Rooted (σ : ScopeId) (given : Target → Prop) (S : Session) : Prop where
  criteria : ∀ c ∈ S.criteria, c.Rooted σ given (S.workspace.registered σ)
  predicates : ∀ p ∈ S.predicates, p.Rooted σ given (S.workspace.registered σ)

namespace Rooted

variable {S T : Session} {w : Workspace}

theorem grow (h : S.Rooted σ given) (hw : Retained (S.workspace.registered σ) (w.registered σ)) :
    Rooted σ given { S with workspace := w } where
  criteria c hc := (h.criteria c hc).grow hw
  predicates p hp := (h.predicates p hp).grow hw

theorem holding (h : S.Rooted σ given) {c : Criteria} (hc : c.Rooted σ given (S.workspace.registered σ)) :
    (S.holding c).Rooted σ given where
  criteria := List.forall_mem_cons.mpr ⟨hc, h.criteria⟩
  predicates := h.predicates

theorem keeping (h : S.Rooted σ given) {p : Predicate}
    (hp : p.Rooted σ given (S.workspace.registered σ)) : (S.keeping p).Rooted σ given where
  criteria := h.criteria
  predicates := List.forall_mem_cons.mpr ⟨hp, h.predicates⟩

theorem taking (h : S.Rooted σ given) {ε : Type} {outcome : Except ε Criteria × Workspace}
    (hw : Retained (S.workspace.registered σ) (outcome.2.registered σ))
    (hc : ∀ c, outcome.1 = .ok c → c.Rooted σ given (outcome.2.registered σ)) :
    (S.taking outcome).Rooted σ given := by
  obtain ⟨result, w⟩ := outcome
  cases result with
  | error e => exact h.grow hw
  | ok c => exact (h.grow hw).holding (hc c rfl)

theorem create (h : S.Rooted σ given) (entity : String) (parent : Option CriteriaId) :
    (S.taking (S.workspace.create σ entity parent)).Rooted σ given := by
  refine h.taking (retained_create σ entity parent) fun c hc => ?_
  obtain ⟨entity, -, hfresh, hregistered⟩ := registered_of_create (Prod.ext hc rfl)
  rw [hfresh]
  exact rooted_fresh parent hregistered

theorem add (h : S.Rooted σ given) (hmodelled : S.workspace.All Scope.Modelled) {c d : Criteria}
    {a : Addition} (hc : c ∈ S.criteria)
    (hscope : ∀ condition, a = .condition condition → ∀ o ∈ condition.referents, o.scope = σ)
    (hqueries : a.queries ⊆ S.criteria) (hchildren : a.children ⊆ S.predicates)
    (hadd : S.workspace.add c a = (some d, w)) :
    (Session.holding { S with workspace := w } d).Rooted σ given := by
  unfold Workspace.add at hadd
  split at hadd
  · next hbuilt =>
    cases hadd
    exact h.holding (rooted_add (reads_entities (hmodelled σ)) (h.criteria c hc) hscope
      (fun q hq => h.criteria q (hqueries hq)) (fun p hp => h.predicates p (hchildren hp)) hbuilt)
  · next reason _ =>
    cases hadd
    have hkept : Retained (S.workspace.registered σ)
        ((S.workspace.record (.expressionSkipped reason)).registered σ) := .refl _
    exact (h.grow hkept).holding ((h.criteria _ hc).grow hkept)
  · cases hadd

theorem step (h : S.Rooted σ given) (hmodelled : S.workspace.All Scope.Modelled)
    (hstep : LocalStep σ given S T) : T.Rooted σ given := by
  cases hstep with
  | openScope config registry => exact h.grow (retained_openScope _ _ _)
  | act id _ => exact h.grow (retained_of_acts (Workspace.acts_setScope rfl))
  | observe telemetry => exact h.grow (.refl _)
  | create entity parent _ => exact h.create entity parent
  | @createSibling c hc =>
      have hnode := (h.criteria c hc).nodes c c.self_mem_members
      rw [Workspace.createSibling, show c.scope = σ from hnode.scope]
      exact h.create _ _
  | @derive c hc =>
      obtain ⟨hkept, hcopy⟩ := Workspace.rooted_derive hmodelled (h.criteria c hc) rfl
      exact h.taking hkept hcopy
  | build hscope hqueries hchildren hbuild =>
      exact h.keeping (Condition.rooted_build (reads_entities (hmodelled σ)) hscope
        (fun q hq => h.criteria q (hqueries hq)) (fun p hp => h.predicates p (hchildren hp)) hbuild)
  | bindOwner id hp => exact h.keeping (rooted_bindOwner id _ (h.predicates _ hp))
  | add hc hscope hqueries hchildren hadd => exact h.add hmodelled hc hscope hqueries hchildren hadd
  | @configure c f hc hadds =>
      have hrooted := h.criteria c hc
      exact h.holding (rooted_mapNode hrooted (hadds.rooted (hrooted.nodes c c.self_mem_members)
        (fun _ ht => .inl ht) fun _ ht => ht.elim))
  | join hc hparticipant =>
      exact h.holding (rooted_join (h.criteria _ hc) (h.criteria _ hparticipant))
  | scratch hc => exact h.holding (rooted_scratch (h.criteria _ hc))
  | member hc hm => exact h.holding ((h.criteria _ hc).member hm)
  | condition hc hp => exact h.keeping ((h.criteria _ hc).condition hp)
  | memberOf hp hm => exact h.holding ((h.predicates _ hp).queries _ hm)
  | conditionOf hp hq => exact h.keeping ((h.predicates _ hp).condition hq)

end Rooted

theorem LocalStep.step {S T : Session} (h : LocalStep σ given S T) : Step S T := by
  cases h with
  | openScope config registry => exact .openScope config registry
  | act id ha => exact .act id ha
  | observe telemetry => exact .observe telemetry
  | create entity parent hopen => exact .create entity parent hopen
  | createSibling hc => exact .createSibling hc
  | derive hc => exact .derive hc
  | build _ hqueries hchildren hbuild => exact .build hqueries hchildren hbuild
  | bindOwner id hp => exact .bindOwner id hp
  | add hc _ hqueries hchildren hadd => exact .add hc hqueries hchildren hadd
  | configure hc hadds => exact .configure _ hc hadds.scope hadds.id hadds.entity
  | join hc hparticipant => exact .join hc hparticipant
  | scratch hc => exact .scratch hc
  | member hc hm => exact .member hc hm
  | condition hc hp => exact .condition hc hp
  | memberOf hp hm => exact .memberOf hp hm
  | conditionOf hp hq => exact .conditionOf hp hq

theorem reachable_of_within {S : Session} (h : ReachableWithin σ given S) : S.Reachable :=
  Relation.ReflTransGen.mono (fun _ _ => LocalStep.step) _ _ h

theorem rooted_of_reachable {S : Session} (h : ReachableWithin σ given S) : S.Rooted σ given := by
  induction h with
  | refl => exact ⟨by simp, by simp⟩
  | tail hrun hstep ih =>
      exact ih.step (scope_of_reachable Scope.invariant_modelled (reachable_of_within hrun)) hstep

end Session

inductive Predicate.Handed (entities : EntityLookup) (p : Predicate) : List CriteriaId → Predicate → Prop
  | kept : Handed entities p [] p
  | bound {ids : List CriteriaId} {q : Predicate} (id : CriteriaId) : Handed entities p ids q →
      Handed entities p (ids ++ [id]) (q.bindOwner id)
  | filtered {ids : List CriteriaId} {q r : Predicate} {c d : Criteria} : Handed entities p ids q →
      c.add entities (.built (.ok q)) = .ok d → d.predicates = c.predicates ++ [r] →
      Handed entities p (ids ++ [c.id]) r
  | grouped {ids : List CriteriaId} {q r : Predicate} {condition : Condition} {head : Predicate.Head}
      {negated : Bool} {children : List Predicate} {i : Nat} : Handed entities p ids q →
      condition.children[i]? = some q → condition.build entities = .ok (.nested head negated children) →
      children[i]? = some r →
      Handed entities p (ids ++ condition.head.owner.toList.map Owner.id) r

section Handed

variable {entities : EntityLookup} {p q : Predicate} {ids : List CriteriaId}

theorem children_of_build {condition : Condition} {head : Predicate.Head} {negated : Bool}
    {children : List Predicate} (hne : condition.children ≠ [])
    (h : condition.build entities = .ok (.nested head negated children)) :
    children = match condition.head.owner with
      | none => condition.children
      | some owner => condition.children.map (Predicate.bindOwner owner.id) := by
  obtain ⟨asked, body⟩ := condition
  obtain ⟨q, hforms, howned⟩ := Condition.exists_forms_of_build h
  cases hforms with
  | nested _ =>
      unfold Condition.Head.own at howned
      cases howner : asked.owner with
      | none =>
          simp only [howner, Predicate.nested.injEq] at howned
          exact howned.2.2.symm
      | some owner =>
          simp only [howner, Predicate.bindOwner, Predicate.nested.injEq, bindOwners_eq_map] at howned
          exact howned.2.2.symm
  | test _ hasks => cases hasks <;> exact absurd rfl hne
  | _ => exact absurd rfl hne

def Predicate.bindFirst (p : Predicate) : List CriteriaId → Predicate
  | [] => p
  | id :: _ => p.bindOwner id

theorem bindOwner_bindFirst (p : Predicate) (ids : List CriteriaId) (id : CriteriaId) :
    (p.bindFirst ids).bindOwner id = p.bindFirst (ids ++ [id]) := by
  cases ids with
  | nil => rfl
  | cons first rest => exact bindOwner_bindOwner first id p

theorem eq_bindFirst_of_handed (h : p.Handed entities ids q) : q = p.bindFirst ids := by
  induction h with
  | kept => rfl
  | bound id _ ih => rw [ih, bindOwner_bindFirst]
  | @filtered ids q r c d _ hadd hlast ih =>
      obtain rfl := Except.ok.inj hadd
      have hpushed : [q.bindOwner c.id] = [r] := List.append_cancel_left hlast
      rw [← List.singleton_inj.mp hpushed, ih, bindOwner_bindFirst]
  | @grouped ids q r condition head negated children i _ hasked hbuild hchild ih =>
      have hne : condition.children ≠ [] := by
        rintro hnil
        simp [hnil] at hasked
      have hchildren := children_of_build hne hbuild
      cases howner : condition.head.owner with
      | none =>
          simp only [howner] at hchildren
          obtain rfl := Option.some.inj (hasked.symm.trans (hchildren ▸ hchild))
          rw [ih, Option.toList_none, List.map_nil, List.append_nil]
      | some owner =>
          simp only [howner] at hchildren
          have hbound : some (q.bindOwner owner.id) = some r := by
            rw [← hchild, hchildren, List.getElem?_map, hasked, Option.map_some]
          rw [← Option.some.inj hbound, ih, bindOwner_bindFirst]
          rfl

theorem owners_of_handed (hqueries : ∀ m ∈ p.members, ∀ owner ∈ m.owners, owner.isSome)
    (h : p.Handed entities ids q) : q.owners = p.owners.map (· <|> ids.head?) := by
  rw [eq_bindFirst_of_handed h]
  cases ids with
  | nil =>
      refine ((List.map_congr_left fun owner _ => ?_).trans (List.map_id' _)).symm
      cases owner <;> rfl
  | cons first rest => exact owners_bindOwner first p hqueries

end Handed

end QueryCriteria
