import Mathlib.Logic.Relation
import QueryCriteria.Compile.Basic
import QueryCriteria.Proofs.Derivation

namespace QueryCriteria

open QueryCriteria.Model QueryCriteria.Metrics

structure Session where
  workspace : Workspace := {}
  criteria : List Criteria := []
  predicates : List Predicate := []

namespace Session

def holding (S : Session) (c : Criteria) : Session :=
  { S with criteria := c :: S.criteria }

def keeping (S : Session) (p : Predicate) : Session :=
  { S with predicates := p :: S.predicates }

def taking {ε : Type} (S : Session) : Except ε Criteria × Workspace → Session
  | (.ok c, w) => holding { S with workspace := w } c
  | (.error _, w) => { S with workspace := w }

inductive Step (S : Session) : Session → Prop
  | openScope (config : Config) (registry : Registry) :
      Step S { S with workspace := (S.workspace.openScope config registry).2 }
  | act (id : ScopeId) {a : Scope.Action} :
      (∀ entity parent, a = .register entity parent → (S.workspace.scope id).registry.Holds entity) →
      Step S { S with workspace := S.workspace.setScope id ((S.workspace.scope id).step a) }
  | observe (telemetry : Telemetry) :
      Step S { S with workspace := { S.workspace with telemetry := telemetry } }
  | create {id : ScopeId} (entity : String) (parent : Option CriteriaId) :
      id.index < S.workspace.scopes.length → Step S (S.taking (S.workspace.create id entity parent))
  | createSibling {c : Criteria} : c ∈ S.criteria → Step S (S.taking (S.workspace.createSibling c))
  | derive {c : Criteria} : c ∈ S.criteria → Step S (S.taking (S.workspace.derive c))
  | build {condition : Condition} {p : Predicate} : condition.queries ⊆ S.criteria →
      condition.children ⊆ S.predicates → S.workspace.buildCondition condition = .ok p →
      Step S (S.keeping p)
  | bindOwner {p : Predicate} (id : CriteriaId) : p ∈ S.predicates → Step S (S.keeping (p.bindOwner id))
  | add {c d : Criteria} {a : Addition} {w : Workspace} : c ∈ S.criteria → a.queries ⊆ S.criteria →
      a.children ⊆ S.predicates → S.workspace.add c a = (some d, w) →
      Step S (holding { S with workspace := w } d)
  | configure {c : Criteria} (f : Node → Node) : c ∈ S.criteria → (f c.node).scope = c.scope →
      (f c.node).id = c.id → (f c.node).entity = c.node.entity → Step S (S.holding (c.mapNode f))
  | join {c participant : Criteria} : c ∈ S.criteria → participant ∈ S.criteria →
      Step S (S.holding (c.join participant))
  | scratch {c : Criteria} : c ∈ S.criteria → Step S (S.holding c.scratch)
  | member {c m : Criteria} : c ∈ S.criteria → m ∈ c.members → Step S (S.holding m)
  | condition {c : Criteria} {p : Predicate} : c ∈ S.criteria → p ∈ c.conditions → Step S (S.keeping p)
  | memberOf {p : Predicate} {m : Criteria} : p ∈ S.predicates → m ∈ p.members → Step S (S.holding m)
  | conditionOf {p q : Predicate} : p ∈ S.predicates → q ∈ p.conditions → Step S (S.keeping q)

def Reachable (S : Session) : Prop :=
  Relation.ReflTransGen Step {} S

structure Sound (S : Session) : Prop where
  criteria : ∀ c ∈ S.criteria, c.Sound S.workspace
  predicates : ∀ p ∈ S.predicates, p.Sound S.workspace

namespace Sound

variable {S : Session} {w : Workspace}

theorem grow (h : S.Sound) (hw : S.workspace.Extends w) : Sound { S with workspace := w } where
  criteria c hc := (h.criteria c hc).grow hw
  predicates p hp := (h.predicates p hp).grow hw

theorem holding (h : S.Sound) {c : Criteria} (hc : c.Sound S.workspace) : (S.holding c).Sound where
  criteria := List.forall_mem_cons.mpr ⟨hc, h.criteria⟩
  predicates := h.predicates

theorem keeping (h : S.Sound) {p : Predicate} (hp : p.Sound S.workspace) : (S.keeping p).Sound where
  criteria := h.criteria
  predicates := List.forall_mem_cons.mpr ⟨hp, h.predicates⟩

theorem taking (h : S.Sound) {ε : Type} {outcome : Except ε Criteria × Workspace}
    (hw : S.workspace.Extends outcome.2) (hc : ∀ c, outcome.1 = .ok c → c.Sound outcome.2) :
    (S.taking outcome).Sound := by
  obtain ⟨result, w⟩ := outcome
  cases result with
  | error e => exact h.grow hw
  | ok c => exact (h.grow hw).holding (hc c rfl)

theorem create (h : S.Sound) {id : ScopeId} (hid : id.index < S.workspace.scopes.length)
    (name : String) (parent : Option CriteriaId) :
    (S.taking (S.workspace.create id name parent)).Sound := by
  rcases hcreate : S.workspace.create id name parent with ⟨result, w⟩
  obtain ⟨hw, hfresh⟩ := Workspace.create_spec hcreate
  refine h.taking hw fun c hc => ?_
  obtain ⟨entity, -, heq, hknows⟩ := hfresh c hc hid
  rw [heq]
  exact sound_fresh entity parent hknows

theorem add (h : S.Sound) {c d : Criteria} {a : Addition} (hc : c ∈ S.criteria)
    (hqueries : a.queries ⊆ S.criteria) (hchildren : a.children ⊆ S.predicates)
    (hadd : S.workspace.add c a = (some d, w)) : (Session.holding { S with workspace := w } d).Sound := by
  unfold Workspace.add at hadd
  split at hadd
  · next hbuilt =>
    obtain ⟨hd, rfl⟩ := Prod.mk.inj hadd
    obtain rfl := Option.some.inj hd
    exact h.holding (sound_add (h.criteria c hc) (fun q hq => h.criteria q (hqueries hq))
      (fun p hp => h.predicates p (hchildren hp)) hbuilt)
  · next reason _ =>
    obtain ⟨hd, rfl⟩ := Prod.mk.inj hadd
    obtain rfl := Option.some.inj hd
    have hrecorded := h.grow (S.workspace.extends_record (.expressionSkipped reason))
    exact hrecorded.holding (hrecorded.criteria c hc)
  · cases hadd

end Sound

variable {S T : Session}

theorem sound_step (h : S.Sound) (hstep : Step S T) : T.Sound := by
  cases hstep with
  | openScope config registry => exact h.grow (S.workspace.extends_openScope config registry)
  | act id _ => exact h.grow (Workspace.extends_setScope ((S.workspace.scope id).size_le_step _))
  | observe telemetry => exact h.grow (Workspace.extends_of_scopes rfl)
  | create entity parent hid => exact h.create hid entity parent
  | createSibling hc =>
      have hself := (h.criteria _ hc).known _ (Criteria.self_mem_members _)
      exact h.create hself.opened _ _
  | @derive c hc =>
      rcases hderive : S.workspace.derive c with ⟨result, w⟩
      obtain ⟨hw, hsound⟩ := Workspace.derive_spec (h.criteria c hc) hderive
      exact h.taking hw hsound
  | build hqueries hchildren hbuild =>
      exact h.keeping (sound_build (fun q hq => h.criteria q (hqueries hq))
        (fun p hp => h.predicates p (hchildren hp)) hbuild)
  | bindOwner id hp => exact h.keeping (sound_bindOwner id _ (h.predicates _ hp))
  | add hc hqueries hchildren hadd => exact h.add hc hqueries hchildren hadd
  | configure f hc hscope hid _ => exact h.holding (sound_mapNode hscope hid (h.criteria _ hc))
  | join hc hparticipant =>
      exact h.holding (sound_join (h.criteria _ hc) (h.criteria _ hparticipant))
  | scratch hc => exact h.holding (sound_scratch (h.criteria _ hc))
  | member hc hm => exact h.holding ((sound_parts.1 _ (h.criteria _ hc)).1 _ hm)
  | condition hc hp => exact h.keeping ((sound_parts.1 _ (h.criteria _ hc)).2 _ hp)
  | memberOf hp hm => exact h.holding ((sound_parts.2 _ (h.predicates _ hp)).1 _ hm)
  | conditionOf hp hq => exact h.keeping ((sound_parts.2 _ (h.predicates _ hp)).2 _ hq)

theorem sound_of_reachable (h : Reachable S) : S.Sound := by
  induction h with
  | refl => exact ⟨by simp, by simp⟩
  | tail _ hstep ih => exact sound_step ih hstep

end Session

theorem ok_iff_of_verdict {α : Type} {result : Except CompileError α} {faults : List CompileError}
    (h : result.map (fun _ => ()) = verdict faults) : (∃ a, result = .ok a) ↔ faults = [] := by
  cases result with
  | ok a => cases faults <;> simp_all [verdict, Except.map]
  | error e => cases faults <;> simp_all [verdict, Except.map]

theorem compiles_iff_wellFormed {S : Session} (hS : S.Reachable) {c : Criteria} (hc : c ∈ S.criteria)
    (hfree : (S.workspace.scope c.scope).frozen = false) :
    let s := S.workspace.scope c.scope
    ((∃ compiled, (S.workspace.compile c).1 = .ok compiled) ↔ WellFormed s c) ∧
      (S.workspace.compile c).1.map (fun _ => ()) = verdict (s.referenceFaults c ++ c.shapeFaults) ∧
      (∀ e ∈ s.referenceFaults c, s.Misreferenced c e) ∧
      ∀ e, e ∈ c.shapeFaults ↔ c.Misshapen e := by
  intro s
  obtain ⟨hknown, hformed⟩ := (Session.sound_of_reachable hS).criteria c hc
  have hregistered : ∀ m ∈ c.members, m.scope = c.scope → (s.slot? m.id).isSome := by
    intro m hm hscope
    have hmember := hknown m hm
    rwa [hscope] at hmember
  have hverdict := Scope.compile_verdict hfree c
  rw [renderFaults_of_formed hformed, ← Workspace.result_compile] at hverdict
  refine ⟨?_, hverdict, fun e he => Scope.misreferenced_of_mem hregistered he, fun e => mem_shapeFaults⟩
  rw [← faults_eq_nil_iff_wellFormed hregistered]
  exact ok_iff_of_verdict hverdict

def vessel : Entity :=
  { name := "Vessel", table := "vessels" }

def harbour : Session :=
  { workspace := (Workspace.openScope {} {} { entities := [vessel] }).2 }

def flagship : Session :=
  harbour.taking (harbour.workspace.create ⟨0⟩ "Vessel" none)

def fleet : Session :=
  flagship.taking (flagship.workspace.create ⟨0⟩ "Vessel" none)

def speedLimit : Addition :=
  .condition (.plain .and (.template "speed BETWEEN {0} AND {1}" { positional := [.int 3] }))

def escort : Criteria :=
  (Criteria.fresh ⟨0⟩ ⟨1⟩ vessel none).push
    (.test { owner := some ⟨1⟩, matched := .immediate, target := some (.raw "speed BETWEEN {0} AND {1}") }
      (.template { positional := [.int 3] } none))

def convoy : Criteria :=
  (Criteria.fresh ⟨0⟩ ⟨0⟩ vessel none).join escort

theorem reachable_fleet : ((fleet.holding escort).holding convoy).Reachable := by
  have hharbour : harbour.Reachable := .single (.openScope {} { entities := [vessel] })
  have hflagship : flagship.Reachable := hharbour.tail (.create "Vessel" none (by decide))
  have hfleet : fleet.Reachable := hflagship.tail (.create "Vessel" none (by decide))
  have hadd : fleet.workspace.add (.fresh ⟨0⟩ ⟨1⟩ vessel none) speedLimit =
      (some escort, fleet.workspace) := rfl
  have hescort : (fleet.holding escort).Reachable :=
    hfleet.tail (.add List.mem_cons_self (List.nil_subset _) (List.nil_subset _) hadd)
  exact hescort.tail (.join (List.mem_cons_of_mem _ (List.mem_cons_of_mem _ List.mem_cons_self))
    List.mem_cons_self)

theorem convoy_refused :
    ¬ WellFormed (fleet.workspace.scope ⟨0⟩) convoy ∧
      (fleet.workspace.compile convoy).1.map (fun _ => ()) =
        .error (.unresolvedPlaceholder "{1}") := by
  obtain ⟨hwell, hverdict, -, -⟩ :=
    compiles_iff_wellFormed reachable_fleet (c := convoy) List.mem_cons_self rfl
  refine ⟨fun h => ?_, hverdict⟩
  obtain ⟨compiled, hcompiled⟩ := hwell.mpr h
  cases hcompiled

end QueryCriteria
