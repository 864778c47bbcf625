import QueryCriteria.Proofs.Ancestry
import QueryCriteria.Proofs.BuiltSessions

namespace QueryCriteria

open QueryCriteria.Model QueryCriteria.Metrics

namespace Session

inductive PublicStep (S : Session) : Session → Prop
  | openScope (config : Config) (registry : Registry) :
      PublicStep S { S with workspace := (S.workspace.openScope config registry).2 }
  | act (id : ScopeId) {a : Scope.Action} : (∀ entity parent, a ≠ .register entity parent) →
      PublicStep S { S with workspace := S.workspace.setScope id ((S.workspace.scope id).step a) }
  | observe (telemetry : Telemetry) :
      PublicStep S { S with workspace := { S.workspace with telemetry := telemetry } }
  | createRoot {id : ScopeId} (entity : String) : id.index < S.workspace.scopes.length →
      PublicStep S (S.taking (S.workspace.createRoot id entity))
  | createSub {c : Criteria} (entity : String) : c ∈ S.criteria →
      PublicStep S (S.taking (S.workspace.createSub c entity))
  | createSibling {c : Criteria} : c ∈ S.criteria → PublicStep S (S.taking (S.workspace.createSibling c))
  | derive {c : Criteria} : c ∈ S.criteria → PublicStep S (S.taking (S.workspace.derive c))
  | build {condition : Condition} {p : Predicate} : condition.queries ⊆ S.criteria →
      condition.children ⊆ S.predicates → S.workspace.buildCondition condition = .ok p →
      PublicStep S (S.keeping p)
  | bindOwner {p : Predicate} (id : CriteriaId) : p ∈ S.predicates → PublicStep S (S.keeping (p.bindOwner id))
  | add {c d : Criteria} {a : Addition} {w : Workspace} : c ∈ S.criteria → a.queries ⊆ S.criteria →
      a.children ⊆ S.predicates → S.workspace.add c a = (some d, w) →
      PublicStep S (holding { S with workspace := w } d)
  | configure {c : Criteria} {f : Node → Node} : c ∈ S.criteria → c.node.Same (f c.node) →
      PublicStep S (S.holding (c.mapNode f))
  | join {c participant : Criteria} : c ∈ S.criteria → participant ∈ S.criteria →
      PublicStep S (S.holding (c.join participant))
  | scratch {c : Criteria} : c ∈ S.criteria → PublicStep S (S.holding c.scratch)
  | member {c m : Criteria} : c ∈ S.criteria → m ∈ c.members → PublicStep S (S.holding m)
  | condition {c : Criteria} {p : Predicate} : c ∈ S.criteria → p ∈ c.conditions → PublicStep S (S.keeping p)
  | memberOf {p : Predicate} {m : Criteria} : p ∈ S.predicates → m ∈ p.members → PublicStep S (S.holding m)
  | conditionOf {p q : Predicate} : p ∈ S.predicates → q ∈ p.conditions → PublicStep S (S.keeping q)

def Confined (σ : ScopeId) (S : Session) : Prop :=
  ∀ c ∈ S.criteria, (∀ m ∈ c.members, m.scope = σ) ∨ ∀ m ∈ c.members, m.scope ≠ σ

def Listed (S : Session) : Prop :=
  S.All (Criteria.Each S.workspace.Lists) (Predicate.Each S.workspace.Lists)

variable {S T : Session} {σ : ScopeId} {w : Workspace}

theorem criteria_taking {ε : Type} (S : Session) (outcome : Except ε Criteria × Workspace) :
    S.criteria ⊆ (S.taking outcome).criteria := by
  obtain ⟨result, w⟩ := outcome
  cases result with
  | error e => exact List.Subset.refl _
  | ok c => exact List.subset_cons_self _ _

theorem workspace_taking {ε : Type} (S : Session) (outcome : Except ε Criteria × Workspace) :
    (S.taking outcome).workspace = outcome.2 := by
  obtain ⟨result, w⟩ := outcome
  cases result <;> rfl

theorem PublicStep.criteria_subset (h : PublicStep S T) : S.criteria ⊆ T.criteria := by
  cases h with
  | createRoot entity hopen => exact S.criteria_taking _
  | createSub entity hc => exact S.criteria_taking _
  | createSibling hc => exact S.criteria_taking _
  | derive hc => exact S.criteria_taking _
  | openScope => exact List.Subset.refl _
  | act => exact List.Subset.refl _
  | observe => exact List.Subset.refl _
  | build => exact List.Subset.refl _
  | bindOwner => exact List.Subset.refl _
  | condition => exact List.Subset.refl _
  | conditionOf => exact List.Subset.refl _
  | _ => exact List.subset_cons_self _ _

theorem Confined.of_subset (h : T.Confined σ) (hsub : S.criteria ⊆ T.criteria) : S.Confined σ :=
  fun c hc => h c (hsub hc)

namespace Listed

theorem grow (h : S.Listed) (hw : S.workspace.Keeps w) : Listed { S with workspace := w } where
  criteria c hc := (h.criteria c hc).keep hw
  predicates p hp := (h.predicates p hp).keep hw

theorem taking (h : S.Listed) {ε : Type} {outcome : Except ε Criteria × Workspace}
    (hw : S.workspace.Keeps outcome.2) (hc : ∀ c, outcome.1 = .ok c → c.Each outcome.2.Lists) :
    (S.taking outcome).Listed := by
  obtain ⟨result, w⟩ := outcome
  cases result with
  | error e => exact h.grow hw
  | ok c => exact All.holding (h.grow hw) (hc c rfl)

theorem create (h : S.Listed) {id : ScopeId} (hopen : id.index < S.workspace.scopes.length)
    (name : String) (parent : Option CriteriaId) :
    (S.taking (S.workspace.create id name parent)).Listed := by
  refine h.taking (S.workspace.keeps_create id name parent) fun c hc => ?_
  rcases S.workspace.created_cases hopen name parent with ⟨entity, own, v, hrun, hslot⟩ | ⟨e, hrun⟩
  · rw [hrun] at hc ⊢
    obtain rfl := Except.ok.inj hc
    exact each_fresh ⟨_, hslot, rfl, rfl⟩
  · rw [hrun] at hc
    cases hc

theorem opened (h : S.Listed) {c : Criteria} (hc : c ∈ S.criteria) :
    c.scope.index < S.workspace.scopes.length :=
  (h.criteria c hc).self.knows.opened

theorem step (h : S.Listed) (hstep : PublicStep S T) : T.Listed := by
  cases hstep with
  | openScope config registry => exact h.grow (S.workspace.keeps_openScope config registry)
  | act id _ => exact h.grow (Workspace.keeps_of_acts (Workspace.acts_setScope rfl))
  | observe telemetry => exact h.grow (.refl _)
  | createRoot entity hopen => exact h.create hopen entity none
  | @createSub c entity hc => exact h.create (h.opened hc) entity (some c.id)
  | @createSibling c hc => exact h.create (h.opened hc) c.node.entity.name c.node.parent
  | @derive c hc =>
      obtain ⟨hkeeps, hcopy⟩ := Workspace.lists_derive (h.criteria c hc)
      exact h.taking hkeeps hcopy
  | build hqueries hchildren hbuild =>
      exact All.keeping h (each_build (fun q hq => h.criteria q (hqueries hq))
        (fun p hp => h.predicates p (hchildren hp)) hbuild)
  | bindOwner id hp => exact All.keeping h (each_bindOwner id (h.predicates _ hp))
  | @add c d a w hc hqueries hchildren hadd =>
      have hw := Workspace.keeps_of_scopes (Workspace.scopes_add hadd)
      have hadded := All.adding h hc hadd fun entities =>
        each_add (fun n hsame => (h.criteria c hc).self.same hsame) (h.criteria c hc)
          (fun q hq => h.criteria q (hqueries hq)) fun p hp => h.predicates p (hchildren hp)
      exact ⟨fun e he => (hadded.criteria e he).keep hw, fun p hp => (hadded.predicates p hp).keep hw⟩
  | @configure c f hc hsame =>
      exact All.holding h (each_mapNode (fun hself => hself.same hsame) (h.criteria c hc))
  | join hc hparticipant => exact All.holding h (each_join (h.criteria _ hc) (h.criteria _ hparticipant))
  | scratch hc => exact All.holding h (each_fresh ((h.criteria _ hc).self.same ⟨rfl, rfl, rfl, rfl⟩))
  | member hc hm =>
      exact All.holding h fun n hn => h.criteria _ hc n ((gather_subset.1 _).1 _ hm hn)
  | condition hc hp =>
      exact All.keeping h fun n hn => h.criteria _ hc n ((gather_subset.1 _).2 _ hp hn)
  | memberOf hp hm =>
      exact All.holding h fun n hn => h.predicates _ hp n ((gather_subset.2 _).1 _ hm hn)
  | conditionOf hp hq =>
      exact All.keeping h fun n hn => h.predicates _ hp n ((gather_subset.2 _).2 _ hq hn)

theorem keeps (h : S.Listed) (hstep : PublicStep S T) : S.workspace.Keeps T.workspace := by
  cases hstep with
  | openScope config registry => exact S.workspace.keeps_openScope config registry
  | act id _ => exact Workspace.keeps_of_acts (Workspace.acts_setScope rfl)
  | observe telemetry => exact .refl _
  | @createRoot id entity hopen =>
      rw [workspace_taking]
      exact S.workspace.keeps_create id entity none
  | @createSub c entity hc =>
      rw [workspace_taking]
      exact S.workspace.keeps_create c.scope entity (some c.id)
  | createSibling hc =>
      rw [workspace_taking]
      exact S.workspace.keeps_create _ _ _
  | @derive c hc =>
      rw [workspace_taking]
      exact (Workspace.lists_derive (h.criteria c hc)).1
  | add hc hqueries hchildren hadd => exact Workspace.keeps_of_scopes (Workspace.scopes_add hadd)
  | _ => exact .refl _

theorem ordered_step (h : S.Listed) (hordered : (S.workspace.scope σ).Ordered) (hconfined : S.Confined σ)
    (hstep : PublicStep S T) : (T.workspace.scope σ).Ordered := by
  cases hstep with
  | openScope config registry => exact Workspace.ordered_openScope hordered config registry
  | act id ha =>
      exact Workspace.ordered_of_acts (Workspace.acts_setScope rfl) hordered
        fun _ entity parent heq => absurd heq (ha entity parent)
  | observe telemetry => exact hordered
  | @createRoot id entity hopen =>
      rw [workspace_taking]
      exact Workspace.ordered_create hordered id entity fun _ p hp => by cases hp
  | @createSub c entity hc =>
      rw [workspace_taking]
      refine Workspace.ordered_create hordered c.scope entity fun hscope p hp => ?_
      obtain rfl := Option.some.inj hp
      exact hscope ▸ (h.criteria c hc).self.knows
  | @createSibling c hc =>
      rw [workspace_taking]
      refine Workspace.ordered_create hordered c.scope c.node.entity.name fun hscope => ?_
      subst hscope
      exact (h.criteria c hc).self.parent_known hordered
  | @derive c hc =>
      rw [workspace_taking]
      exact Workspace.ordered_derive (h.criteria c hc) hordered (hconfined c hc)
  | @add c d a w hc hqueries hchildren hadd =>
      have hscopes : w.scopes = S.workspace.scopes := Workspace.scopes_add hadd
      simp only [Session.holding, Workspace.scope, hscopes]
      exact hordered
  | _ => exact hordered

end Listed

theorem listed_of_reachable (h : Relation.ReflTransGen PublicStep {} S) : S.Listed := by
  induction h with
  | refl => exact ⟨by simp, by simp⟩
  | tail _ hstep ih => exact ih.step hstep

theorem criteria_subset_of_run (h : Relation.ReflTransGen PublicStep S T) : S.criteria ⊆ T.criteria := by
  induction h with
  | refl => exact List.Subset.refl _
  | tail _ hstep ih => exact List.Subset.trans ih hstep.criteria_subset

theorem ordered_of_reachable (h : Relation.ReflTransGen PublicStep {} S) (hconfined : S.Confined σ) :
    (S.workspace.scope σ).Ordered := by
  induction h with
  | refl => exact Workspace.ordered_of_unopened (Nat.not_lt_zero _)
  | tail hrun hstep ih =>
      have hearlier := hconfined.of_subset hstep.criteria_subset
      exact (listed_of_reachable hrun).ordered_step (ih hearlier) hearlier hstep

theorem keeps_of_run (hS : S.Listed) (h : Relation.ReflTransGen PublicStep S T) :
    T.Listed ∧ S.workspace.Keeps T.workspace := by
  induction h with
  | refl => exact ⟨hS, .refl _⟩
  | tail _ hstep ih => exact ⟨ih.1.step hstep, ih.2.trans (ih.1.keeps hstep)⟩

end Session

theorem ancestry_consistent {S T : Session} {σ : ScopeId}
    (hS : Relation.ReflTransGen Session.PublicStep {} S) (hT : Relation.ReflTransGen Session.PublicStep S T)
    (hconfined : T.Confined σ) :
    let s := S.workspace.scope σ
    let t := T.workspace.scope σ
    (∀ id, (∃ entity, s.entityOf id = .ok entity) ↔ id.index < s.size) ∧
    (∀ id entity, s.entityOf id = .ok entity → t.entityOf id = .ok entity) ∧
    (∀ id parent, s.parentOf id = .ok parent → t.parentOf id = .ok parent) ∧
    (∀ c ∈ S.criteria, ∀ m ∈ c.members, m.scope = σ →
      t.entityOf m.id = .ok m.node.entity ∧ t.parentOf m.id = .ok m.node.parent) ∧
    (∀ id parent, s.parentOf id = .ok (some parent) → parent.index < id.index ∧ parent.index < s.size) ∧
    ∀ id, id.index < s.size → ∃ ids, s.Ancestry id ids ∧ (id :: ids).Pairwise fun a b => b.index < a.index := by
  intro s t
  obtain ⟨hlisted, hkeeps⟩ := Session.keeps_of_run (Session.listed_of_reachable hS) hT
  have hsub := Session.criteria_subset_of_run hT
  have hordered : s.Ordered := Session.ordered_of_reachable hS (hconfined.of_subset hsub)
  refine ⟨fun id => Scope.exists_entityOf_iff, fun id entity => hkeeps.entityOf,
    fun id parent => hkeeps.parentOf, fun c hc m hm hscope => ?_, fun id parent hparent => ?_, fun id hid => ?_⟩
  · have hmember := Workspace.lists_iff.mp (hlisted.criteria c (hsub hc) m hm)
    rwa [show m.node.scope = σ from hscope] at hmember
  · obtain ⟨slot, hslot, hp⟩ := Scope.parentOf_eq_ok_iff.mp hparent
    have hlt := hordered id slot hslot parent hp
    have hid : id.index < s.size := Scope.isSome_slot?_iff.mp (by rw [hslot]; rfl)
    exact ⟨hlt, Nat.lt_trans hlt hid⟩
  · obtain ⟨ids, hids⟩ := hordered.exists_ancestry (Scope.isSome_slot?_iff.mpr hid)
    exact ⟨ids, hids, hordered.decreasing hids⟩

def tender (index : Nat) (parent : Option CriteriaId) : Criteria :=
  .fresh ⟨0⟩ ⟨index⟩ vessel parent

def moored : Session :=
  harbour.taking (harbour.workspace.createRoot ⟨0⟩ "Vessel")

def tendered : Session :=
  moored.taking (moored.workspace.createSub (tender 0 none) "Vessel")

def anchorage : Session :=
  tendered.taking (tendered.workspace.createSub (tender 1 (some ⟨0⟩)) "Vessel")

def rafted : Session :=
  anchorage.taking (anchorage.workspace.createSibling (tender 2 (some ⟨1⟩)))

def attended : Condition :=
  .plain .and (.existence false (some (tender 2 (some ⟨1⟩))))

def tug : Criteria :=
  (tender 1 (some ⟨0⟩)).push (.existence {} false (tender 2 (some ⟨1⟩)))

def flotilla : Criteria :=
  (tender 0 none).join tug

def assembled : Session :=
  (rafted.holding tug).holding flotilla

def docked : Session :=
  assembled.taking (assembled.workspace.derive flotilla)

theorem reachable_rafted : Relation.ReflTransGen Session.PublicStep {} rafted := by
  have hharbour : Relation.ReflTransGen Session.PublicStep {} harbour :=
    .single (.openScope {} { entities := [vessel] })
  have hfirst : Relation.ReflTransGen Session.PublicStep {} moored :=
    hharbour.tail (.createRoot "Vessel" (by decide))
  have hsecond : Relation.ReflTransGen Session.PublicStep {} tendered :=
    hfirst.tail (.createSub "Vessel" List.mem_cons_self)
  have hanchorage : Relation.ReflTransGen Session.PublicStep {} anchorage :=
    hsecond.tail (.createSub "Vessel" List.mem_cons_self)
  exact hanchorage.tail (.createSibling List.mem_cons_self)

theorem reachable_docked : Relation.ReflTransGen Session.PublicStep {} docked := by
  have hcriteria : rafted.criteria =
      [tender 3 (some ⟨1⟩), tender 2 (some ⟨1⟩), tender 1 (some ⟨0⟩), tender 0 none] := rfl
  have hquery : (Addition.condition attended).queries ⊆ rafted.criteria := by
    simp [attended, Addition.queries, Condition.queries, Condition.plain, hcriteria]
  have hadd : rafted.workspace.add (tender 1 (some ⟨0⟩)) (.condition attended) =
      (some tug, rafted.workspace) := rfl
  have htug : Relation.ReflTransGen Session.PublicStep {} (rafted.holding tug) :=
    reachable_rafted.tail (.add (by simp [hcriteria]) hquery (List.nil_subset _) hadd)
  have hroot : tender 0 none ∈ (rafted.holding tug).criteria := by simp [Session.holding, hcriteria]
  have hassembled : Relation.ReflTransGen Session.PublicStep {} assembled :=
    htug.tail (.join hroot List.mem_cons_self)
  exact hassembled.tail (.derive List.mem_cons_self)

theorem docked_ancestry :
    ∃ ids, (docked.workspace.scope ⟨0⟩).Ancestry ⟨6⟩ (⟨5⟩ :: ids) ∧
      ((⟨6⟩ : CriteriaId) :: ⟨5⟩ :: ids).Pairwise fun a b => b.index < a.index := by
  obtain ⟨-, -, -, -, -, hancestry⟩ := ancestry_consistent (σ := ⟨0⟩) reachable_docked .refl
    fun c hc => .inl ((by decide : ∀ c ∈ docked.criteria, ∀ m ∈ c.members, m.scope = ⟨0⟩) c hc)
  obtain ⟨ids, hids, hdecreasing⟩ := hancestry ⟨6⟩ (by decide)
  cases hids with
  | root hnone => cases hnone
  | @child _ parent ids hparent hrest =>
      obtain rfl : (⟨5⟩ : CriteriaId) = parent := Option.some.inj (Except.ok.inj hparent)
      exact ⟨ids, .child hparent hrest, hdecreasing⟩

end QueryCriteria
