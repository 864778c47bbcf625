import QueryCriteria.Criteria.Settings
import QueryCriteria.Proofs.Belonging
import QueryCriteria.Proofs.Outcomes

namespace QueryCriteria

open QueryCriteria.Metrics

namespace Criteria

inductive Gains (entities : EntityLookup) (c : Criteria) : Addition → Criteria → Prop
  | condition {condition : Condition} {p : Predicate} :
      (condition.adopt c.owner).build entities = .ok p →
      Gains entities c (.condition condition) (.mk c.node (c.predicates ++ [p.bindOwner c.id]) c.joins)
  | built {p : Predicate} :
      Gains entities c (.built (.ok p)) (.mk c.node (c.predicates ++ [p.bindOwner c.id]) c.joins)
  | column {property : String} {label : Option String} {target : Target} : c.resolve entities property = .ok target →
      Gains entities c (.column property label)
        (.mk { c.node with selections := c.node.selections ++ [.column target label] } c.predicates c.joins)
  | aggregate {func : Aggregate} {property : Option String} {distinct : Bool} {label : Option String}
      {target : Option Target} : c.resolve? entities property = .ok target →
      Gains entities c (.aggregate func property distinct label)
        (.mk { c.node with
          selections := c.node.selections ++ [.aggregate func target distinct label]
          flags := { c.node.flags with containsFunction := true } } c.predicates c.joins)
  | group {property : String} {target : Target} : c.resolve entities property = .ok target →
      Gains entities c (.group property)
        (.mk { c.node with groups := c.node.groups ++ [.column target] } c.predicates c.joins)
  | order {property : String} {direction : Direction} {target : Target} : c.resolve entities property = .ok target →
      Gains entities c (.order property direction)
        (.mk { c.node with orders := c.node.orders ++ [.column target direction] } c.predicates c.joins)

inductive Refuses (entities : EntityLookup) (c : Criteria) : Addition → SkipReason → Prop
  | condition {condition : Condition} {reason : SkipReason} :
      (condition.adopt c.owner).build entities = .error (.skipped reason) →
      Refuses entities c (.condition condition) reason
  | built {reason : SkipReason} : Refuses entities c (.built (.error reason)) reason
  | column {property : String} {label : Option String} {reason : SkipReason} :
      c.resolve entities property = .error reason → Refuses entities c (.column property label) reason
  | aggregate {func : Aggregate} {property : String} {distinct : Bool} {label : Option String}
      {reason : SkipReason} : c.resolve entities property = .error reason →
      Refuses entities c (.aggregate func (some property) distinct label) reason
  | group {property : String} {reason : SkipReason} :
      c.resolve entities property = .error reason → Refuses entities c (.group property) reason
  | order {property : String} {direction : Direction} {reason : SkipReason} :
      c.resolve entities property = .error reason → Refuses entities c (.order property direction) reason

def extent (c : Criteria) : Nat :=
  c.predicates.length + c.node.selections.length + c.node.groups.length + c.node.orders.length

section

variable {entities : EntityLookup} {c d : Criteria} {a : Addition}

theorem gains_of_add (h : c.add entities a = .ok d) : c.Gains entities a d := by
  cases a with
  | condition condition =>
      obtain ⟨p, hp, rfl⟩ := map_eq_ok.mp h
      exact .condition hp
  | built result =>
      obtain ⟨p, rfl, rfl⟩ := map_eq_ok.mp (mapError_eq_ok.mp h)
      exact .built
  | column property label =>
      obtain ⟨target, htarget, rfl⟩ := map_eq_ok.mp (mapError_eq_ok.mp h)
      exact .column htarget
  | aggregate func property distinct label =>
      obtain ⟨target, htarget, rfl⟩ := map_eq_ok.mp (mapError_eq_ok.mp h)
      exact .aggregate htarget
  | group property =>
      obtain ⟨target, htarget, rfl⟩ := map_eq_ok.mp (mapError_eq_ok.mp h)
      exact .group htarget
  | order property direction =>
      obtain ⟨target, htarget, rfl⟩ := map_eq_ok.mp (mapError_eq_ok.mp h)
      exact .order htarget

theorem map_mapError_eq_skipped {α β : Type} {x : Except SkipReason α} {f : α → β} {reason : SkipReason} :
    (x.map f).mapError Refusal.skipped = .error (.skipped reason) ↔ x = .error reason := by
  cases x <;> simp [Except.map, Except.mapError]

theorem refuses_of_add {reason : SkipReason} (h : c.add entities a = .error (.skipped reason)) :
    c.Refuses entities a reason := by
  cases a with
  | condition condition => exact .condition (map_eq_error.mp h)
  | built result =>
      obtain rfl := map_mapError_eq_skipped.mp h
      exact .built
  | column property label => exact .column (map_mapError_eq_skipped.mp h)
  | aggregate func property distinct label =>
      have hresolve := map_mapError_eq_skipped.mp h
      cases property with
      | none => cases hresolve
      | some property => exact .aggregate (map_eq_error.mp hresolve)
  | group property => exact .group (map_mapError_eq_skipped.mp h)
  | order property direction => exact .order (map_mapError_eq_skipped.mp h)

theorem extent_of_gains (h : c.Gains entities a d) : d.extent = c.extent + 1 := by
  cases h <;> simp [extent, predicates, node] <;> omega

end

end Criteria

namespace Workspace

def skip (w : Workspace) (reason : SkipReason) : Workspace :=
  w.record (.expressionSkipped reason)

def nest (w : Workspace) (c : Criteria) (connective : Connective) (negated : Bool)
    (collect : Criteria → Workspace → Criteria × Workspace) : Option Criteria × Workspace :=
  let collected := collect c.scratch w
  collected.2.add c (.condition (.group connective negated collected.1))

variable {w : Workspace} {c d : Criteria} {a : Addition} {reason : SkipReason}

theorem add_of_ok (h : c.add w.entities a = .ok d) : w.add c a = (some d, w) := by
  rw [add, h]

theorem add_of_skipped (h : c.add w.entities a = .error (.skipped reason)) :
    w.add c a = (some c, w.skip reason) := by
  rw [add, h]
  rfl

theorem add_eq_some (h : (w.add c a).1 = some d) :
    c.add w.entities a = .ok d ∨ (d = c ∧ ∃ reason, c.add w.entities a = .error (.skipped reason)) := by
  cases hadd : c.add w.entities a with
  | ok e =>
      rw [add_of_ok hadd] at h
      obtain rfl := Option.some.inj h
      exact .inl rfl
  | error refusal =>
      cases refusal with
      | skipped reason =>
          rw [add_of_skipped hadd] at h
          exact .inr ⟨(Option.some.inj h).symm, reason, rfl⟩
      | unwritable =>
          rw [add, hadd] at h
          cases h

theorem closeSink_skip (w : Workspace) (reason : SkipReason) :
    (w.openSink.skip reason).closeSink = ([.expressionSkipped reason], w) :=
  rfl

theorem counters_skip (h : w.telemetry.sinks = []) (reason : SkipReason) :
    (w.skip reason).telemetry.counters =
      { w.telemetry.counters with
        expressionsSkipped := plus w.telemetry.counters.expressionsSkipped 1
        structuralSkips :=
          if reason.isStructural then plus w.telemetry.counters.structuralSkips 1
          else w.telemetry.counters.structuralSkips
        skips := w.telemetry.counters.skips.update reason.label 0 (plus · 1) } := by
  simp only [skip, record, Telemetry.record, h]
  rfl

section Nesting

variable {entities : EntityLookup} {connective : Connective} {negated : Bool} {inner : Criteria}

theorem add_group_of_ne_nil (h : inner.predicates ≠ []) :
    c.add entities (.condition (.group connective negated inner)) =
      .ok (c.push (.nested { connective } negated inner.predicates)) := by
  have hbuild : ((Condition.group connective negated inner).adopt c.owner).build entities =
      .ok ((Predicate.nested { connective } negated inner.predicates).bindOwner c.id) := by
    simp only [Condition.group, Condition.plain, Condition.adopt, Condition.build]
    rfl
  rw [Criteria.add, hbuild, Except.map, Criteria.push, bindOwner_bindOwner, Criteria.push]

theorem add_group_of_eq_nil (h : inner.predicates = []) :
    c.add entities (.condition (.group connective negated inner)) = .error (.skipped .emptyNested) := by
  have hbuild : ((Condition.group connective negated inner).adopt c.owner).build entities =
      .error (.skipped .emptyNested) := by
    simp only [Condition.group, Condition.plain, Condition.adopt, Condition.build, h]
  rw [Criteria.add, hbuild, Except.map]

end Nesting

end Workspace

theorem added_or_skipped (w : Workspace) (c : Criteria) :
    (∀ a d, (w.add c a).1 = some d →
      (c.Gains w.entities a d ∧ d.extent = c.extent + 1 ∧ (w.add c a).2 = w ∧
          (w.openSink.add c a).2.closeSink = ([], w)) ∨
        (d = c ∧ ∃ reason, c.Refuses w.entities a reason ∧ (w.add c a).2 = w.skip reason ∧
          (w.add c a).2.scopes = w.scopes ∧
          (w.openSink.add c a).2.closeSink = ([.expressionSkipped reason], w) ∧
          (w.telemetry.sinks = [] →
            (w.add c a).2.telemetry.counters =
              { w.telemetry.counters with
                expressionsSkipped := plus w.telemetry.counters.expressionsSkipped 1
                structuralSkips :=
                  if reason.isStructural then plus w.telemetry.counters.structuralSkips 1
                  else w.telemetry.counters.structuralSkips
                skips := w.telemetry.counters.skips.update reason.label 0 (plus · 1) }))) ∧
    ∀ connective negated collect,
      let inner := (collect c.scratch w).1
      let v := (collect c.scratch w).2
      let result := w.nest c connective negated collect
      result.2.scopes = v.scopes ∧
        (inner.predicates ≠ [] →
          result = (some (c.push (.nested { connective } negated inner.predicates)), v)) ∧
        (inner.predicates = [] → result = (some c, v.skip .emptyNested)) := by
  constructor
  · intro a d h
    rcases Workspace.add_eq_some h with hok | ⟨rfl, reason, hskipped⟩
    · have hgains := Criteria.gains_of_add hok
      have hsink : w.openSink.add c a = (some d, w.openSink) := Workspace.add_of_ok hok
      refine .inl ⟨hgains, Criteria.extent_of_gains hgains, ?_, ?_⟩
      · rw [Workspace.add_of_ok hok]
      · rw [hsink]
        rfl
    · have hsink : w.openSink.add d a = (some d, w.openSink.skip reason) := Workspace.add_of_skipped hskipped
      rw [Workspace.add_of_skipped hskipped, hsink]
      exact .inr ⟨rfl, reason, Criteria.refuses_of_add hskipped, rfl, rfl, w.closeSink_skip reason,
        fun hclosed => Workspace.counters_skip hclosed reason⟩
  · intro connective negated collect inner v result
    rcases eq_or_ne inner.predicates [] with hempty | hne
    · have hskip : result = (some c, v.skip .emptyNested) :=
        Workspace.add_of_skipped (Workspace.add_group_of_eq_nil hempty)
      exact ⟨by rw [hskip]; rfl, fun hne => absurd hempty hne, fun _ => hskip⟩
    · have hpush : result = (some (c.push (.nested { connective } negated inner.predicates)), v) :=
        Workspace.add_of_ok (Workspace.add_group_of_ne_nil hne)
      exact ⟨by rw [hpush], fun _ => hpush, fun hempty => absurd hempty hne⟩

def gathering (inner : Criteria) (w : Workspace) : Criteria × Workspace :=
  let noted := inner.push
    (.test { matched := .immediate, target := some (.raw "noted") } (.nullable .isNull))
  ((noted.setQualify true).orderBy (.native "noted"), w)

theorem annal_nested_alone :
    let c : Criteria := .fresh ⟨0⟩ ⟨0⟩ annal none
    archive.add c (.column "motto" none) =
        (some c, archive.skip (.unresolvedProperty "Annal" "motto")) ∧
      (∀ d, (archive.add c (.group "status")).1 = some d → d.extent = 1) ∧
      ∃ d, (archive.nest c .or false gathering).1 = some d ∧ d.node = c.node ∧ d.predicates.length = 1 := by
  intro c
  obtain ⟨hadds, hnests⟩ := added_or_skipped archive c
  refine ⟨?_, fun d hd => ?_, ?_⟩
  · obtain ⟨hgains, -⟩ | ⟨-, reason, hrefuses, hstate, -⟩ := hadds (.column "motto" none) c rfl
    · cases Criteria.extent_of_gains hgains
    · cases hrefuses with
      | column hresolve =>
          cases hresolve
          exact Prod.ext rfl hstate
  · obtain ⟨-, hextent, -⟩ | ⟨rfl, reason, hrefuses, -⟩ := hadds (.group "status") d hd
    · exact hextent
    · cases hrefuses with
      | group hresolve => cases hresolve
  · obtain ⟨-, hpush, -⟩ := hnests .or false gathering
    rw [hpush (by simp [gathering, Criteria.orderBy, Criteria.setQualify, Criteria.push, Criteria.mapNode,
      Criteria.predicates])]
    exact ⟨_, rfl, rfl, rfl⟩

end QueryCriteria
