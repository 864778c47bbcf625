import QueryCriteria.Proofs.Ledgers
import QueryCriteria.Proofs.Recording

namespace QueryCriteria

open QueryCriteria.Metrics

inductive Act where
  | operate (op : Operation)
  | add (c : Criteria) (a : Addition)
  | pushChild (children : List Predicate) (child : Except SkipReason Predicate)

inductive Use where
  | act (a : Act)
  | openSink
  | closeSink

namespace Guarded

variable {G : Guarded}

def act (G : Guarded) : Act → Guarded
  | .operate op => (G.perform op).2
  | .add c a => G.moveTo (G.workspace.add c a).2
  | .pushChild children child => G.moveTo (G.workspace.pushChild children child).2

def events (G : Guarded) : Act → List Event
  | .operate op => op.events G.workspace
  | .add c a =>
      match c.add G.workspace.entities a with
      | .error (.skipped reason) => [.expressionSkipped reason]
      | _ => []
  | .pushChild _ child =>
      match child with
      | .ok _ => []
      | .error reason => [.expressionSkipped reason]

def use (G : Guarded) : Use → Guarded
  | .act a => G.act a
  | .openSink => G.moveTo G.workspace.openSink
  | .closeSink => G.moveTo G.workspace.closeSink.2

def uses (G : Guarded) (us : List Use) : Guarded :=
  us.foldl use G

def telemetry (G : Guarded) : Telemetry :=
  G.workspace.telemetry

def counted (G : Guarded) : List Use → List Event
  | [] => []
  | .act a :: us => (if G.telemetry.sinks = [] then G.events a else []) ++ (G.act a).counted us
  | .openSink :: us => (G.use .openSink).counted us
  | .closeSink :: us => (G.use .closeSink).counted us

def direct (G : Guarded) (depth : Nat) : List Use → List Event
  | [] => []
  | .act a :: us => (if depth = 0 then G.events a else []) ++ (G.act a).direct depth us
  | .openSink :: us => (G.use .openSink).direct (depth + 1) us
  | .closeSink :: us => (G.use .closeSink).direct (depth - 1) us

end Guarded

def Use.Closes : Nat → List Use → Prop
  | depth, [] => depth = 0
  | depth, .act _ :: us => Closes depth us
  | depth, .openSink :: us => Closes (depth + 1) us
  | 0, .closeSink :: _ => False
  | depth + 1, .closeSink :: us => Closes depth us

namespace Guarded

variable {G : Guarded}

theorem telemetry_act (G : Guarded) (a : Act) :
    (G.act a).telemetry = (G.events a).foldl Telemetry.record G.telemetry := by
  cases a with
  | operate op => exact G.telemetry_perform op
  | add c a =>
      simp only [act, events, Workspace.add]
      cases c.add G.workspace.entities a with
      | ok d => rfl
      | error refusal => cases refusal <;> rfl
  | pushChild children child => cases child <;> rfl

theorem telemetry_act_of_open {sink : List Event} {outer : List (List Event)}
    (h : G.telemetry.sinks = sink :: outer) (a : Act) :
    (G.act a).telemetry = { G.telemetry with sinks := ((G.events a).reverse ++ sink) :: outer } := by
  rw [telemetry_act, Telemetry.foldl_record_of_open h]

theorem counters_uses (G : Guarded) (us : List Use) :
    (G.uses us).telemetry.counters = (G.counted us).foldl Counters.count G.telemetry.counters := by
  induction us generalizing G with
  | nil => rfl
  | cons u us ih =>
      have hlater : (G.uses (u :: us)).telemetry.counters = _ := ih (G.use u)
      rw [hlater]
      cases u with
      | act a =>
          rw [counted, List.foldl_append]
          refine congrArg (fun c => ((G.act a).counted us).foldl Counters.count c) ?_
          cases hsinks : G.telemetry.sinks with
          | nil => rw [use, telemetry_act, Telemetry.foldl_record_of_closed hsinks, if_pos rfl]
          | cons sink outer => rw [use, telemetry_act_of_open hsinks, if_neg (by simp)]; rfl
      | openSink => rfl
      | closeSink =>
          have hcounters : (G.use .closeSink).telemetry.counters = G.telemetry.counters := by
            simp only [use, moveTo, telemetry, Workspace.closeSink, Telemetry.closeSink]
            split <;> rfl
          rw [hcounters, counted]

theorem telemetry_uses_of_closes {us : List Use} {inner outer : List (List Event)} {sink : List Event}
    (h : Use.Closes inner.length us) (hsinks : G.telemetry.sinks = inner ++ sink :: outer) :
    (G.uses us).telemetry =
      { G.telemetry with sinks := ((G.direct inner.length us).reverse ++ sink) :: outer } := by
  induction us generalizing G inner sink with
  | nil =>
      obtain rfl := List.eq_nil_of_length_eq_zero h
      have hsame : ({ G.telemetry with sinks := sink :: outer } : Telemetry) = G.telemetry := by
        rw [← List.nil_append (sink :: outer), ← hsinks]
      simpa [uses, direct] using hsame.symm
  | cons u us ih =>
      have hlater : (G.uses (u :: us)).telemetry = ((G.use u).uses us).telemetry := rfl
      rw [hlater]
      cases u with
      | act a =>
          cases inner with
          | nil =>
              have hact := telemetry_act_of_open hsinks a
              have hopen : (G.act a).telemetry.sinks = [] ++ ((G.events a).reverse ++ sink) :: outer := by
                rw [hact]
                rfl
              rw [use, ih h hopen, hact]
              simp [direct]
          | cons innermost inner =>
              have hact := telemetry_act_of_open hsinks a
              have hopen : (G.act a).telemetry.sinks =
                  (((G.events a).reverse ++ innermost) :: inner) ++ sink :: outer := by
                rw [hact]
                rfl
              have hcloses : Use.Closes (((G.events a).reverse ++ innermost) :: inner).length us := h
              rw [use, ih hcloses hopen, hact]
              simp [direct]
      | openSink =>
          have hopen : (G.use .openSink).telemetry.sinks = ([] :: inner) ++ sink :: outer :=
            congrArg ([] :: ·) hsinks
          exact ih h hopen
      | closeSink =>
          cases inner with
          | nil => cases h
          | cons innermost inner =>
              have hclosed : (G.use .closeSink).telemetry =
                  { G.telemetry with sinks := inner ++ sink :: outer } := by
                simp [use, moveTo, telemetry, Workspace.closeSink, Telemetry.closeSink] at hsinks ⊢
                simp [hsinks]
              have hopen : (G.use .closeSink).telemetry.sinks = inner ++ sink :: outer := by rw [hclosed]
              rw [ih h hopen, hclosed]
              simp [direct]

theorem sink_of_closes (G : Guarded) {body : List Use} (h : Use.Closes 0 body) :
    ((G.use .openSink).uses body).workspace.closeSink.1 = (G.use .openSink).direct 0 body ∧
      ((G.use .openSink).uses (body ++ [.closeSink])).telemetry = G.telemetry := by
  have hcloses : Use.Closes ([] : List (List Event)).length body := h
  have hopen : (G.use .openSink).telemetry.sinks = [] ++ [] :: G.telemetry.sinks := rfl
  have hclosed : ((G.use .openSink).uses body).telemetry.closeSink =
      ((G.use .openSink).direct 0 body, G.telemetry) := by
    rw [telemetry_uses_of_closes hcloses hopen]
    exact Prod.ext (by simp [Telemetry.closeSink]) rfl
  have hlast : (G.use .openSink).uses (body ++ [.closeSink]) = ((G.use .openSink).uses body).use .closeSink :=
    List.foldl_append
  rw [hlast]
  exact ⟨congrArg Prod.fst hclosed, congrArg Prod.snd hclosed⟩

def afresh (G : Guarded) : Guarded :=
  G.moveTo G.workspace.resetCounters

theorem metrics_add_up (G : Guarded) (us : List Use) :
    let es := G.afresh.counted us
    let c := (G.afresh.uses us).telemetry.counters
    (∀ t : Tally, t.ledger.total es < UInt64.size →
      (t.overall c).toNat = c.entities.total (fun _ x => (t.ofEntity x).toNat) ∧
        (t.overall c).toNat = t.ledger.total es) ∧
    (Ledger.skips.total es < UInt64.size →
      c.expressionsSkipped.toNat = c.skips.total (fun _ n => n.toNat) ∧
        c.expressionsSkipped.toNat = Ledger.skips.total es) ∧
    (Ledger.structuralSkips.total es < UInt64.size →
      c.structuralSkips.toNat =
          c.skips.total (fun label n => if label ∈ SkipReason.structuralLabels then n.toNat else 0) ∧
        c.structuralSkips.toNat = Ledger.structuralSkips.total es) ∧
    (∀ label, label ∈ SkipReason.structuralLabels ↔
      ∃ r : SkipReason, r.isStructural = true ∧ r.label = label) ∧
    (∀ (H : Guarded) (a : Act) sink outer, H.telemetry.sinks = sink :: outer →
      (H.act a).telemetry = { H.telemetry with sinks := ((H.events a).reverse ++ sink) :: outer }) ∧
    ∀ (H : Guarded) (body : List Use), Use.Closes 0 body →
      ((H.use .openSink).uses body).workspace.closeSink.1 = (H.use .openSink).direct 0 body ∧
        ((H.use .openSink).uses (body ++ [.closeSink])).telemetry = H.telemetry := by
  intro es c
  have hcounters : c = es.foldl Counters.count {} := G.afresh.counters_uses us
  refine ⟨fun t hroom => ?_, fun hroom => ?_, fun hroom => ?_, fun _ => SkipReason.mem_structuralLabels,
    fun H a sink outer hopen => telemetry_act_of_open hopen a, fun H body hbody => H.sink_of_closes hbody⟩
  · obtain ⟨hoverall, hparts⟩ := t.sound_ledger.run hroom
    rw [hcounters]
    exact ⟨hoverall.trans hparts.symm, hoverall⟩
  · obtain ⟨hoverall, hparts⟩ := Ledger.sound_skips.run hroom
    rw [hcounters]
    exact ⟨hoverall.trans hparts.symm, hoverall⟩
  · obtain ⟨hoverall, hparts⟩ := Ledger.sound_structuralSkips.run hroom
    rw [hcounters]
    refine ⟨hoverall.trans (hparts.symm.trans ?_), hoverall⟩
    simp [Ledger.structuralSkips, Ledger.ofSkips]

end Guarded

def dinghy : Model.Entity :=
  { name := "Dinghy", table := "dinghies" }

def crewless : Addition :=
  .condition (.plain .and (.template "" {}))

def rehearsal : List Use :=
  [.act (.operate (.create ⟨0⟩ "Dinghy" none)),
    .openSink, .act (.add (.fresh ⟨0⟩ ⟨0⟩ dinghy none) crewless), .closeSink,
    .act (.pushChild [] (.error .nullValue))]

def voyage : List Use :=
  [.act (.operate (.openScope {} { entities := [dinghy] })), .act (.operate (.create ⟨0⟩ "Dinghy" none))] ++
    .openSink :: rehearsal ++
      [.closeSink, .act (.operate (.derive (.fresh ⟨0⟩ ⟨0⟩ dinghy none))),
        .act (.operate (.compile (.fresh ⟨0⟩ ⟨0⟩ dinghy none))), .act (.pushChild [] (.error .emptyCollection))]

def launched : Guarded :=
  Guarded.uses {} (voyage.take 2)

theorem counted_voyage :
    Guarded.counted (Guarded.afresh {}) voyage =
      [.criteriaCreated "Dinghy", .criteriaCreated "Dinghy", .compileFinished "Dinghy" 0 0 0,
        .expressionSkipped .emptyCollection] := by
  rfl

theorem direct_rehearsal :
    (launched.use .openSink).direct 0 rehearsal =
      [.criteriaCreated "Dinghy", .expressionSkipped .nullValue] := by
  rfl

theorem voyage_adds_up :
    let c := (Guarded.uses (Guarded.afresh {}) voyage).telemetry.counters
    (∀ t ∈ [Tally.criteriaCreated, Tally.compiles],
        (t.overall c).toNat = c.entities.total fun _ x => (t.ofEntity x).toNat) ∧
      (Tally.criteriaCreated.overall c).toNat = 2 ∧
      c.expressionsSkipped.toNat = c.skips.total (fun _ n => n.toNat) ∧
      c.structuralSkips.toNat = 1 ∧
      ((launched.use .openSink).uses rehearsal).workspace.closeSink.1 =
        [.criteriaCreated "Dinghy", .expressionSkipped .nullValue] := by
  intro c
  obtain ⟨htallies, hskips, hstructural, -, -, hsinks⟩ := Guarded.metrics_add_up {} voyage
  rw [counted_voyage] at htallies hskips hstructural
  obtain ⟨hcreated, htwo⟩ := htallies .criteriaCreated (by decide)
  obtain ⟨hcompiled, -⟩ := htallies .compiles (by decide)
  obtain ⟨hskipped, -⟩ := hskips (by decide)
  obtain ⟨-, hone⟩ := hstructural (by decide)
  obtain ⟨hsink, -⟩ := hsinks launched rehearsal rfl
  refine ⟨by simpa using ⟨hcreated, hcompiled⟩, htwo, hskipped, hone, ?_⟩
  rw [hsink, direct_rehearsal]

end QueryCriteria
