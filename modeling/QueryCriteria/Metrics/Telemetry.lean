import QueryCriteria.Metrics.Counters

namespace QueryCriteria.Metrics

structure Telemetry where
  counters : Counters := {}
  sinks : List (List Event) := []
deriving DecidableEq, Repr

namespace Telemetry

def record (t : Telemetry) (e : Event) : Telemetry :=
  match t.sinks with
  | [] => { t with counters := t.counters.count e }
  | sink :: outer => { t with sinks := (e :: sink) :: outer }

def openSink (t : Telemetry) : Telemetry :=
  { t with sinks := [] :: t.sinks }

def closeSink (t : Telemetry) : List Event × Telemetry :=
  match t.sinks with
  | [] => ([], t)
  | sink :: outer => (sink.reverse, { t with sinks := outer })

def reset (t : Telemetry) : Telemetry :=
  { t with counters := {} }

theorem foldl_record_of_closed {t : Telemetry} (h : t.sinks = []) (es : List Event) :
    es.foldl record t = { t with counters := es.foldl Counters.count t.counters } := by
  induction es generalizing t with
  | nil => rfl
  | cons e es ih =>
      have hrecord : t.record e = { t with counters := t.counters.count e } := by rw [record, h]
      rw [List.foldl_cons, ih (by rw [hrecord, h]), hrecord]
      rfl

theorem foldl_record_of_open {t : Telemetry} {sink : List Event} {outer : List (List Event)}
    (h : t.sinks = sink :: outer) (es : List Event) :
    es.foldl record t = { t with sinks := (es.reverse ++ sink) :: outer } := by
  induction es generalizing t sink with
  | nil => simp [← h]
  | cons e es ih =>
      have hrecord : t.record e = { t with sinks := (e :: sink) :: outer } := by rw [record, h]
      rw [List.foldl_cons, hrecord, ih rfl]
      simp

end Telemetry

end QueryCriteria.Metrics
