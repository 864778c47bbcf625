import QueryCriteria.Decimal.Layout
import QueryCriteria.Metrics.Counters

namespace QueryCriteria.Metrics

structure EntitySummary where
  entity : String
  counters : EntityCounters
deriving DecidableEq, Repr

namespace EntitySummary

def average (s : EntitySummary) : Float :=
  if s.counters.compiles = 0 then 0
  else s.counters.parametersBound.toFloat / s.counters.compiles.toFloat

def precedes (a b : EntitySummary) : Bool :=
  if a.counters.compiles = b.counters.compiles then a.entity ≤ b.entity
  else b.counters.compiles < a.counters.compiles

end EntitySummary

def Counters.summaries (c : Counters) : List EntitySummary :=
  (c.entities.entries.map fun (entity, counters) => ⟨entity, counters⟩).mergeSort
    EntitySummary.precedes

end QueryCriteria.Metrics
