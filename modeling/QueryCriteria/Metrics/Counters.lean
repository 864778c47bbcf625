import QueryCriteria.Compile.Error
import QueryCriteria.Criteria.Skip
import QueryCriteria.Saturating
import QueryCriteria.Text.NameMap

namespace QueryCriteria.Metrics

inductive Event where
  | criteriaCreated (entity : String)
  | expressionSkipped (reason : SkipReason)
  | compileFinished (entity : String) (predicates parameters subqueries : Nat)
  | compileFailed (entity : String) (error : CompileError)
deriving DecidableEq, Repr

structure EntityCounters where
  criteriaCreated : UInt64 := 0
  compiles : UInt64 := 0
  compileFailures : UInt64 := 0
  parametersBound : UInt64 := 0
deriving DecidableEq, Repr

structure Counters where
  criteriaCreated : UInt64 := 0
  expressionsSkipped : UInt64 := 0
  structuralSkips : UInt64 := 0
  compiles : UInt64 := 0
  compileFailures : UInt64 := 0
  predicatesRendered : UInt64 := 0
  parametersBound : UInt64 := 0
  subqueriesRendered : UInt64 := 0
  skips : NameMap UInt64 := {}
  entities : NameMap EntityCounters := {}
deriving DecidableEq, Repr

def EntityCounters.entries (c : EntityCounters) : List (String × UInt64) :=
  [("criteria_created", c.criteriaCreated), ("compiles", c.compiles),
    ("compile_failures", c.compileFailures), ("parameters_bound", c.parametersBound)]

def Counters.operations (c : Counters) : List (String × UInt64) :=
  [("criteria_created", c.criteriaCreated), ("expressions_skipped", c.expressionsSkipped),
    ("structural_skips", c.structuralSkips), ("compiles", c.compiles),
    ("compile_failures", c.compileFailures), ("predicates_rendered", c.predicatesRendered),
    ("parameters_bound", c.parametersBound), ("subqueries_rendered", c.subqueriesRendered)]

def plus (count : UInt64) (n : Nat) : UInt64 :=
  Saturating.clamp (count.toNat + n)

theorem toNat_plus (count : UInt64) (n : Nat) :
    (plus count n).toNat = min (count.toNat + n) (UInt64.size - 1) :=
  Saturating.toNat_clamp _

def Counters.updateEntity (c : Counters) (entity : String) (f : EntityCounters → EntityCounters) :
    Counters :=
  { c with entities := c.entities.update entity {} f }

def Counters.count (c : Counters) : Event → Counters
  | .criteriaCreated entity =>
      { c with criteriaCreated := plus c.criteriaCreated 1 }.updateEntity entity fun e =>
        { e with criteriaCreated := plus e.criteriaCreated 1 }
  | .expressionSkipped reason =>
      { c with
        expressionsSkipped := plus c.expressionsSkipped 1
        structuralSkips := if reason.isStructural then plus c.structuralSkips 1 else c.structuralSkips
        skips := c.skips.update reason.label 0 (plus · 1) }
  | .compileFinished entity predicates parameters subqueries =>
      { c with
        compiles := plus c.compiles 1
        predicatesRendered := plus c.predicatesRendered predicates
        parametersBound := plus c.parametersBound parameters
        subqueriesRendered := plus c.subqueriesRendered subqueries }.updateEntity entity fun e =>
          { e with
            compiles := plus e.compiles 1
            parametersBound := plus e.parametersBound parameters }
  | .compileFailed entity _ =>
      { c with compileFailures := plus c.compileFailures 1 }.updateEntity entity fun e =>
        { e with compileFailures := plus e.compileFailures 1 }

end QueryCriteria.Metrics
