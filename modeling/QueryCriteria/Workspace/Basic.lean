import QueryCriteria.Criteria.Addition
import QueryCriteria.Criteria.Error
import QueryCriteria.Metrics.Telemetry
import QueryCriteria.Scope.Basic

namespace QueryCriteria

open QueryCriteria.Model QueryCriteria.Metrics

structure Workspace where
  scopes : List Scope := []
  telemetry : Telemetry := {}
deriving DecidableEq, Repr

namespace Workspace

def scope (w : Workspace) (id : ScopeId) : Scope :=
  w.scopes.getD id.index (.fresh {} {})

def setScope (w : Workspace) (id : ScopeId) (s : Scope) : Workspace :=
  { w with scopes := w.scopes.set id.index s }

def record (w : Workspace) (e : Event) : Workspace :=
  { w with telemetry := w.telemetry.record e }

def openScope (w : Workspace) (config : Config) (registry : Registry) : ScopeId × Workspace :=
  (⟨w.scopes.length⟩, { w with scopes := w.scopes ++ [.fresh config registry] })

def within {ε α : Type} (w : Workspace) (id : ScopeId)
    (operation : Scope → Except ε (α × Scope)) : Except ε α × Workspace :=
  match operation (w.scope id) with
  | .error e => (.error e, w)
  | .ok (a, s) => (.ok a, w.setScope id s)

def entities (w : Workspace) : EntityLookup where
  entity? owner := ((w.scope owner.scope).slot? owner.id).map (·.entity)
  registry id := (w.scope id).registry

def register (w : Workspace) (id : ScopeId) (entity : Entity) (parent : Option CriteriaId) :
    Except CriteriaError Criteria × Workspace :=
  match w.within id fun s => s.register entity parent with
  | (.error e, w) => (.error (.scope e), w)
  | (.ok criteria, w) =>
      (.ok (.fresh id criteria entity parent), w.record (.criteriaCreated entity.name))

def create (w : Workspace) (id : ScopeId) (entity : String) (parent : Option CriteriaId) :
    Except CriteriaError Criteria × Workspace :=
  match (w.scope id).registry.entity? entity with
  | none => (.error (.unknownEntity entity), w)
  | some e => w.register id e parent

def createRoot (w : Workspace) (id : ScopeId) (entity : String) :
    Except CriteriaError Criteria × Workspace :=
  w.create id entity none

def createSub (w : Workspace) (c : Criteria) (entity : String) :
    Except CriteriaError Criteria × Workspace :=
  w.create c.scope entity (some c.id)

def createSibling (w : Workspace) (c : Criteria) : Except CriteriaError Criteria × Workspace :=
  w.create c.scope c.node.entity.name c.node.parent

def aliasOf (w : Workspace) (c : Criteria) : Except ScopeError String × Workspace :=
  w.within c.scope fun s => s.aliasOf c.id

def fixAlias (w : Workspace) (c : Criteria) (aliasName : String) :
    Except CriteriaError Unit × Workspace :=
  w.within c.scope fun s =>
    match s.assignAlias c.id aliasName with
    | .error e => .error (.scope e)
    | .ok s => .ok ((), s)

def freeze (w : Workspace) (id : ScopeId) : Except ScopeError Unit × Workspace :=
  w.within id fun s => s.freeze.map fun s => ((), s)

def unfreeze (w : Workspace) (id : ScopeId) : Workspace :=
  w.setScope id (w.scope id).unfreeze

def openSink (w : Workspace) : Workspace :=
  { w with telemetry := w.telemetry.openSink }

def closeSink (w : Workspace) : List Event × Workspace :=
  let (events, telemetry) := w.telemetry.closeSink
  (events, { w with telemetry })

def resetCounters (w : Workspace) : Workspace :=
  { w with telemetry := w.telemetry.reset }

def buildCondition (w : Workspace) (c : Condition) : Except Refusal Predicate :=
  c.build w.entities

def add (w : Workspace) (c : Criteria) (a : Addition) : Option Criteria × Workspace :=
  match c.add w.entities a with
  | .ok c => (some c, w)
  | .error (.skipped reason) => (some c, w.record (.expressionSkipped reason))
  | .error .unwritable => (none, w)

def pushChild (w : Workspace) (children : List Predicate) (child : Except SkipReason Predicate) :
    List Predicate × Workspace :=
  match child with
  | .ok p => (children ++ [p], w)
  | .error reason => (children, w.record (.expressionSkipped reason))

theorem telemetry_within {ε α : Type} (w : Workspace) (id : ScopeId)
    (operation : Scope → Except ε (α × Scope)) : (w.within id operation).2.telemetry = w.telemetry := by
  unfold within
  split <;> rfl

end Workspace

end QueryCriteria
