import QueryCriteria.Compile.Compiled
import QueryCriteria.Compile.Draft
import QueryCriteria.Compile.Reference
import QueryCriteria.Scope.Basic
import QueryCriteria.Workspace.Basic

namespace QueryCriteria

open QueryCriteria.Metrics

def drawAliases (root : ScopeId) (placed : List (CriteriaId × String)) (s : Scope) :
    List Reference → Except CompileError Unit × Scope
  | [] => (.ok (), s)
  | .source scope id _ _ :: rest =>
      if scope ≠ root then (.error (.foreignScope id), s)
      else if placed.any (·.1 == id) then (.error (.duplicateCriteria id), s)
      else
        match s.aliasWhileHeld id with
        | .error e => (.error (.scope e), s)
        | .ok (drawn, s) =>
            if placed.any (·.2 == drawn) then (.error (.aliasCollision drawn), s)
            else drawAliases root ((id, drawn) :: placed) s rest
  | .owner id :: rest =>
      match s.aliasWhileHeld id with
      | .error e => (.error (.scope e), s)
      | .ok (_, s) => drawAliases root placed s rest
  | .correlated id :: rest =>
      match s.aliasWhileHeld id with
      | .error e => (.error (.scope e), s)
      | .ok (_, s) => drawAliases root placed s rest

def Scope.context (s : Scope) (references : List Reference) : Context where
  alias? := s.alias?
  qualifies := QueryCriteria.qualifies s.config.qualify references

def placeDraft (ctx : Context) (names : NumberedNames) (d : Clauses Fragment) :
    Except CompileError (Clauses (Piece Parameter)) × NumberedNames :=
  let result :=
    match Fragment.firstFailure? ctx d.bindingOrder with
    | some e => .error e
    | none => .ok ((d.map (Fragment.piece ctx)).number names)
  (result, names.advance (Fragment.boundBeforeFailure ctx d.bindingOrder))

namespace Criteria

def statementDraft (c : Criteria) : Clauses Fragment :=
  draft false c

def predicateCount (c : Criteria) : Nat :=
  c.statementDraft.bindingOrder.countP Fragment.isLead

def subqueryCount (c : Criteria) : Nat :=
  c.statementDraft.bindingOrder.countP Fragment.isQuery

def compiled (c : Criteria) (style : PlaceholderStyle) (clauses : Clauses (Piece Parameter)) :
    Compiled where
  clauses := clauses
  style := style
  distinct := c.node.flags.distinct
  keepOrder := c.node.flags.keepOrder
  shape := c.node.shape

end Criteria

namespace Scope

def compileHeld (s : Scope) (c : Criteria) : Except CompileError Compiled × Scope :=
  match drawAliases c.scope [] s c.references with
  | (.error e, s) => (.error e, s)
  | (.ok (), s) =>
      let (result, parameters) := placeDraft (s.context c.references) s.parameters c.statementDraft
      (result.map (c.compiled s.config.placeholder), { s with parameters })

def compile (s : Scope) (c : Criteria) : Except CompileError Compiled × Scope :=
  match s.freeze with
  | .error e => (.error (.ofScope e), s)
  | .ok s =>
      let (result, s) := s.compileHeld c
      (result, s.unfreeze)

end Scope

namespace Workspace

def compile (w : Workspace) (c : Criteria) : Except CompileError Compiled × Workspace :=
  let (result, s) := (w.scope c.scope).compile c
  let w := w.setScope c.scope s
  let entity := c.node.entity.name
  match result with
  | .error e => (.error e, w.record (.compileFailed entity e))
  | .ok compiled =>
      (.ok compiled,
        w.record (.compileFinished entity c.predicateCount compiled.bindings.size c.subqueryCount))

end Workspace

end QueryCriteria
