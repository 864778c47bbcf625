import QueryCriteria.Config
import QueryCriteria.Criteria.Tree

namespace QueryCriteria

inductive Reference where
  | source (scope : ScopeId) (id : CriteriaId) (qualify : Option Bool) (joined : Bool)
  | owner (id : CriteriaId)
  | correlated (id : CriteriaId)
deriving DecidableEq, Repr

namespace Reference

def id : Reference → CriteriaId
  | .source _ id _ _ => id
  | .owner id => id
  | .correlated id => id

def correlates : Reference → Bool
  | .source _ _ _ joined => joined
  | .owner _ => false
  | .correlated _ => true

def override? : Reference → Option (CriteriaId × Bool)
  | .source _ id (some qualify) _ => some (id, qualify)
  | _ => none

end Reference

def Test.references : Test → List Reference
  | .columnEqual other => [.correlated other.criteria]
  | _ => []

def Predicate.Head.references (h : Head) : List Reference :=
  h.owner.toList.map .owner

mutual
def Criteria.references : Criteria → List Reference
  | .mk node predicates joins =>
      .source node.scope node.id node.qualify (!joins.isEmpty) ::
        predicateReferences predicates ++ joinReferences joins

def joinReferences : List Criteria → List Reference
  | [] => []
  | c :: cs => c.references ++ joinReferences cs

def Predicate.references : Predicate → List Reference
  | .test head t => head.references ++ t.references
  | .existence head _ query => head.references ++ query.references
  | .subquery head _ query => head.references ++ query.references
  | .nested head _ children => head.references ++ predicateReferences children

def predicateReferences : List Predicate → List Reference
  | [] => []
  | p :: ps => p.references ++ predicateReferences ps
end

def QualifyMode.qualifies (mode : QualifyMode) (references : List Reference) : Bool :=
  match mode with
  | .always => true
  | .never => false
  | .auto => references.any Reference.correlates

def qualifies (mode : QualifyMode) (references : List Reference) (id : CriteriaId) : Bool :=
  ((references.filterMap Reference.override?).lookup id).getD (mode.qualifies references)

end QueryCriteria
