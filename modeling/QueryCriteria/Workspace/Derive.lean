import QueryCriteria.Workspace.Basic

namespace QueryCriteria

abbrev Renaming := List (CriteriaId × CriteriaId)

def Renaming.apply (r : Renaming) (id : CriteriaId) : CriteriaId :=
  (r.lookup id).getD id

abbrev Copying (α : Type) := Workspace × Renaming → Except CriteriaError α × Workspace × Renaming

namespace Copying

instance : Monad Copying where
  pure a := fun state => (.ok a, state)
  bind step next := fun state =>
    match step state with
    | (.error e, state) => (.error e, state)
    | (.ok a, state) => next a state

def rename (id : CriteriaId) : Copying CriteriaId :=
  fun (w, r) => (.ok (r.apply id), w, r)

def rename? : Option CriteriaId → Copying (Option CriteriaId)
  | none => pure none
  | some id => some <$> rename id

def copyNode (node : Node) (parent : Option CriteriaId) : Copying Node :=
  fun (w, r) =>
    match w.create node.scope node.entity.name parent with
    | (.error e, w) => (.error e, w, r)
    | (.ok copy, w) =>
        (.ok { node with id := copy.id, entity := copy.node.entity, parent }, w, (node.id, copy.id) :: r)

def copyHead (head : Predicate.Head) : Copying Predicate.Head := do
  let owner ← rename? head.owner
  return { head with owner }

def copyTest : Test → Copying Test
  | .columnEqual other => do
      let criteria ← rename other.criteria
      return .columnEqual { other with criteria }
  | test => pure test

mutual
def copyCriteria : Criteria → Copying Criteria
  | .mk node predicates joins => do
      let parent ← rename? node.parent
      let node ← copyNode node parent
      let joins ← copyJoins joins
      let predicates ← copyPredicates predicates
      return .mk node predicates joins

def copyJoins : List Criteria → Copying (List Criteria)
  | [] => pure []
  | c :: cs => do
      let c ← copyCriteria c
      let cs ← copyJoins cs
      return c :: cs

def copyPredicate : Predicate → Copying Predicate
  | .test head t => do
      let t ← copyTest t
      let head ← copyHead head
      return .test head t
  | .existence head negated query => do
      let query ← copyCriteria query
      let head ← copyHead head
      return .existence head negated query
  | .subquery head op query => do
      let query ← copyCriteria query
      let head ← copyHead head
      return .subquery head op query
  | .nested head negated children => do
      let children ← copyPredicates children
      let head ← copyHead head
      return .nested head negated children

def copyPredicates : List Predicate → Copying (List Predicate)
  | [] => pure []
  | p :: ps => do
      let p ← copyPredicate p
      let ps ← copyPredicates ps
      return p :: ps
end

end Copying

namespace Workspace

def derive (w : Workspace) (c : Criteria) : Except CriteriaError Criteria × Workspace :=
  let (result, w, _) := Copying.copyCriteria c (w, [])
  (result, w)

end Workspace

end QueryCriteria
