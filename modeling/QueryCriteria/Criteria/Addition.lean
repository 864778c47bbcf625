import QueryCriteria.Criteria.Condition

namespace QueryCriteria

open QueryCriteria.Text

inductive Addition where
  | condition (c : Condition)
  | built (result : Except SkipReason Predicate)
  | column (property : String) (label : Option String)
  | aggregate (func : Aggregate) (property : Option String) (distinct : Bool)
      (label : Option String)
  | group (property : String)
  | order (property : String) (direction : Direction)

namespace Criteria

def resolve (entities : EntityLookup) (c : Criteria) (property : String) : Except SkipReason Target :=
  if isBlank property then .error .blankTarget
  else
    match (entities.registry c.scope).column? c.node.entity.name property with
    | none => .error (.unresolvedProperty c.node.entity.name property)
    | some column => .ok (.resolved column)

def resolve? (entities : EntityLookup) (c : Criteria) : Option String → Except SkipReason (Option Target)
  | none => .ok none
  | some property => (c.resolve entities property).map some

def push (c : Criteria) (p : Predicate) : Criteria :=
  .mk c.node (c.predicates ++ [p.bindOwner c.id]) c.joins

def select (c : Criteria) (s : Selection) : Criteria :=
  c.mapNode fun n => { n with selections := n.selections ++ [s] }

def selectAggregate (c : Criteria) (s : Selection) : Criteria :=
  (c.mapNode fun n => { n with flags := { n.flags with containsFunction := true } }).select s

def groupBy (c : Criteria) (g : Grouping) : Criteria :=
  c.mapNode fun n => { n with groups := n.groups ++ [g] }

def orderBy (c : Criteria) (o : OrderItem) : Criteria :=
  c.mapNode fun n => { n with orders := n.orders ++ [o] }

def add (entities : EntityLookup) (c : Criteria) : Addition → Except Refusal Criteria
  | .condition condition => ((condition.adopt c.owner).build entities).map c.push
  | .built result => (result.map c.push).mapError .skipped
  | .column property label =>
      ((c.resolve entities property).map fun target => c.select (.column target label)).mapError .skipped
  | .aggregate func property distinct label =>
      ((c.resolve? entities property).map fun target =>
        c.selectAggregate (.aggregate func target distinct label)).mapError .skipped
  | .group property =>
      ((c.resolve entities property).map fun target => c.groupBy (.column target)).mapError .skipped
  | .order property direction =>
      ((c.resolve entities property).map fun target =>
        c.orderBy (.column target direction)).mapError .skipped

end Criteria

end QueryCriteria
