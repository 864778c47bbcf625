import QueryCriteria.Criteria.Addition

namespace QueryCriteria

namespace Criteria

def ignore (c : Criteria) (property : String) : Criteria :=
  c.mapNode fun n => { n with ignored := n.ignored.add property }

def limitRows (c : Criteria) (rows : RowSpan) : Criteria :=
  c.mapNode fun n => { n with pagination := { n.pagination with rows := some rows } }

def limitPages (c : Criteria) (pages : PageSpan) : Criteria :=
  c.mapNode fun n => { n with pagination := { n.pagination with pages := some pages } }

def mapFlags (c : Criteria) (f : RenderFlags → RenderFlags) : Criteria :=
  c.mapNode fun n => { n with flags := f n.flags }

def setDistinct (c : Criteria) (b : Bool) : Criteria :=
  c.mapFlags fun fs => { fs with distinct := b }

def setContainsFunction (c : Criteria) (b : Bool) : Criteria :=
  c.mapFlags fun fs => { fs with containsFunction := b }

def setOnlyFunctions (c : Criteria) (b : Bool) : Criteria :=
  c.mapFlags fun fs => { fs with onlyFunctions := b }

def setPropertyLabels (c : Criteria) (b : Bool) : Criteria :=
  c.mapFlags fun fs => { fs with propertyLabels := b }

def setKeepOrder (c : Criteria) (b : Bool) : Criteria :=
  c.mapFlags fun fs => { fs with keepOrder := b }

def mapShape (c : Criteria) (f : ResultShape → ResultShape) : Criteria :=
  c.mapNode fun n => { n with shape := f n.shape }

def setResultMap (c : Criteria) (s : String) : Criteria :=
  c.mapShape fun shape => { shape with resultMap := some s }

def setResultType (c : Criteria) (s : String) : Criteria :=
  c.mapShape fun shape => { shape with resultType := some s }

def setMapKey (c : Criteria) (s : String) : Criteria :=
  c.mapShape fun shape => { shape with mapKey := some s }

def setMapType (c : Criteria) (s : String) : Criteria :=
  c.mapShape fun shape => { shape with mapType := some s }

def join (c participant : Criteria) : Criteria :=
  .mk c.node c.predicates (c.joins ++ [participant])

def setJoinKind (c : Criteria) (kind : JoinKind) : Criteria :=
  c.mapNode fun n => { n with join := { n.join with kind } }

def setFetch (c : Criteria) (b : Bool) : Criteria :=
  c.mapNode fun n => { n with join := { n.join with fetch := b } }

def setQualify (c : Criteria) (b : Bool) : Criteria :=
  c.mapNode fun n => { n with qualify := some b }

def scratch (c : Criteria) : Criteria :=
  .fresh c.scope c.id c.node.entity c.node.parent

end Criteria

namespace Condition

def onProperty (connective : Connective) (property : String) (body : Body) : Condition :=
  ⟨{ column := .property property, connective }, body⟩

def onPrimaryKey (connective : Connective) (body : Body) : Condition :=
  ⟨{ column := .primaryKey, connective }, body⟩

def plain (connective : Connective) (body : Body) : Condition :=
  ⟨{ connective }, body⟩

def equalsProperty (connective : Connective) (property : String) (other : Criteria)
    (otherProperty : String) : Condition :=
  onProperty connective property (.columnEqual (some ⟨other.owner, .property otherProperty, none⟩))

def group (connective : Connective) (negated : Bool) (inner : Criteria) : Condition :=
  plain connective (.nested negated inner.predicates)

end Condition

end QueryCriteria
