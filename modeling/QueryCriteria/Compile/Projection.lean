import QueryCriteria.Compile.Fragment

namespace QueryCriteria

def labelled (parts : List Fragment) : Option String → List Fragment
  | none => parts
  | some label => parts ++ [.sql (" AS " ++ label)]

def listed (items : List (List Fragment)) : List Fragment :=
  [Fragment.sql ", "].intercalate items

namespace Node

def column (n : Node) (target : Target) : Fragment :=
  .column { owner := n.id, target }

def propertyLabel (n : Node) : Target → Option String
  | .resolved column => if n.flags.propertyLabels then some column.property else none
  | .raw _ => none

def selectsDefault (n : Node) : Bool :=
  !n.selections.any Selection.isPlain && !n.flags.onlyFunctions

def defaultItems (n : Node) : List (List Fragment) :=
  if n.selectsDefault then
    (n.entity.columns.filter fun c => !n.ignored.has c.property).map fun c =>
      labelled [n.column (.resolved c)] (n.propertyLabel (.resolved c))
  else []

def selectionItem (n : Node) : Selection → List Fragment
  | .column target label => labelled [n.column target] (label <|> n.propertyLabel target)
  | .native sql label => labelled [.sql sql] label
  | .aggregate func target distinct label =>
      let argument :=
        match target with
        | none => .sql "*"
        | some target => n.column target
      let opening := func.text ++ "(" ++ if distinct then "DISTINCT " else ""
      labelled [.sql opening, argument, .sql ")"] label

def items (n : Node) : List (List Fragment) :=
  n.defaultItems ++ n.selections.map n.selectionItem

def groupItem (n : Node) : Grouping → List Fragment
  | .column target => [n.column target]
  | .native sql => [.sql sql]

def orderItem (n : Node) : OrderItem → List Fragment
  | .column target direction => [n.column target, .sql (" " ++ direction.text)]
  | .native sql => [.sql sql]

end Node

mutual
def fetchedItems : Criteria → List (List Fragment)
  | .mk node _ joins => (if node.join.fetch then node.items else []) ++ allFetchedItems joins

def allFetchedItems : List Criteria → List (List Fragment)
  | [] => []
  | c :: cs => fetchedItems c ++ allFetchedItems cs
end

def projection (n : Node) (joins : List Criteria) : List Fragment :=
  let items := n.items ++ allFetchedItems joins
  let list := if items.isEmpty then [.sql "*"] else listed items
  if n.flags.distinct then .sql "DISTINCT " :: list else list

end QueryCriteria
