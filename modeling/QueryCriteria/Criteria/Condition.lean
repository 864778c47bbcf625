import QueryCriteria.Criteria.Skip
import QueryCriteria.Criteria.Tree
import QueryCriteria.Model.Registry
import QueryCriteria.Text.Blank
import QueryCriteria.Value.Display

namespace QueryCriteria

open QueryCriteria.Model QueryCriteria.Text

structure Owner where
  scope : ScopeId
  id : CriteriaId
deriving DecidableEq, Repr

def Criteria.owner (c : Criteria) : Owner :=
  ⟨c.scope, c.id⟩

inductive ColumnSpec where
  | unset
  | property (name : String)
  | raw (sql : String)
  | primaryKey
deriving DecidableEq, Repr

structure OtherSide where
  owner : Owner
  column : ColumnSpec
  tableAlias : Option String := none
deriving DecidableEq, Repr

structure Condition.Head where
  column : ColumnSpec := .unset
  tableAlias : Option String := none
  connective : Connective := .and
  owner : Option Owner := none
deriving DecidableEq, Repr

inductive Condition.Body where
  | compare (op : CompareOp) (value : Option Value)
  | range (op : RangeOp) (values : Option Value)
  | between (op : BetweenOp) (low high : Option Value)
  | fuzzy (op : FuzzyOp) (text : Option Value) (wildcard : Wildcard) (escape : Option Char)
  | nullable (op : NullOp)
  | template (text : String) (args : TemplateArgs)
  | columnEqual (other : Option OtherSide)
  | existence (negated : Bool) (query : Option Criteria)
  | subquery (op : SubqueryOp) (query : Option Criteria)
  | nested (negated : Bool) (children : List Predicate)

structure Condition where
  head : Condition.Head
  body : Condition.Body

inductive Refusal where
  | skipped (reason : SkipReason)
  | unwritable
deriving DecidableEq, Repr

structure EntityLookup where
  entity? : Owner → Option Entity
  registry : ScopeId → Registry

def lookUp (entities : EntityLookup) (owner : Option Owner) (property : String) :
    Except SkipReason (Registry × String) :=
  match owner with
  | none => .error (.missingOwner property)
  | some o =>
      match entities.entity? o with
      | none => .error (.unknownOwner o.id)
      | some entity => .ok (entities.registry o.scope, entity.name)

def ColumnSpec.resolve (entities : EntityLookup) (owner : Option Owner) :
    ColumnSpec → Except SkipReason Target
  | .unset => .error .missingTarget
  | .raw sql => if isBlank sql then .error .blankTarget else .ok (.raw sql)
  | .property name =>
      if isBlank name then .error .blankTarget
      else
        match lookUp entities owner name with
        | .error reason => .error reason
        | .ok (registry, entity) =>
            match registry.column? entity name with
            | none => .error (.unresolvedProperty entity name)
            | some column => .ok (.resolved column)
  | .primaryKey =>
      match lookUp entities owner "id" with
      | .error reason => .error reason
      | .ok (registry, entity) =>
          match registry.idColumn? entity with
          | none => .error (.unresolvedId entity)
          | some column => .ok (.resolved column)

inductive Resolution where
  | immediate (sql : String)
  | standard (column : Column)
  | existence

def Resolution.parts : Resolution → MatchMode × Option Target
  | .immediate sql => (.immediate, some (.raw sql))
  | .standard column => (.standard, some (.resolved column))
  | .existence => (.existence, none)

def Resolution.ofTarget : Target → Resolution
  | .raw sql => .immediate sql
  | .resolved column => .standard column

def scalar (missing : SkipReason) : Option Value → Except SkipReason Value
  | none => .error missing
  | some .null => .error missing
  | some (.list _) => .error .listForScalar
  | some v => .ok v

def collection : Option Value → Except SkipReason (List Value)
  | none => .error .emptyCollection
  | some .null => .error .emptyCollection
  | some v =>
      match v.elements with
      | [] => .error .emptyCollection
      | values => .ok values

def fuzzyText (value : Option Value) : Except Refusal String :=
  match scalar .nullValue value with
  | .error reason => .error (.skipped reason)
  | .ok v =>
      match v.display? with
      | none => .error .unwritable
      | some text => if text = "" then .error (.skipped .emptyText) else .ok text

namespace Condition

def adopt (owner : Owner) (c : Condition) : Condition :=
  { c with head := { c.head with owner := c.head.owner <|> some owner } }

def Head.predicateHead (h : Head) (resolution : Resolution) : Predicate.Head where
  tableAlias := h.tableAlias
  connective := h.connective
  matched := resolution.parts.1
  target := resolution.parts.2

def Head.own (h : Head) (p : Predicate) : Predicate :=
  match h.owner with
  | none => p
  | some owner => p.bindOwner owner.id

def Head.resolve (h : Head) (entities : EntityLookup) : Except Refusal Target :=
  (h.column.resolve entities h.owner).mapError .skipped

def Head.test (h : Head) (entities : EntityLookup) (form : Except Refusal Test) :
    Except Refusal Predicate :=
  match h.resolve entities, form with
  | .error e, _ => .error e
  | .ok _, .error e => .error e
  | .ok target, .ok test => .ok (h.own (.test (h.predicateHead (.ofTarget target)) test))

def Head.templateColumn (h : Head) (entities : EntityLookup) : Except Refusal (Option Target) :=
  if h.column = .unset then .ok none else (h.resolve entities).map some

def betweenTest (op : BetweenOp) (low high : Option Value) : Except SkipReason Test :=
  match scalar .missingBound low, scalar .missingBound high with
  | .error reason, _ => .error reason
  | .ok _, .error reason => .error reason
  | .ok low, .ok high => .ok (.between op low high)

def columnEqualTest (entities : EntityLookup) : Option OtherSide → Except SkipReason Test
  | none => .error .missingOther
  | some other =>
      (other.column.resolve entities (some other.owner)).map fun target =>
        .columnEqual ⟨other.owner.id, other.tableAlias, target⟩

def build (entities : EntityLookup) (c : Condition) : Except Refusal Predicate :=
  let head := c.head
  match c.body with
  | .compare op value =>
      head.test entities (((scalar .nullValue value).map (.compare op)).mapError .skipped)
  | .range op values =>
      head.test entities (((collection values).map (.range op)).mapError .skipped)
  | .between op low high =>
      head.test entities ((betweenTest op low high).mapError .skipped)
  | .fuzzy op text wildcard escape =>
      head.test entities ((fuzzyText text).map fun text => .fuzzy op text wildcard escape)
  | .nullable op => head.test entities (.ok (.nullable op))
  | .template text args =>
      if isBlank text then .error (.skipped .missingTemplate)
      else (head.templateColumn entities).map fun column =>
        head.own (.test (head.predicateHead (.immediate text)) (.template args column))
  | .columnEqual other =>
      head.test entities ((columnEqualTest entities other).mapError .skipped)
  | .existence negated query =>
      match query with
      | none => .error (.skipped .missingSubquery)
      | some query => .ok (head.own (.existence (head.predicateHead .existence) negated query))
  | .subquery op query =>
      match head.resolve entities, query with
      | .error e, _ => .error e
      | .ok _, none => .error (.skipped .missingSubquery)
      | .ok target, some query =>
          .ok (head.own (.subquery (head.predicateHead (.ofTarget target)) op query))
  | .nested negated children =>
      match children with
      | [] => .error (.skipped .emptyNested)
      | children => .ok (head.own (.nested (head.predicateHead .existence) negated children))

end Condition

end QueryCriteria
