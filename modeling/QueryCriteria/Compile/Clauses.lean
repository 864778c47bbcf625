import QueryCriteria.Criteria.Window

namespace QueryCriteria

class SqlPart (α : Type) where
  sql : String → α
  heading : String → List α → α
  isEmpty : α → Bool

structure Clauses (α : Type) where
  select : List α
  source : List α
  filter : List α := []
  group : List α := []
  order : List α := []
  window : Option Window := none
deriving DecidableEq, Repr

namespace Clauses

open SqlPart

variable {α β : Type}

def map (f : α → β) (c : Clauses α) : Clauses β where
  select := c.select.map f
  source := c.source.map f
  filter := c.filter.map f
  group := c.group.map f
  order := c.order.map f
  window := c.window

def bindingOrder (c : Clauses α) : List α :=
  c.source ++ c.filter ++ c.group ++ c.order ++ c.select

theorem bindingOrder_map (f : α → β) (c : Clauses α) :
    (c.map f).bindingOrder = c.bindingOrder.map f := by
  simp [bindingOrder, map]

variable [SqlPart α]

def clause (keyword : String) (parts : List α) : List α :=
  if parts.all isEmpty then [] else heading keyword parts :: parts

def query (select source filter group order : List α) : List α :=
  sql "SELECT " :: select ++ sql " FROM " :: source ++ clause " WHERE " filter ++
    clause " GROUP BY " group ++ clause " ORDER BY " order

def windowParts : Option Window → List α
  | none => []
  | some w => [sql w.text]

def statement (c : Clauses α) : List α :=
  query c.select c.source c.filter c.group c.order ++ windowParts c.window

def countStatement (distinct keepOrder : Bool) (c : Clauses α) : List α :=
  if c.group.all isEmpty && !distinct then query [sql "COUNT(*)"] c.source c.filter [] []
  else
    sql "SELECT COUNT(*) FROM (" ::
      query c.select c.source c.filter c.group (if keepOrder then c.order else []) ++ [sql ") total"]

end Clauses

end QueryCriteria
