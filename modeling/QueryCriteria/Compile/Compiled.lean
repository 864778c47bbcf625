import QueryCriteria.Bindings
import QueryCriteria.Compile.Placement
import QueryCriteria.Config

namespace QueryCriteria

structure Compiled where
  clauses : Clauses (Piece Parameter)
  style : PlaceholderStyle
  distinct : Bool
  keepOrder : Bool
  shape : ResultShape

namespace Compiled

def write (c : Compiled) (parts : List (Piece Parameter)) : String :=
  Piece.write (fun p => c.style.write p.name p.ordinal) parts

def selectText (c : Compiled) : String :=
  c.write c.clauses.select

def sourceText (c : Compiled) : String :=
  c.write c.clauses.source

def filterText (c : Compiled) : String :=
  c.write c.clauses.filter

def groupText (c : Compiled) : String :=
  c.write c.clauses.group

def orderText (c : Compiled) : String :=
  c.write c.clauses.order

def window? (c : Compiled) : Option Window :=
  c.clauses.window

def statementParts (c : Compiled) : List (Piece Parameter) :=
  c.clauses.statement

def countParts (c : Compiled) : List (Piece Parameter) :=
  c.clauses.countStatement c.distinct c.keepOrder

def statement (c : Compiled) : String :=
  c.write c.statementParts

def countStatement (c : Compiled) : String :=
  c.write c.countParts

def parameters (c : Compiled) : List Parameter :=
  Piece.holes c.clauses.bindingOrder

def bindings (c : Compiled) : Bindings :=
  ⟨c.parameters.map fun p => (p.name, p.value)⟩

end Compiled

end QueryCriteria
