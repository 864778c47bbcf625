namespace QueryCriteria

structure ScopeId where
  index : Nat
deriving DecidableEq, Repr

structure CriteriaId where
  index : Nat
deriving DecidableEq, Repr

def CriteriaId.toText (id : CriteriaId) : String :=
  "#" ++ toString id.index

end QueryCriteria
