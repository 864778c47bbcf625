import QueryCriteria.Value.Json

namespace QueryCriteria

open QueryCriteria.Json

structure Bindings where
  entries : List (String × Value) := []

namespace Bindings

def get? (b : Bindings) (name : String) : Option Value :=
  b.entries.lookup name

def names (b : Bindings) : List String :=
  b.entries.map (·.1)

def values (b : Bindings) : List Value :=
  b.entries.map (·.2)

def size (b : Bindings) : Nat :=
  b.entries.length

def isEmpty (b : Bindings) : Bool :=
  b.entries.isEmpty

def member? (entry : String × Value) : Option (List Char) :=
  (Value.jsonChars? entry.2).map fun text => Value.quoted entry.1 ++ ':' :: text

def json? (b : Bindings) : Option String :=
  (b.entries.mapM member?).map fun members =>
    String.ofList ('{' :: [','].intercalate members ++ ['}'])

end Bindings

end QueryCriteria
