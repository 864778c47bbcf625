import QueryCriteria.Calendar.Timestamp
import QueryCriteria.Ulid

namespace QueryCriteria

open QueryCriteria.Calendar

inductive Value where
  | null
  | bool (b : Bool)
  | int (n : Int64)
  | uint (n : UInt64)
  | float (x : Float)
  | text (s : String)
  | bytes (bs : List UInt8)
  | date (d : Date)
  | timestamp (t : Timestamp)
  | ulid (u : Ulid)
  | list (items : List Value)

namespace Value

inductive Tag where
  | null
  | bool
  | int
  | uint
  | float
  | text
  | bytes
  | date
  | timestamp
  | ulid
  | list
deriving DecidableEq, Repr

def Tag.name : Tag → String
  | .null => "null"
  | .bool => "bool"
  | .int => "int"
  | .uint => "uint"
  | .float => "float"
  | .text => "text"
  | .bytes => "bytes"
  | .date => "date"
  | .timestamp => "timestamp"
  | .ulid => "ulid"
  | .list => "list"

def tag : Value → Tag
  | .null => .null
  | .bool _ => .bool
  | .int _ => .int
  | .uint _ => .uint
  | .float _ => .float
  | .text _ => .text
  | .bytes _ => .bytes
  | .date _ => .date
  | .timestamp _ => .timestamp
  | .ulid _ => .ulid
  | .list _ => .list

def isNull (v : Value) : Bool :=
  v.tag == .null

def isList (v : Value) : Bool :=
  v.tag == .list

def asText? : Value → Option String
  | .text s => some s
  | _ => none

def elements : Value → List Value
  | .list items => items
  | v => [v]

mutual
def agrees : Value → Value → Bool
  | .null, .null => true
  | .bool a, .bool b => a == b
  | .int a, .int b => a == b
  | .uint a, .uint b => a == b
  | .float a, .float b => a == b
  | .text a, .text b => a == b
  | .bytes a, .bytes b => a == b
  | .date a, .date b => a == b
  | .timestamp a, .timestamp b => a.instant == b.instant
  | .ulid a, .ulid b => a == b
  | .list a, .list b => allAgree a b
  | _, _ => false

def allAgree : List Value → List Value → Bool
  | [], [] => true
  | a :: as, b :: bs => agrees a b && allAgree as bs
  | _, _ => false
end

end Value

end QueryCriteria
