import QueryCriteria.Calendar.Rfc3339
import QueryCriteria.Decimal.Layout
import QueryCriteria.Json.Text
import QueryCriteria.Value

namespace QueryCriteria.Value

open QueryCriteria.Calendar QueryCriteria.Decimal QueryCriteria.Json

def Tag.jsonName : Tag → String
  | .null => "Null"
  | .bool => "Bool"
  | .int => "Int"
  | .uint => "Uint"
  | .float => "Float"
  | .text => "Text"
  | .bytes => "Bytes"
  | .date => "Date"
  | .timestamp => "Timestamp"
  | .ulid => "Ulid"
  | .list => "List"

def quoted (s : String) : List Char :=
  (quote s).toList

def tagged (t : Tag) (content : List Char) : List Char :=
  '{' :: quoted t.jsonName ++ ':' :: content ++ ['}']

def bracketed (items : List (List Char)) : List Char :=
  '[' :: [','].intercalate items ++ [']']

def intChars (n : Int) : List Char :=
  if n < 0 then '-' :: digits n.natAbs else digits n.natAbs

def floatChars (x : Float) : List Char :=
  ((jsonFloat? x).getD "null").toList

mutual
def jsonChars? : Value → Option (List Char)
  | .null => some (quoted Tag.null.jsonName)
  | .bool b => some (tagged .bool (if b then "true".toList else "false".toList))
  | .int n => some (tagged .int (intChars n.toInt))
  | .uint n => some (tagged .uint (digits n.toNat))
  | .float x => some (tagged .float (floatChars x))
  | .text s => some (tagged .text (quoted s))
  | .bytes bs => some (tagged .bytes (bracketed (bs.map fun b => digits b.toNat)))
  | .date d => some (tagged .date (bracketed [intChars d.year, digits d.ordinal]))
  | .timestamp t => (Rfc3339.write? t).map fun s => tagged .timestamp (quoted s)
  | .ulid u => some (tagged .ulid (quoted u.toText))
  | .list items => (jsonItems? items).map fun texts => tagged .list (bracketed texts)

def jsonItems? : List Value → Option (List (List Char))
  | [] => some []
  | v :: vs =>
      match jsonChars? v, jsonItems? vs with
      | some t, some ts => some (t :: ts)
      | _, _ => none
end

def json? (v : Value) : Option String :=
  (jsonChars? v).map String.ofList

end QueryCriteria.Value
