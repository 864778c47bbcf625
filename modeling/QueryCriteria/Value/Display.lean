import QueryCriteria.Calendar.Rfc3339
import QueryCriteria.Decimal.Layout
import QueryCriteria.Value

namespace QueryCriteria.Value

open QueryCriteria.Calendar QueryCriteria.Decimal

mutual
def display? : Value → Option String
  | .null => some "NULL"
  | .bool b => some (if b then "true" else "false")
  | .int n => some (toString n.toInt)
  | .uint n => some (toString n.toNat)
  | .float x => some (displayFloat x)
  | .text s => some s
  | .bytes bs => some ("<" ++ toString bs.length ++ " bytes>")
  | .date d => some d.toText
  | .timestamp t => Rfc3339.write? t
  | .ulid u => some u.toText
  | .list items => (displayAll? items).map fun texts => "[" ++ ", ".intercalate texts ++ "]"

def displayAll? : List Value → Option (List String)
  | [] => some []
  | v :: vs =>
      match display? v, displayAll? vs with
      | some t, some ts => some (t :: ts)
      | _, _ => none
end

end QueryCriteria.Value
