import QueryCriteria.Json.Number
import QueryCriteria.Value.Json

namespace QueryCriteria.Value

open QueryCriteria.Calendar QueryCriteria.Json

def isSpace (c : Char) : Bool :=
  c == ' ' || c == '\n' || c == '\t' || c == '\r'

def skipSpace (cs : List Char) : List Char :=
  cs.dropWhile isSpace

def token (c : Char) (cs : List Char) : Option (List Char) :=
  match skipSpace cs with
  | d :: rest => if d = c then some rest else none
  | [] => none

def word (w : String) (cs : List Char) : Option (List Char) :=
  let cs := skipSpace cs
  if w.toList.isPrefixOf cs then some (cs.drop w.toList.length) else none

abbrev Reader (α : Type) := List Char → Option (α × List Char)

def readItems {α : Type} (item : Reader α) : Nat → Reader (List α)
  | 0, _ => none
  | fuel + 1, cs => do
      let (a, cs) ← item cs
      match skipSpace cs with
      | ',' :: rest =>
          let (as, rest) ← readItems item fuel rest
          some (a :: as, rest)
      | ']' :: rest => some ([a], rest)
      | _ => none

def readArray {α : Type} (item : Reader α) : Reader (List α) := fun cs => do
  let cs ← token '[' cs
  match token ']' cs with
  | some rest => some ([], rest)
  | none => readItems item cs.length cs

def readBool : Reader Bool := fun cs =>
  match word "true" cs with
  | some rest => some (true, rest)
  | none => (word "false" cs).map (false, ·)

def readInt : Reader Int := fun cs => do
  let (n, rest) ← readNumber (skipSpace cs)
  match n with
  | .whole n => some (n, rest)
  | .negative n => some (-(n : Int), rest)
  | .float _ => none

def readIntWithin (least greatest : Int) : Reader Int := fun cs => do
  let (n, rest) ← readInt cs
  if least ≤ n ∧ n ≤ greatest then some (n, rest) else none

def readFloat : Reader Float := fun cs => do
  let (n, rest) ← readNumber (skipSpace cs)
  match n with
  | .whole n => some ((UInt64.ofNat n).toFloat, rest)
  | .negative n => some (-(UInt64.ofNat n).toFloat, rest)
  | .float x => some (x, rest)

def readByte : Reader UInt8 := fun cs =>
  (readIntWithin 0 255 cs).map fun (n, rest) => (n.toNat.toUInt8, rest)

def readString : Reader String := fun cs =>
  readText (skipSpace cs)

def readParsed {α : Type} (parse : String → Option α) : Reader α := fun cs => do
  let (s, rest) ← readString cs
  let a ← parse s
  some (a, rest)

def readBytes (deeper : Bool) : Reader (List UInt8) := fun cs =>
  match skipSpace cs with
  | '"' :: rest => readTextBytes ('"' :: rest)
  | cs => if deeper then readArray readByte cs else none

def readDate : Reader Date := fun cs => do
  let cs ← token '[' cs
  let (year, cs) ← readIntWithin (-2147483648) 2147483647 cs
  let cs ← token ',' cs
  let (ordinal, cs) ← readIntWithin 0 65535 cs
  let cs ← token ']' cs
  let date ← Date.ofOrdinal? year ordinal.toNat
  some (date, cs)

def readContent (deeper : Bool) (item : Reader Value) (kind : String) : Reader Value := fun cs =>
  if kind = "Null" then (word "null" cs).map (.null, ·)
  else if kind = "Bool" then (readBool cs).map fun (b, r) => (.bool b, r)
  else if kind = "Int" then
    (readIntWithin (-9223372036854775808) 9223372036854775807 cs).map fun (n, r) =>
      (.int (Int64.ofInt n), r)
  else if kind = "Uint" then
    (readIntWithin 0 18446744073709551615 cs).map fun (n, r) => (.uint (UInt64.ofNat n.toNat), r)
  else if kind = "Float" then (readFloat cs).map fun (x, r) => (.float x, r)
  else if kind = "Text" then (readString cs).map fun (s, r) => (.text s, r)
  else if kind = "Bytes" then (readBytes deeper cs).map fun (bs, r) => (.bytes bs, r)
  else if kind = "Date" then
    if deeper then (readDate cs).map fun (d, r) => (.date d, r) else none
  else if kind = "Timestamp" then
    (readParsed Rfc3339.read? cs).map fun (t, r) => (.timestamp t, r)
  else if kind = "Ulid" then (readParsed Ulid.read? cs).map fun (u, r) => (.ulid u, r)
  else if kind = "List" then
    if deeper then (readArray item cs).map fun (vs, r) => (.list vs, r) else none
  else none

def readValue : Nat → Reader Value
  | 0 => fun cs => do
      let (kind, rest) ← readString cs
      if kind = "Null" then some (.null, rest) else none
  | 1 => member false fun _ => none
  | depth + 2 => member true (readValue depth)
where
  member (deeper : Bool) (item : Reader Value) : Reader Value := fun cs =>
    match skipSpace cs with
    | '{' :: cs => do
        let (kind, cs) ← readString cs
        let cs ← token ':' cs
        let (v, cs) ← readContent deeper item kind cs
        let cs ← token '}' cs
        some (v, cs)
    | cs => do
        let (kind, rest) ← readString cs
        if kind = "Null" then some (.null, rest) else none

def maxDepth : Nat := 127

def ofJson? (s : String) : Option Value :=
  match readValue maxDepth s.toList with
  | some (v, rest) => if (skipSpace rest).isEmpty then some v else none
  | none => none

end QueryCriteria.Value
