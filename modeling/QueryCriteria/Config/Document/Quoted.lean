namespace QueryCriteria.Config.Document

def skipBlanks (cs : List Char) : List Char :=
  cs.dropWhile fun c => c == ' ' || c == '\t'

def newline? : List Char → Option (List Char)
  | '\n' :: cs => some cs
  | '\r' :: '\n' :: cs => some cs
  | _ => none

def isPlain (c : Char) : Bool :=
  c == '\t' || (32 ≤ c.toNat && c.toNat ≠ 127)

def singleQuote : Char := Char.ofNat 39

def hexValue? (c : Char) : Option Nat :=
  if '0' ≤ c ∧ c ≤ '9' then some (c.toNat - 48)
  else if 'a' ≤ c ∧ c ≤ 'f' then some (c.toNat - 87)
  else if 'A' ≤ c ∧ c ≤ 'F' then some (c.toNat - 55)
  else none

def readCode : Nat → Nat → List Char → Option (Char × List Char)
  | 0, code, cs => if code.isValidChar then some (Char.ofNat code, cs) else none
  | _ + 1, _, [] => none
  | count + 1, code, c :: cs =>
      match hexValue? c with
      | some d => readCode count (16 * code + d) cs
      | none => none

def readEscape : List Char → Option (Char × List Char)
  | [] => none
  | c :: cs =>
      if c = 'b' then some (Char.ofNat 8, cs)
      else if c = 't' then some ('\t', cs)
      else if c = 'n' then some ('\n', cs)
      else if c = 'f' then some (Char.ofNat 12, cs)
      else if c = 'r' then some ('\r', cs)
      else if c = 'e' then some (Char.ofNat 27, cs)
      else if c = '"' then some ('"', cs)
      else if c = '\\' then some ('\\', cs)
      else if c = 'x' then readCode 2 0 cs
      else if c = 'u' then readCode 4 0 cs
      else if c = 'U' then readCode 8 0 cs
      else none

def readBasic : Nat → List Char → Option (List Char × List Char)
  | 0, _ => none
  | _ + 1, [] => none
  | fuel + 1, c :: cs =>
      if c = '"' then some ([], cs)
      else if c = '\\' then
        match readEscape cs with
        | some (d, rest) => (readBasic fuel rest).map fun (t, r) => (d :: t, r)
        | none => none
      else if isPlain c then (readBasic fuel cs).map fun (t, r) => (c :: t, r)
      else none

def readLiteral : List Char → Option (List Char × List Char)
  | [] => none
  | c :: cs =>
      if c = singleQuote then some ([], cs)
      else if isPlain c then (readLiteral cs).map fun (t, r) => (c :: t, r)
      else none

def readSingle : List Char → Option (List Char × List Char)
  | [] => none
  | c :: cs =>
      if c = '"' then readBasic (cs.length + 1) cs
      else if c = singleQuote then readLiteral cs
      else none

def skipFolded : List Char → List Char
  | ' ' :: cs => skipFolded cs
  | '\t' :: cs => skipFolded cs
  | '\n' :: cs => skipFolded cs
  | '\r' :: '\n' :: cs => skipFolded cs
  | cs => cs

def readLines (quote : Char) : Nat → List Char → Option (List Char × List Char)
  | 0, _ => none
  | _ + 1, [] => none
  | fuel + 1, c :: cs =>
      let run := ((c :: cs).takeWhile (· == quote)).length
      if 3 ≤ run then
        if run ≤ 5 then some (List.replicate (run - 3) quote, (c :: cs).drop run) else none
      else if c = '\\' ∧ quote = '"' then
        if (newline? (skipBlanks cs)).isSome then readLines quote fuel (skipFolded cs)
        else
          match readEscape cs with
          | some (d, rest) => (readLines quote fuel rest).map fun (t, r) => (d :: t, r)
          | none => none
      else if isPlain c || (newline? (c :: cs)).isSome then
        (readLines quote fuel cs).map fun (t, r) => (c :: t, r)
      else none

def dropFirstBreak (cs : List Char) : List Char :=
  (newline? cs).getD cs

def readText : List Char → Option (List Char × List Char)
  | a :: b :: c :: cs =>
      if (a = '"' ∨ a = singleQuote) ∧ a = b ∧ a = c then
        readLines a (cs.length + 1) (dropFirstBreak cs)
      else readSingle (a :: b :: c :: cs)
  | cs => readSingle cs

def escapeChar (c : Char) : List Char :=
  if c = '"' then ['\\', '"'] else if c = '\\' then ['\\', '\\']
  else if isPlain c then [c]
  else ['\\', 'u', '0', '0', hexDigit (c.toNat / 16), hexDigit (c.toNat % 16)]
where
  hexDigit (n : Nat) : Char :=
    if n < 10 then Char.ofNat (48 + n) else Char.ofNat (55 + n)

def writeText (text : String) : List Char :=
  '"' :: text.toList.flatMap escapeChar ++ ['"']

end QueryCriteria.Config.Document
