namespace QueryCriteria.Json

def hexDigit (n : Nat) : Char :=
  if n < 10 then Char.ofNat (48 + n) else Char.ofNat (87 + n)

def escapeChar (c : Char) : List Char :=
  if c = '"' then ['\\', '"']
  else if c = '\\' then ['\\', '\\']
  else if c = '\n' then ['\\', 'n']
  else if c = '\r' then ['\\', 'r']
  else if c = '\t' then ['\\', 't']
  else if c.toNat = 8 then ['\\', 'b']
  else if c.toNat = 12 then ['\\', 'f']
  else if c.toNat < 32 then
    ['\\', 'u', '0', '0', hexDigit (c.toNat / 16), hexDigit (c.toNat % 16)]
  else [c]

def quote (s : String) : String :=
  String.ofList ('"' :: s.toList.flatMap escapeChar ++ ['"'])

def hexValue? (c : Char) : Option Nat :=
  if '0' ≤ c ∧ c ≤ '9' then some (c.toNat - 48)
  else if 'a' ≤ c ∧ c ≤ 'f' then some (c.toNat - 87)
  else if 'A' ≤ c ∧ c ≤ 'F' then some (c.toNat - 55)
  else none

def readHex4 : List Char → Option (Nat × List Char)
  | a :: b :: c :: d :: cs =>
      match hexValue? a, hexValue? b, hexValue? c, hexValue? d with
      | some a, some b, some c, some d => some (4096 * a + 256 * b + 16 * c + d, cs)
      | _, _, _, _ => none
  | _ => none

def shortEscape? : Char → Option Char
  | '"' => some '"'
  | '\\' => some '\\'
  | '/' => some '/'
  | 'b' => some (Char.ofNat 8)
  | 'f' => some (Char.ofNat 12)
  | 'n' => some '\n'
  | 'r' => some '\r'
  | 't' => some '\t'
  | _ => none

inductive TextUnit where
  | char (c : Char)
  | surrogate (n : Nat)
deriving DecidableEq, Repr

def isHighSurrogate (n : Nat) : Bool :=
  0xD800 ≤ n && n ≤ 0xDBFF

def isLowSurrogate (n : Nat) : Bool :=
  0xDC00 ≤ n && n ≤ 0xDFFF

def pairValue (high low : Nat) : Nat :=
  (high - 0xD800) * 0x400 + (low - 0xDC00) + 0x10000

def unitOfCode (n : Nat) : TextUnit :=
  if isHighSurrogate n || isLowSurrogate n then .surrogate n else .char (Char.ofNat n)

def readUnits : Nat → List Char → Option (List TextUnit × List Char)
  | 0, _ => none
  | _ + 1, [] => none
  | fuel + 1, c :: cs =>
      if c = '"' then some ([], cs)
      else if c = '\\' then
        match cs with
        | 'u' :: rest =>
            match readHex4 rest with
            | none => none
            | some (n, after) =>
                if isHighSurrogate n then
                  match after with
                  | '\\' :: 'u' :: more =>
                      match readHex4 more with
                      | none => none
                      | some (low, tail) =>
                          if isLowSurrogate low then
                            (readUnits fuel tail).map fun (us, r) =>
                              (.char (Char.ofNat (pairValue n low)) :: us, r)
                          else
                            (readUnits fuel after).map fun (us, r) => (.surrogate n :: us, r)
                  | _ => (readUnits fuel after).map fun (us, r) => (.surrogate n :: us, r)
                else (readUnits fuel after).map fun (us, r) => (unitOfCode n :: us, r)
        | e :: rest =>
            match shortEscape? e with
            | none => none
            | some d => (readUnits fuel rest).map fun (us, r) => (.char d :: us, r)
        | [] => none
      else (readUnits fuel cs).map fun (us, r) => (.char c :: us, r)

def charsOfUnits : List TextUnit → Option (List Char)
  | [] => some []
  | .char c :: us => (charsOfUnits us).map (c :: ·)
  | .surrogate _ :: _ => none

def noRawControls : List Char → Bool
  | [] => true
  | '"' :: _ => true
  | '\\' :: _ :: cs => noRawControls cs
  | c :: cs => 32 ≤ c.toNat && noRawControls cs

def readText : List Char → Option (String × List Char)
  | '"' :: cs =>
      if noRawControls cs then
        match readUnits (cs.length + 1) cs with
        | some (us, rest) => (charsOfUnits us).map fun t => (String.ofList t, rest)
        | none => none
      else none
  | _ => none

def utf8 (n : Nat) : List UInt8 :=
  if n < 0x80 then [n.toUInt8]
  else if n < 0x800 then [(0xC0 + n / 64).toUInt8, (0x80 + n % 64).toUInt8]
  else if n < 0x10000 then
    [(0xE0 + n / 4096).toUInt8, (0x80 + n / 64 % 64).toUInt8, (0x80 + n % 64).toUInt8]
  else
    [(0xF0 + n / 262144).toUInt8, (0x80 + n / 4096 % 64).toUInt8, (0x80 + n / 64 % 64).toUInt8,
      (0x80 + n % 64).toUInt8]

def TextUnit.bytes : TextUnit → List UInt8
  | .char c => utf8 c.toNat
  | .surrogate n => utf8 n

def readTextBytes : List Char → Option (List UInt8 × List Char)
  | '"' :: cs =>
      (readUnits (cs.length + 1) cs).map fun (us, rest) => (us.flatMap TextUnit.bytes, rest)
  | _ => none

end QueryCriteria.Json
