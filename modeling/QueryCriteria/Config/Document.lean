import QueryCriteria.Config.Document.Item
import QueryCriteria.Config.Document.Quoted

namespace QueryCriteria.Config.Document

def isKeyChar (c : Char) : Bool :=
  c.isAlphanum || c == '_' || c == '-'

def readKey (cs : List Char) : Option (String × List Char) :=
  let bare := cs.takeWhile isKeyChar
  if bare.isEmpty then (readSingle cs).map fun (key, rest) => (String.ofList key, rest)
  else some (String.ofList bare, cs.dropWhile isKeyChar)

def readPath : Nat → List Char → Option (List String × List Char)
  | 0, _ => none
  | fuel + 1, cs =>
      match readKey cs with
      | none => none
      | some (key, rest) =>
          match skipBlanks rest with
          | '.' :: rest => (readPath fuel (skipBlanks rest)).map fun (path, r) => (key :: path, r)
          | rest => some ([key], rest)

def skipSpace : Bool → List Char → List Char
  | _, [] => []
  | comment, c :: cs =>
      if comment && isPlain c then skipSpace true cs
      else if c = ' ' ∨ c = '\t' ∨ (newline? (c :: cs)).isSome then skipSpace false cs
      else if c = '#' then skipSpace true cs
      else c :: cs

mutual

def readItem : Nat → List Char → Option (Item × List Char)
  | 0, _ => none
  | fuel + 1, '[' :: cs =>
      (readElements fuel (skipSpace false cs)).map fun (items, rest) => (.array items, rest)
  | fuel + 1, '{' :: cs =>
      (readPairs fuel [] (skipSpace false cs)).map fun (entries, rest) =>
        (.table .inline entries, rest)
  | _ + 1, cs => (readText cs).map fun (text, rest) => (.text (String.ofList text), rest)

def readElements : Nat → List Char → Option (List Item × List Char)
  | 0, _ => none
  | _ + 1, ']' :: cs => some ([], cs)
  | fuel + 1, cs =>
      match readItem fuel cs with
      | none => none
      | some (item, rest) =>
          match skipSpace false rest with
          | ',' :: rest =>
              (readElements fuel (skipSpace false rest)).map fun (items, r) => (item :: items, r)
          | ']' :: rest => some ([item], rest)
          | _ => none

def readPairs : Nat → List (String × Item) → List Char →
    Option (List (String × Item) × List Char)
  | 0, _, _ => none
  | _ + 1, entries, '}' :: cs => some (entries, cs)
  | fuel + 1, entries, cs =>
      match readPath (cs.length + 1) cs with
      | none => none
      | some (path, rest) =>
          match skipSpace false rest with
          | '=' :: rest =>
              match readItem fuel (skipSpace false rest) with
              | none => none
              | some (item, rest) =>
                  match define path item entries, skipSpace false rest with
                  | some entries, ',' :: rest => readPairs fuel entries (skipSpace false rest)
                  | some entries, '}' :: rest => some (entries, rest)
                  | _, _ => none
          | _ => none

end

def endLine (cs : List Char) : Option (List Char) :=
  let cs := skipBlanks cs
  let cs :=
    match cs with
    | '#' :: rest => rest.dropWhile isPlain
    | cs => cs
  match cs with
  | [] => some []
  | cs => newline? cs

def readLine : List Char → Option (Line × List Char)
  | '[' :: cs =>
      match readPath (cs.length + 1) (skipBlanks cs) with
      | some (path, ']' :: rest) => some (.header path, rest)
      | _ => none
  | cs =>
      match readPath (cs.length + 1) cs with
      | some (path, '=' :: rest) =>
          (readItem (rest.length + 1) (skipBlanks rest)).map fun (item, r) => (.entry path item, r)
      | _ => none

def readDocument : Nat → List Char → Option (List Line)
  | 0, _ => none
  | fuel + 1, cs =>
      match skipBlanks cs with
      | [] => some []
      | c :: rest =>
          match endLine (c :: rest) with
          | some after => readDocument fuel after
          | none =>
              match readLine (c :: rest) with
              | none => none
              | some (line, after) =>
                  match endLine after with
                  | some next => (readDocument fuel next).map (line :: ·)
                  | none => none

def dropMark : List Char → List Char
  | c :: cs => if c.toNat = 0xFEFF then cs else c :: cs
  | [] => []

def read? (s : String) : Option (List (String × Item)) :=
  let cs := dropMark s.toList
  (readDocument (cs.length + 1) cs).bind ofLines?

def entryChars (key text : String) : List Char :=
  key.toList ++ ' ' :: '=' :: ' ' :: writeText text ++ ['\n']

def write (entries : List (String × String)) : String :=
  String.ofList (entries.flatMap fun (key, text) => entryChars key text)

end QueryCriteria.Config.Document
