namespace QueryCriteria.Config.Document

inductive Opening where
  | inline
  | header
  | implied
  | dotted
deriving DecidableEq, Repr

inductive Item where
  | text (text : String)
  | array (items : List Item)
  | table (opening : Opening) (entries : List (String × Item))
deriving Repr

def Item.text? : Item → Option String
  | .text s => some s
  | _ => none

def Item.choice? : Item → Option String
  | .text s => some s
  | .table _ [(name, .array [])] => some name
  | .table _ [(name, .table _ [])] => some name
  | _ => none

def replace (key : String) (item : Item) (entries : List (String × Item)) : List (String × Item) :=
  entries.map fun (k, i) => if k = key then (k, item) else (k, i)

def Opening.passes (found way : Opening) : Bool :=
  match way with
  | .dotted => found == .dotted
  | _ => found != .inline

def along (way : Opening) (place : String → List (String × Item) → Option (List (String × Item))) :
    List String → List (String × Item) → Option (List (String × Item))
  | [], _ => none
  | [key], entries => place key entries
  | key :: path, entries =>
      match entries.lookup key with
      | none => (along way place path []).map fun below => entries ++ [(key, .table way below)]
      | some (.table found below) =>
          if found.passes way then
            (along way place path below).map fun below =>
              replace key (.table found below) entries
          else none
      | some _ => none

def define (path : List String) (item : Item) (entries : List (String × Item)) :
    Option (List (String × Item)) :=
  along .dotted
    (fun key entries =>
      if (entries.lookup key).isNone then some (entries ++ [(key, item)]) else none)
    path entries

structure Section where
  path : List String
  lines : List (List String × Item)
deriving Repr

def defineAll (lines : List (List String × Item)) (entries : List (String × Item)) :
    Option (List (String × Item)) :=
  lines.foldlM (fun entries line => define line.1 line.2 entries) entries

def Section.addTo (s : Section) (entries : List (String × Item)) : Option (List (String × Item)) :=
  along .implied
    (fun key entries =>
      match entries.lookup key with
      | none => (defineAll s.lines []).map fun below => entries ++ [(key, .table .header below)]
      | some (.table .implied below) =>
          (defineAll s.lines below).map fun below =>
            replace key (.table .header below) entries
      | some _ => none)
    s.path entries

inductive Line where
  | header (path : List String)
  | entry (path : List String) (item : Item)
deriving Repr

def sections : List Line → List (List String × Item) × List Section
  | [] => ([], [])
  | .entry path item :: lines => ((path, item) :: (sections lines).1, (sections lines).2)
  | .header path :: lines => ([], ⟨path, (sections lines).1⟩ :: (sections lines).2)

def ofLines? (lines : List Line) : Option (List (String × Item)) := do
  let entries ← defineAll (sections lines).1 []
  (sections lines).2.foldlM (fun entries s => s.addTo entries) entries

end QueryCriteria.Config.Document
