import QueryCriteria.Config
import QueryCriteria.Config.Document

namespace QueryCriteria.Config

def setField (c : Config) (entry : String × String) : Option Config :=
  if entry.1 = "placeholder" then
    (PlaceholderStyle.ofName? entry.2).map fun s => { c with placeholder := s }
  else if entry.1 = "parameter_prefix" then some { c with parameterPrefix := entry.2 }
  else if entry.1 = "alias_prefix" then some { c with aliasPrefix := entry.2 }
  else if entry.1 = "qualify" then
    (QualifyMode.ofName? entry.2).map fun q => { c with qualify := q }
  else none

def ofEntries? (entries : List (String × String)) : Option Config :=
  entries.foldlM setField {}

def fieldText? (key : String) (item : Document.Item) : Option String :=
  if key = "placeholder" ∨ key = "qualify" then item.choice? else item.text?

def ofItems? (items : List (String × Document.Item)) : Option Config := do
  ofEntries? (← items.mapM fun (key, item) => (fieldText? key item).map (key, ·))

def ofDocument (s : String) : Except ConfigError Config :=
  match (Document.read? s).bind ofItems? with
  | none => .error (.parse "not a document of known fields")
  | some c =>
      match c.validate with
      | .error e => .error e
      | .ok () => .ok c

def toEntries (c : Config) : List (String × String) :=
  [("placeholder", c.placeholder.name), ("parameter_prefix", c.parameterPrefix),
    ("alias_prefix", c.aliasPrefix), ("qualify", c.qualify.name)]

def toDocument (c : Config) : String :=
  Document.write c.toEntries

theorem ofEntries?_toEntries (c : Config) : ofEntries? c.toEntries = some c := by
  simp [ofEntries?, toEntries, setField, PlaceholderStyle.ofName?_name, QualifyMode.ofName?_name]

theorem validate_of_ofDocument {s : String} {c : Config} (h : ofDocument s = .ok c) :
    c.validate = .ok () := by
  simp only [ofDocument] at h
  split at h
  · cases h
  · split at h
    · cases h
    · rename_i hv
      cases h
      exact hv

end QueryCriteria.Config
