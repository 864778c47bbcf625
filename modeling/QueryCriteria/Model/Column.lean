namespace QueryCriteria.Model

inductive Flag where
  | primary
  | unique
  | version
  | tenant
  | logicalDelete
deriving DecidableEq, Repr

def Flag.name : Flag → String
  | .primary => "primary"
  | .unique => "unique"
  | .version => "version"
  | .tenant => "tenant"
  | .logicalDelete => "logical_delete"

def Flag.ofName? (s : String) : Option Flag :=
  [Flag.primary, .unique, .version, .tenant, .logicalDelete].find? (·.name == s)

structure Flags where
  primary : Bool := false
  unique : Bool := false
  version : Bool := false
  tenant : Bool := false
  logicalDelete : Bool := false
deriving DecidableEq, Repr

def Flags.set (fs : Flags) : Flag → Flags
  | .primary => { fs with primary := true, unique := true }
  | .unique => { fs with unique := true }
  | .version => { fs with version := true }
  | .tenant => { fs with tenant := true }
  | .logicalDelete => { fs with logicalDelete := true }

def Flags.ofList (l : List Flag) : Flags :=
  l.foldl Flags.set {}

def Flags.has (fs : Flags) : Flag → Bool
  | .primary => fs.primary
  | .unique => fs.unique
  | .version => fs.version
  | .tenant => fs.tenant
  | .logicalDelete => fs.logicalDelete

def Flags.toList (fs : Flags) : List Flag :=
  [Flag.primary, .unique, .version, .tenant, .logicalDelete].filter fs.has

structure Column where
  name : String
  property : String
  flags : Flags := {}
deriving DecidableEq, Repr

end QueryCriteria.Model
