namespace QueryCriteria

inductive ErrorOrigin where
  | model
  | config
  | scope
  | criteria
  | compile
deriving DecidableEq, Repr

inductive ErrorClass where
  | notFound
  | conflict
  | invalidInput
  | internal
  | invariantViolation
deriving DecidableEq, Repr

inductive ErrorKind where
  | notFound
  | conflict
  | invalidInput
  | internal
deriving DecidableEq, Repr

def ErrorOrigin.label : ErrorOrigin → String
  | .model => "model"
  | .config => "config"
  | .scope => "scope"
  | .criteria => "criteria"
  | .compile => "compile"

def ErrorOrigin.name : ErrorOrigin → String
  | .model => "Model"
  | .config => "Config"
  | .scope => "Scope"
  | .criteria => "Criteria"
  | .compile => "Compile"

def ErrorClass.label : ErrorClass → String
  | .notFound => "not_found"
  | .conflict => "conflict"
  | .invalidInput => "invalid_input"
  | .internal => "internal"
  | .invariantViolation => "invariant_violation"

def ErrorOrigin.ofLabel? (s : String) : Option ErrorOrigin :=
  [ErrorOrigin.model, .config, .scope, .criteria, .compile].find? (·.label == s)

def ErrorClass.ofLabel? (s : String) : Option ErrorClass :=
  [ErrorClass.notFound, .conflict, .invalidInput, .internal, .invariantViolation].find?
    (·.label == s)

def ErrorKind.name : ErrorKind → String
  | .notFound => "NotFound"
  | .conflict => "Conflict"
  | .invalidInput => "InvalidInput"
  | .internal => "Internal"

def ErrorClass.kind : ErrorClass → ErrorKind
  | .notFound => .notFound
  | .conflict => .conflict
  | .invalidInput => .invalidInput
  | .internal => .internal
  | .invariantViolation => .internal

structure ErrorReport where
  origin : ErrorOrigin
  fault : ErrorClass
  message : String
  detail : Option String
deriving DecidableEq, Repr

namespace ErrorReport

def kind (r : ErrorReport) : ErrorKind :=
  r.fault.kind

def classified (r : ErrorReport) : String :=
  r.origin.label ++ ":" ++ r.fault.label ++ ": " ++ r.message

def ofMessage (origin : ErrorOrigin) (fault : ErrorClass) (message : String) : ErrorReport :=
  ⟨origin, fault, message, some message⟩

end ErrorReport

end QueryCriteria
