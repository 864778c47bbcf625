import QueryCriteria.Error
import QueryCriteria.Text.Identifier

namespace QueryCriteria

open QueryCriteria.Text

inductive PlaceholderStyle where
  | named
  | mybatis
  | dollar
deriving DecidableEq, Repr

inductive QualifyMode where
  | auto
  | always
  | never
deriving DecidableEq, Repr

structure Config where
  placeholder : PlaceholderStyle := .named
  parameterPrefix : String := "p"
  aliasPrefix : String := "t"
  qualify : QualifyMode := .auto
deriving DecidableEq, Repr

instance : Inhabited Config := ⟨{}⟩

def PlaceholderStyle.write (style : PlaceholderStyle) (name : String) (ordinal : Nat) : String :=
  match style with
  | .named => ":" ++ name
  | .mybatis => "#\x7b" ++ name ++ "\x7d"
  | .dollar => "$" ++ toString ordinal

def PlaceholderStyle.name : PlaceholderStyle → String
  | .named => "named"
  | .mybatis => "mybatis"
  | .dollar => "dollar"

def PlaceholderStyle.ofName? : String → Option PlaceholderStyle
  | "named" => some .named
  | "mybatis" => some .mybatis
  | "dollar" => some .dollar
  | _ => none

def QualifyMode.name : QualifyMode → String
  | .auto => "auto"
  | .always => "always"
  | .never => "never"

def QualifyMode.ofName? : String → Option QualifyMode
  | "auto" => some .auto
  | "always" => some .always
  | "never" => some .never
  | _ => none

theorem PlaceholderStyle.ofName?_name (s : PlaceholderStyle) : ofName? s.name = some s := by
  cases s <;> rfl

theorem QualifyMode.ofName?_name (q : QualifyMode) : ofName? q.name = some q := by
  cases q <;> rfl

inductive ConfigError where
  | parse (message : String)
  | invalidPrefix (field value : String)
deriving DecidableEq, Repr

def ConfigError.message : ConfigError → String
  | .parse message => "invalid compile config: " ++ message
  | .invalidPrefix field value =>
      "config field '" ++ field ++ "' is not a valid identifier prefix: '" ++ value ++ "'"

def ConfigError.label : ConfigError → String
  | .parse _ => "parse"
  | .invalidPrefix _ _ => "invalid_prefix"

def ConfigError.report (e : ConfigError) : ErrorReport :=
  .ofMessage .config .invalidInput e.message

namespace Config

def validate (c : Config) : Except ConfigError Unit :=
  if !isIdentifier c.parameterPrefix then
    .error (.invalidPrefix "parameter_prefix" c.parameterPrefix)
  else if !isIdentifier c.aliasPrefix then .error (.invalidPrefix "alias_prefix" c.aliasPrefix)
  else .ok ()

theorem validate_eq_ok_iff (c : Config) :
    c.validate = .ok () ↔ isIdentifier c.parameterPrefix ∧ isIdentifier c.aliasPrefix := by
  cases hp : isIdentifier c.parameterPrefix <;> cases ha : isIdentifier c.aliasPrefix <;>
    simp [validate, hp, ha]

end Config

end QueryCriteria
