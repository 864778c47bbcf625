import QueryCriteria.Scope.Basic
import QueryCriteria.Text.Inspect

namespace QueryCriteria

open QueryCriteria.Text

def describeRecord (name : String) (fields : List (String × String)) (whole : Bool) : String :=
  let shown := fields.map fun (field, value) => field ++ ": " ++ value
  let shown := if whole then shown else shown ++ [".."]
  name ++ " \x7b " ++ ", ".intercalate shown ++ " \x7d"

def PlaceholderStyle.describe : PlaceholderStyle → String
  | .named => "Named"
  | .mybatis => "MyBatis"
  | .dollar => "Dollar"

def QualifyMode.describe : QualifyMode → String
  | .auto => "Auto"
  | .always => "Always"
  | .never => "Never"

def Config.describe (c : Config) : String :=
  describeRecord "CompileConfig"
    [("placeholder", c.placeholder.describe), ("parameter_prefix", inspect c.parameterPrefix),
      ("alias_prefix", inspect c.aliasPrefix), ("qualify", c.qualify.describe)] true

def NumberedNames.describe (ns : NumberedNames) (name : String) : String :=
  describeRecord name [("prefix", inspect ns.stem), ("issued", toString ns.issued.toNat)] true

def Scope.describe (s : Scope) : String :=
  describeRecord "CompilationScope"
    [("config", s.config.describe), ("parameters", s.parameters.describe "ParameterSequence"),
      ("aliases", s.aliases.describe "AliasSequence"), ("criteria", toString s.size),
      ("frozen", if s.frozen then "true" else "false")] false

end QueryCriteria
