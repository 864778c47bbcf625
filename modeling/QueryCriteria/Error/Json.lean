import QueryCriteria.Error
import QueryCriteria.Json.Text

namespace QueryCriteria.ErrorReport

open QueryCriteria.Json

def json (r : ErrorReport) : String :=
  "\x7b\"kind\":" ++ quote r.kind.name ++ ",\"origin\":" ++ quote r.origin.name ++
    ",\"message\":" ++ quote r.message ++ "\x7d"

end QueryCriteria.ErrorReport
