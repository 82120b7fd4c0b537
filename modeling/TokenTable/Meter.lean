import TokenTable.Number.Binary64.Printer
import TokenTable.Value.Numeric

/-! # Metrics of calls

A metric tells the service, the operation and whether the call succeeded. A log line adds the
seconds that the call took, to three places. Main statement: `logLine_of_malformed`, only seconds
that are no number are refused. -/

namespace TokenTable

/-- What is recorded of one call. -/
structure Metric where
  service : String
  operation : String
  ok : Bool
deriving DecidableEq, Repr

namespace Metric

/-- The line that logs a call with the seconds that it took. -/
def logLine (service operation seconds ok : Value) : Except Fault String := do
  let taken ← seconds.nearestBinary64
  return "DEBUG " ++ service.display ++ "." ++ operation.display ++ " took " ++
    taken.fixedText 3 ++ "s (ok=" ++ ok.display ++ ")"

theorem logLine_of_malformed (service operation seconds ok : Value) (fault : Fault)
    (malformed : seconds.nearestBinary64 = .error fault) :
    logLine service operation seconds ok = .error fault := by
  rw [logLine, malformed]
  rfl

end Metric

end TokenTable
