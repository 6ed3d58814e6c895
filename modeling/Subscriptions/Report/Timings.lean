import Subscriptions.Report.Text

namespace Subscriptions

open Text

def timingRow (ruleId total average evaluations matchCount : String) : String :=
  padRight 24 ruleId ++ " " ++ padLeft 12 total ++ " " ++ padLeft 12 average ++ " " ++
    padLeft 8 evaluations ++ " " ++ padLeft 10 matchCount ++ "\n"

namespace RuleTiming

def row? (t : RuleTiming) : Option String :=
  t.average?.map fun average =>
    timingRow t.ruleId (padLeft 10 t.total.millisText ++ "ms")
      (padLeft 10 average.microsText ++ "µs") (toString t.evaluations) (toString t.matchCount)

end RuleTiming

namespace Report

def sortedTimings (r : Report) : List RuleTiming :=
  r.timings.mergeSort fun a b => b.total.nanos ≤ a.total.nanos

def timingsTable? (r : Report) : Option String :=
  if r.timings.isEmpty then some "No timing data available"
  else
    (r.sortedTimings.mapM RuleTiming.row?).map fun rows =>
      "Rule Timing Statistics:\n" ++ timingRow "Rule ID" "Total" "Avg" "Files" "Matches" ++
        String.ofList (List.replicate 70 '-') ++ "\n" ++ String.join rows

end Report

end Subscriptions
