import Subscriptions.Config.Basic
import Subscriptions.Report.Json
import Subscriptions.Report.Text

namespace Subscriptions

/-- A way to write reports. -/
inductive Writer
  | text (style : TextStyle)
  | json (style : JsonStyle)
  | compact (style : CompactStyle)
deriving Repr, DecidableEq, Inhabited

namespace Writer

def ofFormat (format : OutputFormat) (colored : Bool) : Writer :=
  match format with
  | .text => .text { colored := colored }
  | .json => .json { pretty := true }
  | .compact => .compact {}

def diagnostic : Writer → Diagnostic → String
  | .text style, d => style.diagnostic d
  | .json style, d => style.diagnostic d
  | .compact style, d => style.diagnostic d

def report : Writer → Report → String
  | .text style, r => style.report r
  | .json style, r => style.report r
  | .compact style, r => style.report r

end Writer

end Subscriptions
