import Subscriptions.Config.Basic
import Subscriptions.Files.Basic
import Subscriptions.Glob.Basic
import Subscriptions.Text.Trim

namespace Subscriptions

/-- Why there is no configuration. -/
inductive ConfigError
  | unreadable (e : ReadError)
  | yaml
  | json
  /-- A text that is no regular expression. -/
  | pattern (text : String)
  | glob (e : Glob.Error)
  | emptyVerb
  | tooDeep
  | unknownExtension (extension : String)
deriving Repr, DecidableEq, Inhabited

namespace ConfigError

/-- What is wrong with settings that are well written. -/
def invalidReason? : ConfigError → Option String
  | .emptyVerb => some "rules.no-subscribe.verb must not be empty"
  | .tooDeep => some "Maximum config inheritance depth exceeded"
  | .unknownExtension ext => some ("Unknown config file format: " ++ ext)
  | _ => none

def cause? : ConfigError → Option String
  | .unreadable e => some e.message
  | .glob e => some e.message
  | .pattern _ => some "regex parse error:"
  | _ => none

def message (e : ConfigError) : String :=
  let cause := e.cause?.getD ""
  match e with
  | .unreadable _ => "IO error: " ++ cause
  | .yaml => "YAML parse error"
  | .json => "JSON parse error"
  | .pattern text => "Invalid pattern '" ++ text ++ "': " ++ cause
  | .glob _ => "Invalid glob: " ++ cause
  | _ => "Invalid configuration: " ++ e.invalidReason?.getD ""

end ConfigError

def UntrackedSettings.rule (s : UntrackedSettings) (compiler : PatternCompiler := .standard) :
    Except ConfigError UntrackedRule :=
  if (Text.trim s.verb).isEmpty then .error .emptyVerb
  else
    match compiler.patterns s.typePatterns with
    | .error text => .error (.pattern text)
    | .ok patterns => .ok ⟨s.verb, s.trackedVerb, patterns, s.constructors⟩

end Subscriptions
