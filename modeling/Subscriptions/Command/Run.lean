import Subscriptions.Command.Explain
import Subscriptions.Command.Options
import Subscriptions.Config.Error
import Subscriptions.Config.Load
import Subscriptions.Files.Collect
import Subscriptions.Files.Expand
import Subscriptions.Linter
import Subscriptions.Path.Wildcard
import Subscriptions.Report.Paint
import Subscriptions.Report.Timings
import Subscriptions.Report.Writer

namespace Subscriptions.Command

/-- Why nothing is reported. -/
inductive Failure
  /-- The configuration cannot be loaded, from a file if one is named. -/
  | config (path : Option String) (e : ConfigError)
  | invalid (e : ConfigError)
  | unknownRule (id : String)
  | pattern (text : String) (fault : Path.Wildcard.Fault)
  | noFiles
deriving Repr, DecidableEq, Inhabited

namespace Failure

/-- An error with its cause behind it. The cause of a bad type pattern is told in lines that
follow, and all the others on the line of the error. -/
def withCause (e : ConfigError) : String :=
  match e, e.cause? with
  | .pattern _, _ | _, none => e.message
  | _, some cause => e.message ++ ": " ++ cause

def message : Failure → String
  | .config (some path) e => "Failed to load config " ++ path ++ ": " ++ withCause e
  | .config none e => "Failed to load config: " ++ withCause e
  | .invalid e => "Invalid configuration: " ++ withCause e
  | .unknownRule id => "Unknown rule '" ++ id ++ "'"
  | .pattern text fault => "Invalid pattern '" ++ text ++ "': " ++ fault.message
  | .noFiles => "No files found to lint"

end Failure

/-- A message that tells why nothing is done. -/
def errorText (colored : Bool) (message : String) : String :=
  paint colored .error "error" ++ ": " ++ message ++ "\n"

/-- Where a command runs. -/
structure Environment (m : Type → Type) where
  files : FileSystem m
  /-- Nanoseconds since some moment. -/
  clock : m Nat
  /-- Whether texts are coloured unless they are told to be or not to be. -/
  colored : Bool

/-- What a command leaves behind. -/
structure Outcome where
  code : Nat
  out : String := ""
  err : String := ""
deriving Repr, DecidableEq, Inhabited

namespace Outcome

def failureCode : Nat := 2

/-- The code of a command that has stopped in the middle of a report. -/
def brokenCode : Nat := 101

def failed (colored : Bool) (message : String) : Outcome :=
  { code := failureCode, err := errorText colored message }

def printed (text : String) : Outcome := { code := 0, out := text }

end Outcome

def isColored (auto : Bool) : ColorMode → Bool
  | .auto => auto
  | .always => true
  | .never => false

section
variable {m : Type → Type} [Monad m] (env : Environment m)

def load (path : Option String) : m (Except ConfigError Config) :=
  match path with
  | some path => (Config.load env.files path).run
  | none => (Config.loadFrom env.files Config.startDirectory).run

/-- The paths that an input stands for: itself if it exists, or what it matches as a pattern. -/
def expandInput (input : String) : ExceptT Failure m (List String) := do
  if ← env.files.present input then return [input]
  else
    match ← (expand env.files input : m _) with
    | .ok paths => return paths
    | .error fault => throw (.pattern input fault)

/-- The paths of all inputs. Without inputs it is the current directory. -/
def expandInputs (inputs : List String) : ExceptT Failure m (List String) := do
  if inputs.isEmpty then return ["."]
  else return (← inputs.mapM (expandInput env)).flatten

/-- The report of a file. Its time is that of the rules that have looked at it. -/
def lintFile (linter : Linter) (path : String) : m (Option Report) := do
  let text ← env.files.read path
  let start ← env.clock
  match linter.lintFile path text with
  | none => return none
  | some report =>
    let stop ← env.clock
    let timings := report.timings.map fun t => { t with total := ⟨stop - start⟩ }
    return some { report with timings := timings }

def lintOnto (linter : Linter) (report : Report) : List String → m (Option Report)
  | [] => return some report
  | path :: paths => do
    match ← lintFile env linter path with
    | none => return none
    | some next => lintOnto linter (report.merge next) paths

def lintFiles (linter : Linter) (paths : List String) : m (Option Report) := do
  let start ← env.clock
  match ← lintOnto env linter {} paths with
  | none => return none
  | some report =>
    let stop ← env.clock
    return some { report with duration := ⟨stop - start⟩ }

/-- What is left behind when files have been looked at. -/
def outcomeOf (options : Options) (output : OutputSettings) (colored : Bool) (count : Nat)
    (report : Option Report) : Outcome :=
  let progress := if output.verbose then "Linting " ++ toString count ++ " files...\n" else ""
  let broken : Outcome := { code := Outcome.brokenCode, err := progress }
  match report with
  | none => broken
  | some report =>
    let out := (Writer.ofFormat output.format colored).report report
    let code := if options.exitZero then 0 else report.exitCode
    if options.timing then
      match report.timingsTable? with
      | none => { broken with out := out }
      | some table => ⟨code, out, progress ++ "\n" ++ table ++ "\n"⟩
    else ⟨code, out, progress⟩

def perform (options : Options) (config : Config) (colored : Bool) :
    ExceptT Failure m Outcome := do
  match Linter.ofConfig config with
  | .error e => throw (.invalid e)
  | .ok linter =>
    if options.listRules then return .printed (ruleList colored linter.rules)
    match options.explained with
    | some id =>
      match linter.rules.find? fun info => info.id == id with
      | some info => return .printed (explanation colored info)
      | none => throw (.unknownRule id)
    | none =>
      let paths ← expandInputs env options.inputs
      let files ← (collectFiles env.files linter.filter paths : m _)
      if files.isEmpty then throw .noFiles
      let report ← (lintFiles env linter files : m _)
      return outcomeOf options config.output colored files.length report

/-- Runs a command. Its settings take the place of those of the configuration. -/
def run (options : Options) : m Outcome := do
  match ← load env options.config with
  | .error e => return .failed env.colored (Failure.config options.config e).message
  | .ok config =>
    let config := config.override options.overrides
    let colored := isColored env.colored config.output.color
    match ← (perform env options config colored).run with
    | .ok outcome => return outcome
    | .error failure => return .failed colored failure.message

end

end Subscriptions.Command
