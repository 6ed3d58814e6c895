import Subscriptions.Config.Merge
import Subscriptions.Text.Digits

namespace Subscriptions.Command

/-- An option that is given or not. -/
inductive Switch
  | noColor
  | verbose
  | listRules
  | timing
  | exitZero
deriving Repr, DecidableEq, Inhabited

/-- An option with a value. -/
inductive Setting
  | config
  | format
  | verb
  | pattern
  | constructor
  | jobs
  | context
  | explain
deriving Repr, DecidableEq, Inhabited

inductive OptionName
  | switch (s : Switch)
  | setting (s : Setting)
deriving Repr, DecidableEq, Inhabited

namespace OptionName

def longNames : List (String × OptionName) := [
  ("config", .setting .config), ("format", .setting .format), ("verb", .setting .verb),
  ("pattern", .setting .pattern), ("constructor", .setting .constructor),
  ("jobs", .setting .jobs), ("no-color", .switch .noColor), ("verbose", .switch .verbose),
  ("context", .setting .context), ("list-rules", .switch .listRules),
  ("explain", .setting .explain), ("timing", .switch .timing), ("exit-zero", .switch .exitZero)]

def shortNames : List (Char × OptionName) := [
  ('c', .setting .config), ('f', .setting .format), ('j', .setting .jobs), ('v', .switch .verbose)]

def long (name : OptionName) : String :=
  match longNames.find? fun e => e.2 == name with
  | some e => "--" ++ e.1
  | none => ""

end OptionName

/-- What is wrong with a command line. -/
inductive UsageError
  | unknown (option : String)
  | repeated (name : OptionName)
  | missingValue (s : Setting)
  | needlessValue (s : Switch)
  | badValue (s : Setting) (value : String)
deriving Repr, DecidableEq, Inhabited

namespace UsageError

def message : UsageError → String
  | .unknown option => "unknown option '" ++ option ++ "'"
  | .repeated name => "option '" ++ name.long ++ "' is given more than once"
  | .missingValue s => "option '" ++ (OptionName.setting s).long ++ "' needs a value"
  | .needlessValue s => "option '" ++ (OptionName.switch s).long ++ "' takes no value"
  | .badValue s value =>
    "invalid value '" ++ value ++ "' for option '" ++ (OptionName.setting s).long ++ "'"

end UsageError

/-- What a command line asks for. -/
structure Options where
  /-- Files, directories and patterns to look at. -/
  inputs : List String := []
  /-- The configuration file. -/
  config : Option String := none
  overrides : Overrides := {}
  listRules : Bool := false
  /-- The rule to explain. -/
  explained : Option String := none
  timing : Bool := false
  exitZero : Bool := false
deriving Repr, DecidableEq, Inhabited

/-- A number of 64 bits, with or without a plus sign. -/
def count? (text : String) : Option Nat :=
  let digits := match text.toList with
    | '+' :: cs => cs
    | cs => cs
  (Text.number? 10 digits).filter (· < countLimit)

/-- The name in front of the first equals sign and the value behind it. -/
def splitValue (cs : List Char) : String × Option String :=
  let name := String.ofList (cs.takeWhile (· != '='))
  match cs.dropWhile (· != '=') with
  | [] => (name, none)
  | _ :: value => (name, some (String.ofList value))

/-- A hyphen with something behind it. A hyphen alone is an input. -/
def isOption (word : String) : Bool := word.startsWith "-" && word != "-"

namespace Options

def isOn (o : Options) : Switch → Bool
  | .noColor => o.overrides.noColor
  | .verbose => o.overrides.verbose.isSome
  | .listRules => o.listRules
  | .timing => o.timing
  | .exitZero => o.exitZero

def turnOn (o : Options) : Switch → Options
  | .noColor => { o with overrides := { o.overrides with noColor := true } }
  | .verbose => { o with overrides := { o.overrides with verbose := some true } }
  | .listRules => { o with listRules := true }
  | .timing => { o with timing := true }
  | .exitZero => { o with exitZero := true }

/-- No other value can be given. Patterns and constructors add up. -/
def isSettled (o : Options) : Setting → Bool
  | .config => o.config.isSome
  | .format => o.overrides.format.isSome
  | .verb => o.overrides.verb.isSome
  | .pattern | .constructor => false
  | .jobs => o.overrides.jobs.isSome
  | .context => o.overrides.context.isSome
  | .explain => o.explained.isSome

def put? (o : Options) (s : Setting) (value : String) : Option Options :=
  let v := o.overrides
  match s with
  | .config => if value.isEmpty then none else some { o with config := some value }
  | .format => (OutputFormat.ofName? value).map fun f =>
      { o with overrides := { v with format := some f } }
  | .verb => some { o with overrides := { v with verb := some value } }
  | .pattern => some { o with overrides := { v with patterns := v.patterns ++ [value] } }
  | .constructor =>
    some { o with overrides := { v with constructors := v.constructors ++ [value] } }
  | .jobs => (count? value).map fun n => { o with overrides := { v with jobs := some n } }
  | .context => (count? value).map fun n => { o with overrides := { v with context := some n } }
  | .explain => some { o with explained := some value }

def switch (o : Options) (s : Switch) : Except UsageError Options :=
  if o.isOn s then .error (.repeated (.switch s)) else .ok (o.turnOn s)

def set (o : Options) (s : Setting) (value : String) : Except UsageError Options :=
  match o.put? s value with
  | none => .error (.badValue s value)
  | some settled => if o.isSettled s then .error (.repeated (.setting s)) else .ok settled

def addInputs (o : Options) (words : List String) : Options :=
  { o with inputs := o.inputs ++ words }

/-- Takes on letters behind one hyphen. The letter of a setting takes the rest of them as its
value, with an equals sign in front or not; without a rest the setting waits for the next word. -/
def readLetters (o : Options) : List Char → Except UsageError (Options × Option Setting)
  | [] => return (o, none)
  | c :: cs => do
    match OptionName.shortNames.lookup c with
    | none => throw (.unknown (String.ofList ['-', c]))
    | some (.switch s) => readLetters (← o.switch s) cs
    | some (.setting s) =>
      match cs with
      | [] => return (o, some s)
      | '=' :: value => return (← o.set s (String.ofList value), none)
      | value => return (← o.set s (String.ofList value), none)

/-- Takes on a name behind two hyphens, with its value or waiting for it. -/
def readLong (o : Options) (cs : List Char) : Except UsageError (Options × Option Setting) := do
  let (name, value) := splitValue cs
  match OptionName.longNames.lookup name, value with
  | none, _ => throw (.unknown ("--" ++ name))
  | some (.switch s), none => return (← o.switch s, none)
  | some (.switch s), some _ => throw (.needlessValue s)
  | some (.setting s), none => return (o, some s)
  | some (.setting s), some value => return (← o.set s value, none)

/-- Takes on a word that no setting waits for. -/
def readWord (o : Options) (word : String) : Except UsageError (Options × Option Setting) :=
  match word.toList with
  | '-' :: '-' :: cs => o.readLong cs
  | '-' :: c :: cs => o.readLetters (c :: cs)
  | _ => return (o.addInputs [word], none)

/-- Takes on words, of which the first one is the value of a setting that waits for it. Behind
two hyphens alone there are only inputs. -/
def readWords (o : Options) (waiting : Option Setting) : List String → Except UsageError Options
  | [] =>
    match waiting with
    | none => return o
    | some s => throw (.missingValue s)
  | word :: words => do
    match waiting with
    | some s =>
      if isOption word then throw (.missingValue s)
      else readWords (← o.set s word) none words
    | none =>
      if word == "--" then return o.addInputs words
      else
        let (o, waiting) ← o.readWord word
        readWords o waiting words

def ofWords (words : List String) : Except UsageError Options := readWords {} none words

end Options

theorem OptionName.long_ne_empty (name : OptionName) : name.long ≠ "" := by
  rcases name with s | s <;> cases s <;> decide

end Subscriptions.Command
