import Subscriptions.Config.Decode
import Subscriptions.Config.Error
import Subscriptions.Config.Merge
import Subscriptions.Json.Basic
import Subscriptions.Json.Reader
import Subscriptions.Path.Basic
import Subscriptions.Yaml.Reader

namespace Subscriptions

/-- The languages in which configurations are written. -/
structure Formats where
  yaml : Format
  json : Format

namespace Formats

def standard : Formats where
  yaml := ⟨Yaml, inferInstance, Yaml.ofText?⟩
  json := ⟨Json, inferInstance, Json.ofText?⟩

end Formats

namespace Config

def ofJson (text : String) (formats : Formats := .standard) : Except ConfigError Config :=
  match (formats.json.read? text).bind decode? with
  | some config => .ok config
  | none => .error .json

def ofYaml (text : String) (formats : Formats := .standard) : Except ConfigError Config :=
  match (formats.yaml.read? text).bind decode? with
  | some config => .ok config
  | none => .error .yaml

/-- The configuration in the text of a file, which its extension tells how to read. -/
def ofFile (formats : Formats) (path text : String) : Except ConfigError Config :=
  match Path.extension path with
  | "yaml" | "yml" => ofYaml text formats
  | "json" => ofJson text formats
  | ext => .error (.unknownExtension ext)

section
variable {m : Type → Type} [Monad m]

def readFile (formats : Formats) (files : FileSystem m) (path : String) :
    ExceptT ConfigError m Config := do
  match ← files.read path with
  | .ok text => liftExcept (ofFile formats path text)
  | .error e => throw (.unreadable e)
where
  liftExcept (r : Except ConfigError Config) : ExceptT ConfigError m Config := ExceptT.mk (pure r)

/-- Loads a file with its parents, which are merged in order before the file itself. Each file
that refers to another one takes a level. -/
def loadWithin (formats : Formats) (files : FileSystem m) :
    Nat → String → ExceptT ConfigError m Config
  | 0, _ => throw .tooDeep
  | levels + 1, path => do
    let config ← readFile formats files path
    if config.parents.isEmpty then return config
    else
      let base ← config.parents.foldlM (fun (base : Config) parent => do
        match preset? parent with
        | some preset => return base.merge preset
        | none =>
          return base.merge
            (← loadWithin formats files levels (Path.join (Path.directory path) parent))) {}
      return base.merge config

def maxLevels : Nat := 10

def load (files : FileSystem m) (path : String) (formats : Formats := .standard) :
    ExceptT ConfigError m Config :=
  loadWithin formats files maxLevels path

/-- Names of configuration files, in the order in which they are looked for. -/
def fileNames : List String := [
  ".subtrackrc.yaml", ".subtrackrc.yml", ".subtrackrc.json", "subtrack.yaml", "subtrack.json"]

def firstFile? (files : FileSystem m) (directory : String) : m (Option String) :=
  (fileNames.map (Path.join directory)).findM? files.present

def findFile? (files : FileSystem m) (directory : String) : m (Option String) := do
  match ← firstFile? files directory with
  | some path => return some path
  | none =>
    match ← files.home? with
    | some home => firstFile? files home
    | none => return none

/-- Loads the configuration file that is found from a directory, if there is one. -/
def loadFrom (files : FileSystem m) (directory : String) (formats : Formats := .standard) :
    ExceptT ConfigError m Config := do
  let found : Option String ← ExceptT.lift (findFile? files directory)
  match found with
  | some path => load files path formats
  | none => return {}

/-- The directory in which a configuration is looked for first. -/
def startDirectory : String := "."

end

end Config

end Subscriptions
