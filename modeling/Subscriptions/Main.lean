import Subscriptions.Command.Run

namespace Subscriptions.Command

def readError : IO.Error → ReadError
  | .noFileOrDirectory .. => .missing
  | .inappropriateType _ _ details =>
    if details == "not a directory" then .notDirectory else .isDirectory
  | .permissionDenied .. => .other "Permission denied (os error 13)"
  | e => .other (toString e)

def systemRead (path : String) : IO (Except ReadError String) := do
  if path.isEmpty then return .error .missing
  try
    let bytes ← IO.FS.readBinFile path
    match String.fromUTF8? bytes with
    | some text => return .ok text
    | none => return .error .notText
  catch e => return .error (readError e)

/-- What stands in a directory and below it. Links are not followed. -/
partial def systemListing (path : String) : IO (List (String × Listing)) := do
  try
    let entries ← ((← IO.currentDir) / path).readDir
    entries.toList.mapM fun e => do
      let listing ← try
          match (← e.path.symlinkMetadata).type with
          | .dir => pure (Listing.directory (← systemListing e.path.toString))
          | .file => pure Listing.file
          | _ => pure Listing.other
        catch _ => pure Listing.other
      return (e.fileName, listing)
  catch _ => return []

def systemIsDirectory (path : String) : IO Bool := do
  if path.isEmpty then return false
  else ((← IO.currentDir) / path).isDir

/-- Directories are nested less deep than the longest path has characters. -/
def systemDepth : Nat := 4096

def systemFiles : FileSystem IO where
  read := systemRead
  present path := do
    if path.isEmpty then return false
    else ((← IO.currentDir) / path).pathExists
  isDirectory := systemIsDirectory
  names path := do
    try return (← ((← IO.currentDir) / path).readDir).toList.map (·.fileName)
    catch _ => return []
  below? path := do
    if ← systemIsDirectory path then return some (← systemListing path) else return none
  home? := do
    return (← IO.getEnv "HOME").filter fun home => !home.isEmpty
  depth := systemDepth

/-- A variable that is set to anything but zero. -/
def isSet (name : String) : IO (Option Bool) := do
  return (← IO.getEnv name).map (· != "0")

/-- Texts are coloured on terminals. Variables that force or forbid colours come first. -/
def systemColored : IO Bool := do
  if (← isSet "CLICOLOR_FORCE") == some true then return true
  else if (← isSet "NO_COLOR").isSome then return false
  else if (← isSet "CLICOLOR") == some false then return false
  else (← IO.getStdout).isTty

end Subscriptions.Command

open Subscriptions.Command in
def main (words : List String) : IO UInt32 := do
  let outcome ← match Options.ofWords words with
    | .error e => pure (Outcome.failed false e.message)
    | .ok options =>
      run ⟨systemFiles, IO.monoNanosNow, ← systemColored⟩ options
  IO.eprint outcome.err
  IO.print outcome.out
  return outcome.code.toUInt32
