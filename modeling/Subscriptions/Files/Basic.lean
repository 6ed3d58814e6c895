namespace Subscriptions

/-- Why a file cannot be read. -/
inductive ReadError
  | missing
  | notDirectory
  | isDirectory
  | notText
  | other (message : String)
deriving Repr, DecidableEq, Inhabited

def ReadError.message : ReadError → String
  | .missing => "No such file or directory (os error 2)"
  | .notDirectory => "Not a directory (os error 20)"
  | .isDirectory => "Is a directory (os error 21)"
  | .notText => "stream did not contain valid UTF-8"
  | .other message => message

/-- What stands below a directory, without the texts of the files. -/
inductive Listing
  | file
  | directory (entries : List (String × Listing))
  /-- Neither a file nor a directory. -/
  | other
deriving Repr, Inhabited

/-- Where files come from. -/
structure FileSystem (m : Type → Type) where
  read : String → m (Except ReadError String)
  present : String → m Bool
  isDirectory : String → m Bool
  /-- The names in a directory. -/
  names : String → m (List String)
  /-- What stands below a directory. -/
  below? : String → m (Option (List (String × Listing)))
  /-- The directory of the user. -/
  home? : m (Option String)
  /-- Directories are nested less deep than this. -/
  depth : Nat

end Subscriptions
