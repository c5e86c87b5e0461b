import HazardDispatch.Text.Pieces

/-!
# Files that a program reads

Why a file cannot be read, and what a folder of files answers.
-/

namespace HazardDispatch.CommandLine

/-- Why a file cannot be read: what the system says, and its number for that. -/
structure FileError where
  text : String
  code : Nat
deriving DecidableEq, Repr

namespace FileError

def message (e : FileError) : String := s!"{e.text} (os error {e.code})"

def noSuchFile : FileError := ⟨"No such file or directory", 2⟩

def notDirectory : FileError := ⟨"Not a directory", 20⟩

def isDirectory : FileError := ⟨"Is a directory", 21⟩

end FileError

/-- Files with their names and contents. -/
abbrev Folder := List (String × String)

namespace Folder

/-- The piece names nothing. -/
def isIdle (piece : List Char) : Bool := piece.isEmpty || piece == ['.']

/-- The names along a path. -/
def steps (path : String) : List (List Char) := (Text.pieces '/' path.toList).filter (!isIdle ·)

/-- The path can only mean a directory. -/
def endsIdle (path : String) : Bool := ((Text.pieces '/' path.toList).getLast?.map isIdle).getD false

def read (files : Folder) (path : String) : Except FileError String :=
  let p := steps path
  match files.find? fun f => steps f.1 == p with
  | some f => if endsIdle path then .error .notDirectory else .ok f.2
  | none =>
    if files.any (fun f => p.isPrefixOf (steps f.1)) || p.isEmpty then .error .isDirectory
    else if files.any fun f => (steps f.1).isPrefixOf p then .error .notDirectory
    else .error .noSuchFile

end Folder
end HazardDispatch.CommandLine
