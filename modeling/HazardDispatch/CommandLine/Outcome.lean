import HazardDispatch.CommandLine.Files
import HazardDispatch.CommandLine.Settings
import HazardDispatch.Json.Decode
import HazardDispatch.LogLine
import HazardDispatch.Text.Printable

/-!
# How a program ends

What a program logs and how it ends. The status that it leaves is 0 if it did its work or was asked
for help, 1 if it failed, 2 if it was called wrongly, and 101 if a number left its range.
-/

namespace HazardDispatch.CommandLine

inductive Failure where
  | unreadableSources (path : String) (e : FileError)
  | badSources (e : DecodeError)
  | noWorkers

def Failure.message : Failure → String
  | unreadableSources path e => s!"Failed to read source groups from '{path}': {e.message}"
  | badSources e => e.message?.getD "malformed source groups"
  | noWorkers => "no workers registered"

inductive Ending where
  | done
  | failed (why : Failure)
  | stopped (why : Stop)
  /-- A number left its range. -/
  | overflow

def Ending.status : Ending → Nat
  | done => 0
  | failed _ => 1
  | stopped .help => 0
  | stopped .usage => 2
  | overflow => 101

structure Outcome where
  log : List LogLine
  ending : Ending

def Outcome.silent (e : Ending) : Outcome := ⟨[], e⟩

def optionText : Option String → String
  | none => "None"
  | some s => "Some(" ++ Text.quoted s ++ ")"

end HazardDispatch.CommandLine
