/-!
# Reading a command line

Arguments are read from left to right. An option stands before its value, or is joined with it by an
equals sign; a value that stands alone does not start with a dash. No option may be given twice. The
first argument that is neither option nor value is a command; what follows it is for the command to
read.

An option that is not given takes its value from the environment, if it has a variable there.

* `Setting`          an option, as what its value does to the settings;
* `readArguments`    the arguments up to a command;
* `readEnvironment`  the variables of the options that were not given.
-/

namespace HazardDispatch.CommandLine

structure Setting (α : Type) where
  name : String
  /-- The variable that stands in for it. -/
  fallback : Option String
  /-- The settings with the value; nothing if the text is no value for this option. -/
  apply : String → α → Option α

/-- Why nothing is done. -/
inductive Stop where
  | usage
  | help
deriving DecidableEq, Repr

/-- How an argument is written. -/
inductive Shape where
  /-- Two dashes. -/
  | separator
  /-- A name after two dashes, perhaps with a value. -/
  | long (name : String) (value : Option String)
  /-- Letters after one dash. -/
  | short (letters : List Char)
  | plain
deriving DecidableEq, Repr

/-- How an argument is written. A dash alone is a plain argument. -/
def shape (arg : String) : Shape :=
  match arg.toList with
  | ['-', '-'] => .separator
  | '-' :: '-' :: cs =>
    let name := cs.takeWhile (· != '=')
    match cs.drop name.length with
    | [] => .long (String.ofList name) none
    | _ :: value => .long (String.ofList name) (some (String.ofList value))
  | ['-'] => .plain
  | '-' :: cs => .short cs
  | _ => .plain

structure Reading (α : Type) where
  settings : α
  given : List String
  /-- The command, and the arguments after it. -/
  command : Option (String × List String)

def Reading.give {α : Type} (r : Reading α) (s : Setting α) (value : String) :
    Except Stop (Reading α) :=
  if r.given.contains s.name then .error .usage
  else
    match s.apply value r.settings with
    | none => .error .usage
    | some a => .ok { r with settings := a, given := s.name :: r.given }

/-- Reads the arguments up to the first that is one of the commands. -/
def readArguments {α : Type} (settings : List (Setting α)) (commands : List String) :
    Reading α → List String → Except Stop (Reading α)
  | r, [] => .ok r
  | r, arg :: rest =>
    match shape arg with
    | .separator => if rest.isEmpty then .ok r else .error .usage
    | .short letters => if letters.head? = some 'h' then .error .help else .error .usage
    | .plain =>
      if commands.contains arg then .ok { r with command := some (arg, rest) } else .error .usage
    | .long name value =>
      match settings.find? (·.name == name) with
      | none => if name = "help" ∧ value = none then .error .help else .error .usage
      | some s =>
        match value with
        | some v =>
          match r.give s v with
          | .error e => .error e
          | .ok r => readArguments settings commands r rest
        | none =>
          match rest with
          | [] => .error .usage
          | v :: rest =>
            if shape v = .plain then
              match r.give s v with
              | .error e => .error e
              | .ok r => readArguments settings commands r rest
            else .error .usage

/-- Takes over the variables of the options that were not given. -/
def readEnvironment {α : Type} (settings : List (Setting α)) (environment : String → Option String)
    (r : Reading α) : Except Stop α :=
  settings.foldlM (fun a s =>
    if r.given.contains s.name then .ok a
    else
      match s.fallback.bind environment with
      | none => .ok a
      | some value =>
        match s.apply value a with
        | none => .error .usage
        | some a => .ok a) r.settings

end HazardDispatch.CommandLine
