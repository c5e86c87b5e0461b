/-!
# Log lines

What the controller and the workers say about their work: a level and a message. Lines are values;
writing them is left to the outer layer.
-/

namespace HazardDispatch

inductive Level where
  | debug
  | info
  | warn
  | error
deriving DecidableEq, Repr

def Level.name : Level → String
  | .debug => "DEBUG"
  | .info => "INFO"
  | .warn => "WARN"
  | .error => "ERROR"

structure LogLine where
  level : Level
  message : String
deriving DecidableEq, Repr

def LogLine.text (l : LogLine) : String := l.level.name ++ " " ++ l.message

end HazardDispatch
