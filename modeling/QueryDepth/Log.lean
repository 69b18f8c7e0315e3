/-!
# Log records
-/

namespace QueryDepth

inductive LogLevel where
  | debug
  | error
deriving DecidableEq, Repr

def LogLevel.text : LogLevel → String
  | .debug => "DEBUG"
  | .error => "ERROR"

structure LogRecord where
  level : LogLevel
  message : String
deriving DecidableEq, Repr

end QueryDepth
