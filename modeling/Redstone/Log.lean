/-!
# Log records

What the assembler and the machine report while they work: a level, a message
and named values, all as text.
-/

namespace Redstone

namespace Log

inductive Level where
  | debug | info | warning | error
  deriving DecidableEq, Repr

def Level.label : Level → String
  | debug => "DEBUG"
  | info => "INFO"
  | warning => "WARNING"
  | error => "ERROR"

structure Record where
  level : Level
  message : String
  values : List (String × String)
  deriving DecidableEq, Repr

namespace Record

/-- The same record with a value that all records of one source share. -/
def tagged (key value : String) (record : Record) : Record :=
  { record with values := record.values ++ [(key, value)] }

end Record

end Log

end Redstone
