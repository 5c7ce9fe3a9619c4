/-!
# Overflow

Numbers have 64 bits.  Two operations on them are done without asking whether
the result has a form: taking the negative of a literal, and adding a limit to
the cycle counter.  Where it has none the program stops at once, and nothing
after that is done.
-/

namespace Redstone

inductive Overflow where
  | addition | negation
  deriving DecidableEq, Repr

namespace Overflow

def message : Overflow → String
  | addition => "attempt to add with overflow"
  | negation => "attempt to negate with overflow"

end Overflow

end Redstone
