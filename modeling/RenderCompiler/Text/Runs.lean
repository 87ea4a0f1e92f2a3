set_option autoImplicit false

namespace RenderCompiler

def isInRuns (boundaries : List Nat) (c : Char) : Bool :=
  -- Inside a run an odd number of boundaries has been passed.
  (boundaries.takeWhile (· ≤ c.toNat)).length % 2 == 1

end RenderCompiler
