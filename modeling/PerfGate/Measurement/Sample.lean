/-!
# Samples

One timed execution of a workload, in milliseconds.
-/

set_option autoImplicit false

namespace PerfGate

structure Sample where
  name : String
  implementation : String
  duration : Float
  /-- Position among the timed executions, from zero. -/
  iteration : Nat

end PerfGate
