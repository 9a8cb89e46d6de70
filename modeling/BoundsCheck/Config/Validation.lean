import BoundsCheck.Config.Basic

/-!
# Valid configurations

`Config.validate` looks for the first parameter that no machine can be built with.
-/

set_option autoImplicit false

namespace BoundsCheck

/-- Why no machine can be built. -/
inductive Config.Error
  /-- A component holds nothing. -/
  | zeroCapacity (component : String)
  /-- A component answers in the cycle it is asked. -/
  | zeroLatency (component : String)
  /-- The table has an entry for the id that no buffer has. -/
  | reservedBufferId
  /-- The table has two entries for one buffer. -/
  | duplicateBufferId (id : BufferId)
  /-- A switch cannot have as many inputs. -/
  | invalidSwitchInputs (inputs limit : Nat)
deriving DecidableEq, Repr

/-- The text an error is reported with. -/
def Config.Error.message : Config.Error → String
  | .zeroCapacity component => component ++ ": capacity must be at least one"
  | .zeroLatency component => component ++ ": latency must be at least one cycle"
  | .reservedBufferId => "buffer id 0 is reserved for the invalid range entry"
  | .duplicateBufferId id => "duplicate range entry for buffer id " ++ toString id
  | .invalidSwitchInputs inputs limit =>
    "switch supports 1 to " ++ toString limit ++ " inputs (got " ++ toString inputs ++ ")"

/-- The most inputs a switch can have. -/
def maxSwitchInputs : Nat := 32

/-- A switch can have this many inputs. -/
def checkInputs (inputs : Nat) : Except Config.Error Unit :=
  if inputs = 0 ∨ maxSwitchInputs < inputs then
    .error (.invalidSwitchInputs inputs maxSwitchInputs)
  else .ok ()

/-- A component can hold this much. -/
def checkCapacity (component : String) (capacity : UInt64) : Except Config.Error Unit :=
  if capacity = 0 then .error (.zeroCapacity component) else .ok ()

/-- A component can have this latency. -/
def checkLatency (component : String) (latency : UInt64) : Except Config.Error Unit :=
  if latency = 0 then .error (.zeroLatency component) else .ok ()

/-- The first defect of the parameters of a cache. -/
def CacheConfig.validate (component : String) (c : CacheConfig) : Except Config.Error Unit := do
  checkCapacity component c.capacity
  checkLatency component c.hitLatency
  checkLatency component c.forwardingLatency

/-- The first defect of a configuration.  The entries of the table are not looked at. -/
def Config.validate (c : Config) : Except Config.Error Unit := do
  checkInputs c.cores.toNat
  checkCapacity "bcu" c.checker.queueSize
  c.l1.validate "l1_rcache"
  c.l2.validate "l2_rcache"
  checkLatency "rbt_mem" c.table.latency
  checkLatency "switch" c.switch.delay

end BoundsCheck
