/-!
Lengths of time in seconds and nanoseconds. A full second of nanoseconds is carried.
-/
namespace DesiredState

structure Delay where
  seconds : Nat
  nanos : Nat
  nanos_lt : nanos < 1000000000
  deriving DecidableEq, Repr

namespace Delay

def ofParts (seconds nanos : Nat) : Delay where
  seconds := seconds + nanos / 1000000000
  nanos := nanos % 1000000000
  nanos_lt := Nat.mod_lt _ (by decide)

def ofSeconds (seconds : Nat) : Delay := ⟨seconds, 0, by decide⟩

end Delay
end DesiredState
