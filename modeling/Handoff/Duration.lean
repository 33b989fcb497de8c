/-!
# Durations

A span of time as whole seconds in 64 bits and nanoseconds below one second.
-/

namespace Handoff

def nanosPerSecond : Nat := 1000000000

structure Duration where
  secs : UInt64
  nanos : Nat
  nanos_lt : nanos < nanosPerSecond := by decide
  deriving DecidableEq

namespace Duration

def toNanos (d : Duration) : Nat :=
  d.secs.toNat * nanosPerSecond + d.nanos

def zero : Duration := ⟨0, 0, by decide⟩

def max : Duration := ⟨UInt64.ofNat (UInt64.size - 1), nanosPerSecond - 1, by decide⟩

instance : Inhabited Duration := ⟨zero⟩

def ofSecs (secs : UInt64) : Duration := ⟨secs, 0, by decide⟩

/-- The span of that many nanoseconds; the longest one if there is none. -/
def ofNanos (nanos : Nat) : Duration :=
  if nanos / nanosPerSecond < UInt64.size then
    ⟨UInt64.ofNat (nanos / nanosPerSecond), nanos % nanosPerSecond,
      Nat.mod_lt _ (by decide)⟩
  else max

def ofMillis (millis : Nat) : Duration := ofNanos (millis * 1000000)

def product? (a b : UInt64) : Option UInt64 :=
  if a.toNat * b.toNat < UInt64.size then some (a * b) else none

def sum? (a b : UInt64) : Option UInt64 :=
  if a.toNat + b.toNat < UInt64.size then some (a + b) else none

def nanosTimes (d : Duration) (count : UInt32) : UInt64 :=
  UInt64.ofNat d.nanos * count.toUInt64

/-- `count` times the span, or the longest one when that is out of range.  The
nanoseconds are multiplied apart and carried into the seconds. -/
def times (d : Duration) (count : UInt32) : Duration :=
  let nanos := d.nanosTimes count
  let carry := nanos / UInt64.ofNat nanosPerSecond
  match (product? d.secs count.toUInt64).bind fun secs => sum? secs carry with
  | some secs => ⟨secs, nanos.toNat % nanosPerSecond, Nat.mod_lt _ (by decide)⟩
  | none => max

end Duration

end Handoff
