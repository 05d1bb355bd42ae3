import Mathlib.Logic.Basic

namespace CoreinitNx

abbrev OSTime := Int64

def kWiiUBusClockHz : UInt32 := 248625000

def kWiiUTimerHz : UInt64 := (kWiiUBusClockHz / 4).toUInt64

-- Seconds from 1970-01-01, the Unix epoch, to 2000-01-01, the Cafe OS one.
def kUnixToCafeEpoch : Int64 := 946684800

def ticksToNs (ticks : OSTime) : UInt64 :=
  if ticks > 0 then ticks.toUInt64 * 32000 / 1989 else 0

-- `baseTime` is what a guest may set; `systemTime` only counts on.
structure Clock where
  baseTime : OSTime
  systemTime : OSTime
deriving DecidableEq, Repr

def Clock.osGetTime (clock : Clock) : OSTime := clock.baseTime + clock.systemTime

def Clock.osSetAbsoluteSystemTime (clock : Clock) (time : OSTime) : Clock :=
  { clock with baseTime := time - clock.systemTime }

end CoreinitNx
