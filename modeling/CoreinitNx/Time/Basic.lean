import CoreinitNx.Library.CInt
import CoreinitNx.Ticks

namespace CoreinitNx.Time

open CInt

-- The month is counted from 0, as in C, but the year is the full one.
structure OSCalendarTime where
  tm_sec : Int32
  tm_min : Int32
  tm_hour : Int32
  tm_mday : Int32
  tm_mon : Int32
  tm_year : Int32
  tm_wday : Int32
  tm_yday : Int32
  tm_msec : Int32
  tm_usec : Int32
deriving DecidableEq, Repr

-- `none` is signed overflow; unsigned arithmetic wraps around.
def daysFromCivil (year : Int) (m d : UInt32) : Option Int := do
  let y ← int64 (year - if m ≤ 2 then 1 else 0)
  let era ← floorDiv y 400
  let eraYears ← int64 (era * 400)
  let yoe := UInt32.ofInt (← int64 (y - eraYears))
  let doy := (153 * (m + if m > 2 then -3 else 9) + 2) / 5 + d - 1
  let doe := yoe * 365 + yoe / 4 - yoe / 100 + doy
  let eraDays ← int64 (era * 146097)
  let days ← int64 (eraDays + doe.toNat)
  int64 (days - 719468)

def civilFromDays (day : Int) : Option (Int32 × Int32 × Int32) := do
  let z ← int64 (day + 719468)
  let era ← floorDiv z 146097
  let eraDays ← int64 (era * 146097)
  let doe := UInt32.ofInt (← int64 (z - eraDays))
  let yoe := (doe - doe / 1460 + doe / 36524 - doe / 146096) / 365
  let eraYears ← int64 (era * 400)
  let yr ← int64 (yoe.toNat + eraYears)
  let doy := doe - (365 * yoe + yoe / 4 - yoe / 100)
  let mp := (5 * doy + 2) / 153
  let dd := doy - (153 * mp + 2) / 5 + 1
  let mm := mp + if mp < 10 then 3 else -9
  let y ← int64 (yr + if mm ≤ 2 then 1 else 0)
  return (Int32.ofInt y, mm.toInt32, dd.toInt32)

def osTicksToCalendarTime (time : OSTime) : Option OSCalendarTime := do
  let hz : Int := kWiiUTimerHz.toNat
  let (secs, rem) ← floorDivMod time.toInt hz
  let unixSecs ← int64 (secs + kUnixToCafeEpoch.toInt)
  let (days, sod) ← floorDivMod unixSecs 86400
  let (y, m, d) ← civilFromDays days
  let mon ← int32 (m.toInt - 1)
  let wday := ((days.tmod 7) + 11).tmod 7
  let newYear ← daysFromCivil y.toInt 1 1
  let yday ← int64 (days - newYear)
  let usec := UInt64.ofInt rem * 1000000 / kWiiUTimerHz
  return {
    tm_year := y
    tm_mon := Int32.ofInt mon
    tm_mday := d
    tm_hour := Int32.ofInt (sod.tdiv 3600)
    tm_min := Int32.ofInt ((sod.tmod 3600).tdiv 60)
    tm_sec := Int32.ofInt (sod.tmod 60)
    tm_wday := Int32.ofInt wday
    tm_yday := Int32.ofInt yday
    tm_msec := Int32.ofInt (usec / 1000).toNat
    tm_usec := Int32.ofInt (usec % 1000).toNat }

def osCalendarTimeToTicks (ct : OSCalendarTime) : Option OSTime := do
  let hz : Int := kWiiUTimerHz.toNat
  let month ← int32 (ct.tm_mon.toInt + 1)
  let days ← daysFromCivil ct.tm_year.toInt (UInt32.ofInt month) (UInt32.ofInt ct.tm_mday.toInt)
  let hours ← int32 (ct.tm_hour.toInt * 3600)
  let minutes ← int32 (ct.tm_min.toInt * 60)
  let daySecs ← int64 (days * 86400)
  let hourSecs ← int64 (daySecs + hours)
  let minuteSecs ← int64 (hourSecs + minutes)
  let unixSecs ← int64 (minuteSecs + ct.tm_sec.toInt)
  let cafeSecs ← int64 (unixSecs - kUnixToCafeEpoch.toInt)
  let ticks ← int64 (cafeSecs * hz)
  let millis ← int64 (ct.tm_msec.toInt * 1000)
  let micros ← int64 (millis + ct.tm_usec.toInt)
  let scaled ← int64 (micros * hz)
  return Int64.ofInt (← int64 (ticks + scaled.tdiv 1000000))

end CoreinitNx.Time
