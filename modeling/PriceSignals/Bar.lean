/-
Module: PriceSignals.Bar
Purpose: Price bars and the times that they carry.
Main exports:
  BarTime, BarTime.instant?, Bar, Bar.instant?
-/
import PriceSignals.Binary64
import PriceSignals.Time.Reader

namespace PriceSignals

/-- The time of a bar as its source gives it: seconds since 1970, the same with a fraction, or a
text. It is kept as given and made an instant only on demand. -/
inductive BarTime where
  | unix (secs : Int64)
  | fractional (secs : Float)
  | text (chars : String)
deriving DecidableEq

namespace BarTime

/-- The instant of a number of seconds. The part of a second is rounded to nanoseconds and stays
below a full second. -/
def ofSeconds? (secs : Float) : Option Time.Instant := do
  let whole ← Binary64.floor? secs
  let nanos ← Binary64.nearestNat? ((secs - Float.ofInt whole) * 1e9)
  Time.Instant.ofUnix? whole (min nanos 999999999)

/-- The instant of a time, if it has one. -/
def instant? : BarTime → Option Time.Instant
  | unix secs => Time.Instant.ofUnix? secs.toInt 0
  | fractional secs => ofSeconds? secs
  | text chars => Time.instant? chars.toList

end BarTime

/-- The prices of one period and, if known, the traded volume. -/
structure Bar where
  time : BarTime
  opening : Float
  high : Float
  low : Float
  close : Float
  volume : Option Float
deriving DecidableEq

/-- The instant of a bar, if its time has one. -/
def Bar.instant? (b : Bar) : Option Time.Instant := b.time.instant?

end PriceSignals
