import LabelMail.Calendar.Date

/-!
Instants of universal time. The stores keep an instant as a count of milliseconds from the start
of 1970; a count outside of the years that the calendar covers reads as that start. In text the
fraction of a second has the fewest of 0, 3, 6 or 9 digits that are exact.
-/
namespace LabelMail.Calendar

structure Instant where
  seconds : Int
  /-- A leap second is the second before it with 1000000000 or more nanoseconds. -/
  nanos : Nat
  deriving DecidableEq, Repr

namespace Instant

def epoch : Instant := ⟨0, 0⟩

def earliestSecond : Int := -8334601228800

def latestSecond : Int := 8210266876799

def isCovered (second : Int) : Bool :=
  earliestSecond ≤ second && second ≤ latestSecond

def ofMillis (millis : Int) : Instant :=
  if isCovered (millis / 1000) then ⟨millis / 1000, (millis % 1000).toNat * 1000000⟩ else epoch

def toMillis (t : Instant) : Int :=
  t.seconds * 1000 + (t.nanos / 1000000 : Nat)

theorem toMillis_ofMillis {millis : Int} (h : isCovered (millis / 1000) = true) :
    (ofMillis millis).toMillis = millis := by
  simp only [ofMillis, h, if_true, toMillis]
  omega

def fractionText (nanos : Nat) : String :=
  if nanos == 0 then ""
  else if nanos % 1000000 == 0 then "." ++ padded 3 (nanos / 1000000)
  else if nanos % 1000 == 0 then "." ++ padded 6 (nanos / 1000)
  else "." ++ padded 9 nanos

def date (t : Instant) : Date :=
  Date.ofDays (t.seconds / 86400)

def timeText (t : Instant) : String :=
  let s := (t.seconds % 86400).toNat
  let leap := t.nanos / 1000000000
  padded 2 (s / 3600) ++ ":" ++ padded 2 (s / 60 % 60) ++ ":" ++ padded 2 (s % 60 + leap)
    ++ fractionText (t.nanos % 1000000000)

/-- The text of RFC 3339 in universal time. -/
def text (t : Instant) : String :=
  t.date.text ++ "T" ++ t.timeText ++ "Z"

/-- The text for people to read. -/
def display (t : Instant) : String :=
  t.date.text ++ " " ++ t.timeText ++ " UTC"

end Instant

end LabelMail.Calendar
