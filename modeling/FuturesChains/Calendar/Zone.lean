import FuturesChains.Calendar.Instant
import FuturesChains.Calendar.ZoneRecord

/-!
# Time zones

A time zone is the offset of local time from universal time at every second. The zones of the
futures venues start on local mean time, follow their records of changes, and then their yearly
summer time rules. The rules end with the year 2099; from then on a zone keeps standard time. What
is said of zones elsewhere holds of any offsets. Local time past either end of the calendar does not
exist, and `local?` says so.
-/

namespace FuturesChains

open Calendar

/-- A time zone: its name, and the seconds that local time is ahead of universal time at a second of
universal time. -/
structure Zone where
  name : String
  offset : Int → Int

namespace Calendar

/-- The first Sunday on or after a day number. -/
def sundayFrom (day : Int) : Int := day + (3 - day) % 7

/-- The first Sunday on or after a day of a month. -/
def sundayOnOrAfter (year : Int) (month day : Nat) : Int :=
  sundayFrom (Civil.dayNumber ⟨year, month, day⟩)

/-- The last Sunday of a month. -/
def lastSunday (year : Int) (month : Nat) : Int :=
  sundayFrom (Civil.dayNumber ⟨year, month, monthLength year month⟩ - 6)

/-- Summer time of the years from `first` on: the day it starts and the day it ends, and the second
of universal time on those days at which the clock changes. -/
structure Season where
  first : Int
  startDay : Int → Int
  endDay : Int → Int
  startTime : Int
  endTime : Int

/-- The last year with summer time. -/
def lastSeasonYear : Int := 2099

/-- Summer time rules of the United States, for a standard offset. The clock changes at two in the
morning of local time. -/
def americanSeasons (standard : Int) : List Season :=
  let season (first : Int) (startDay endDay : Int → Int) : Season :=
    ⟨first, startDay, endDay, 7200 - standard, 3600 - standard⟩
  [season 2007 (sundayOnOrAfter · 3 8) (sundayOnOrAfter · 11 1),
    season 1987 (sundayOnOrAfter · 4 1) (lastSunday · 10),
    season 1976 (lastSunday · 4) (lastSunday · 10),
    season 1975 (fun year => Civil.dayNumber ⟨year, 2, 23⟩) (lastSunday · 10),
    season 1974 (fun year => Civil.dayNumber ⟨year, 1, 6⟩) (lastSunday · 10),
    season 1967 (lastSunday · 4) (lastSunday · 10)]

/-- Summer time rules of Berlin. -/
def berlinSeasons : List Season :=
  [⟨1996, (lastSunday · 3), (lastSunday · 10), 3600, 3600⟩,
    ⟨1981, (lastSunday · 3), (lastSunday · 9), 3600, 3600⟩,
    ⟨1980, fun year => Civil.dayNumber ⟨year, 4, 6⟩, (lastSunday · 9), 3600, 3600⟩]

/-- Summer time rules of London. -/
def londonSeasons : List Season :=
  [⟨1996, (lastSunday · 3), (lastSunday · 10), 3600, 3600⟩,
    ⟨1990, (lastSunday · 3), (sundayOnOrAfter · 10 22), 3600, 3600⟩,
    ⟨1981, (lastSunday · 3), (sundayOnOrAfter · 10 23), 3600, 3600⟩,
    ⟨1972, (sundayOnOrAfter · 3 16), (sundayOnOrAfter · 10 23), 7200, 7200⟩]

/-- The clock shows summer time: the newest season that has begun by the year of the standard date
holds the instant. -/
def inSeason (seasons : List Season) (standard second : Int) : Bool :=
  -- the clock never changes near New Year, so standard time gives the right year
  let year := (civil ((second + standard) / secondsPerDay)).year
  match seasons.find? (·.first ≤ year) with
  | none => false
  | some s =>
    year ≤ lastSeasonYear
      && s.startDay year * secondsPerDay + s.startTime ≤ second
      && second < s.endDay year * secondsPerDay + s.endTime

/-- The offset in force at a second: that of the last entry begun, or the mean time before the
first. -/
def recordedOffset (mean : Int) (record : List (Int × Int)) (second : Int) : Int :=
  record.foldl (fun offset entry => if entry.1 ≤ second then entry.2 else offset) mean

/-- The offset of a zone with a record until the year `first`, and seasons from then on. -/
def seasonalOffset (mean : Int) (record : List (Int × Int)) (first : Int) (seasons : List Season)
    (standard second : Int) : Int :=
  if second < Civil.dayNumber ⟨first, 1, 1⟩ * secondsPerDay then recordedOffset mean record second
  else if inSeason seasons standard second then standard + 3600 else standard

end Calendar

namespace Zone

/-- American central time. -/
def usCentral : Zone :=
  ⟨"US/Central",
    seasonalOffset (-21036) centralRecord 1967 (americanSeasons (-21600)) (-21600)⟩

/-- American eastern time. -/
def newYork : Zone :=
  ⟨"America/New_York",
    seasonalOffset (-17762) easternRecord 1967 (americanSeasons (-18000)) (-18000)⟩

/-- The time of Berlin. -/
def berlin : Zone := ⟨"Europe/Berlin", seasonalOffset 3208 berlinRecord 1980 berlinSeasons 3600⟩

/-- The time of London. -/
def london : Zone := ⟨"Europe/London", seasonalOffset (-75) londonRecord 1972 londonSeasons 0⟩

/-- The time of Singapore. -/
def singapore : Zone := ⟨"Asia/Singapore", recordedOffset 24925 singaporeRecord⟩

/-- Universal time. -/
def utc : Zone := ⟨"UTC", fun _ => 0⟩

/-- The zones of the venues, and universal time. -/
def all : List Zone := [usCentral, newYork, berlin, london, singapore, utc]

/-- The zone of these with a name. -/
def ofName? (name : String) : Option Zone := all.find? (·.name == name)

/-- Local time at an instant: the date and the seconds since midnight, if the calendar has that
date. -/
def local? (zone : Zone) (t : Instant) : Option (Date × Nat) :=
  let second := t.second + zone.offset t.second
  (Date.ofDay? (second / secondsPerDay)).map fun date => (date, (second % secondsPerDay).toNat)

/-- The seconds since midnight stay below the length of a day. -/
theorem local?_lt {zone : Zone} {t : Instant} {date : Date} {second : Nat}
    (h : zone.local? t = some (date, second)) : second < 86400 := by
  obtain ⟨_, _, heq⟩ := Option.map_eq_some_iff.1 h
  simp only [Prod.mk.injEq, secondsPerDay] at heq
  omega

end Zone

end FuturesChains
