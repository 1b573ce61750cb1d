namespace AccessControl

namespace Instant

def isLeapYear (year : Int) : Bool := year % 4 == 0 && (year % 100 != 0 || year % 400 == 0)

def daysIn (year : Int) (month : Nat) : Nat :=
  if month = 2 then (if isLeapYear year then 29 else 28)
  else if month ∈ [4, 6, 9, 11] then 30
  else 31

def firstYear : Int := -262143

def lastYear : Int := 262142

structure Valid (year : Int) (month day hour minute second nano : Nat) : Prop where
  year_range : firstYear ≤ year ∧ year ≤ lastYear
  month_range : 1 ≤ month ∧ month ≤ 12
  day_range : 1 ≤ day ∧ day ≤ daysIn year month
  hour_lt : hour < 24
  minute_lt : minute < 60
  second_le : second ≤ 60
  nano_lt : nano < 1000000000

instance (year : Int) (month day hour minute second nano : Nat) :
    Decidable (Valid year month day hour minute second nano) :=
  decidable_of_iff
    ((firstYear ≤ year ∧ year ≤ lastYear) ∧ (1 ≤ month ∧ month ≤ 12) ∧
      (1 ≤ day ∧ day ≤ daysIn year month) ∧ hour < 24 ∧ minute < 60 ∧ second ≤ 60 ∧ nano < 1000000000)
    ⟨fun ⟨y, mo, d, h, mi, s, n⟩ => ⟨y, mo, d, h, mi, s, n⟩,
      fun ⟨y, mo, d, h, mi, s, n⟩ => ⟨y, mo, d, h, mi, s, n⟩⟩

end Instant

structure Instant where
  year : Int
  month : Nat
  day : Nat
  hour : Nat
  minute : Nat
  second : Nat
  nano : Nat
  valid : Instant.Valid year month day hour minute second nano
deriving DecidableEq

namespace Instant

def ofFields? (year : Int) (month day hour minute second nano : Nat) : Option Instant :=
  if h : Valid year month day hour minute second nano then
    some ⟨year, month, day, hour, minute, second, nano, h⟩
  else none

def compare (a b : Instant) : Ordering :=
  (Ord.compare a.year b.year).then <| (Ord.compare a.month b.month).then <|
    (Ord.compare a.day b.day).then <| (Ord.compare a.hour b.hour).then <|
      (Ord.compare a.minute b.minute).then <| (Ord.compare a.second b.second).then <|
        Ord.compare a.nano b.nano

def dayBefore (year : Int) (month day : Nat) : Int × Nat × Nat :=
  if 1 < day then (year, month, day - 1)
  else if 1 < month then (year, month - 1, daysIn year (month - 1))
  else (year - 1, 12, 31)

def dayAfter (year : Int) (month day : Nat) : Int × Nat × Nat :=
  if day < daysIn year month then (year, month, day + 1)
  else if month < 12 then (year, month + 1, 1)
  else (year + 1, 1, 1)

def minutesPerDay : Int := 1440

/-- The instant that clocks `offset` minutes ahead of UTC show as `t`. The offset is less than a
day. -/
def atOffset (t : Instant) (offset : Int) : Option Instant :=
  let minutes : Int := t.hour * 60 + t.minute - offset
  let shifted (date : Int × Nat × Nat) (minutes : Int) : Option Instant :=
    ofFields? date.1 date.2.1 date.2.2 (minutes / 60).toNat (minutes % 60).toNat t.second t.nano
  if minutes < 0 then shifted (dayBefore t.year t.month t.day) (minutes + minutesPerDay)
  else if minutes < minutesPerDay then shifted (t.year, t.month, t.day) minutes
  else shifted (dayAfter t.year t.month t.day) (minutes - minutesPerDay)

def start2025 : Instant := ⟨2025, 1, 1, 0, 0, 0, 0, by decide⟩

end Instant

end AccessControl
