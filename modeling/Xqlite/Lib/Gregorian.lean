import Mathlib.Algebra.Order.Ring.Int
set_option autoImplicit false

namespace Gregorian

def leapYear (year : Int) : Bool :=
  decide (year % 4 = 0) && (decide (year % 100 ≠ 0) || decide (year % 400 = 0))

def daysInMonth (year month : Int) : Int :=
  if month = 2 then if leapYear year then 29 else 28
  else if month = 4 ∨ month = 6 ∨ month = 9 ∨ month = 11 then 30
  else 31

def daysBeforeMonth (month : Int) : Int :=
  match month with
  | 1 => 0
  | 2 => 31
  | 3 => 59
  | 4 => 90
  | 5 => 120
  | 6 => 151
  | 7 => 181
  | 8 => 212
  | 9 => 243
  | 10 => 273
  | 11 => 304
  | 12 => 334
  | _ => 0

def leapDayOffset (year month : Int) : Int :=
  if month < 3 then 0 else if leapYear year then 1 else 0

def daysInPreviousYears (year : Int) : Int :=
  if year = 0 then 0
  else
    (year-1).fdiv 4-(year-1).fdiv 100+(year-1).fdiv 400+(year-1)*365+366

def dayNumber (year month day : Int) : Int :=
  daysInPreviousYears year+daysBeforeMonth month+leapDayOffset year month+day-1

end Gregorian
