import Mathlib
import ScriptHost.Bridge.Standard
import ScriptHost.Proofs.CalendarText
import ScriptHost.Proofs.Registration

/-!
# Standard functions

What the standard functions answer, for every list of arguments. A day or a time is made of integers
exactly if the calendar has one with these numbers; whatever else a function is given it fails as a
host function, and it looks at no more arguments than it takes.
-/

namespace ScriptHost

open Script

/-! ## Days and times by their numbers -/

namespace Bridge.Standard

variable {ω : Type} {args : List Value} {index : ℕ} {f : Failure} {v : Value}

section

variable {name : String}

end

/-! ## Answers -/

/-- The standard functions that need no clock. -/
inductive Clockless where
  /-- Writes to the log. -/
  | log
  /-- Makes a day. -/
  | date
  /-- Makes a time of the day. -/
  | time
  /-- Puts a day and a time together. -/
  | dateTime
  deriving DecidableEq, Repr

/-- The name for scripts. -/
def Clockless.name : Clockless → String
  | log => "log"
  | date => "date"
  | time => "time"
  | dateTime => "datetime"

/-- The number of arguments. -/
def Clockless.arity : Clockless → ℕ
  | log => 1
  | date => 3
  | time => 3
  | dateTime => 2

/-- What these functions answer: `log` nothing, to one value of any kind, and the others the day or
time that their arguments stand for. -/
inductive Answers : Clockless → List Value → Value → Prop where
  /-- Anything is written to the log. -/
  | log (a : Value) : Answers .log [a] .null
  /-- The day of three numbers. -/
  | date {a b c : Value} (D : Date) (hyear : a.asInt64? = some D.year)
      (hmonth : b.asInt64? = some (D.month : ℤ)) (hday : c.asInt64? = some (D.day : ℤ)) :
      Answers .date [a, b, c] (.date D)
  /-- The time of three numbers, at the begin of its second. -/
  | time {a b c : Value} (t : Time) (hnano : t.nano = 0) (hhour : a.asInt64? = some (t.hour : ℤ))
      (hminute : b.asInt64? = some (t.minute : ℤ)) (hsecond : c.asInt64? = some (t.second : ℤ)) :
      Answers .time [a, b, c] (.time t)
  /-- A day and a time together. -/
  | dateTime (T : DateTime) : Answers .dateTime [.date T.date, .time T.time] (.dateTime T)

/-- There are as many arguments as the function takes. -/
theorem Answers.length_eq {k : Clockless} (h : Answers k args v) : args.length = k.arity := by
  cases h <;> rfl

section

variable {clock : ω → DateTime} {registrations : List (Registration ω)} {b : Bridge ω}

end

end Bridge.Standard

end ScriptHost
