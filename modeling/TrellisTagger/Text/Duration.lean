import TrellisTagger.Number.Decimal

/-!
# Durations

A number of seconds as days, hours, minutes and seconds. Only the days carry a sign; what is left
over is counted forward from them. The days have at most nine digits.

## Main definitions

* `TrellisTagger.Duration.Failure` — the reasons for which a float is no duration.
* `TrellisTagger.Duration.ofSeconds` — a number of seconds without its fraction, if it is a
  duration.
* `TrellisTagger.Duration.text` — the text of a number of seconds.
-/

namespace TrellisTagger.Duration

/-- The number of seconds of a day. -/
def day : Int := 86400

/-- The greatest number of days, forward or backward. -/
def mostDays : Int := 999999999

/-- The reasons for which a float is no duration. -/
inductive Failure where
  /-- It is no number. -/
  | notNumber
  /-- It is infinite. -/
  | infinite
  /-- It has too many days. -/
  | tooLong (days : Int)
  deriving DecidableEq

/-- The wording of a failure. Days that do not fit into 32 bits are not mentioned. -/
def Failure.message : Failure → String
  | notNumber => "cannot convert float NaN to integer"
  | infinite => "cannot convert float infinity to integer"
  | tooLong days =>
    if -(Nat.pow 2 31 : Int) ≤ days ∧ days < Nat.pow 2 31 then
      "days=" ++ toString days ++ "; must have magnitude <= " ++ toString mostDays
    else "Python int too large to convert to C int"

/-- A number of seconds without its fraction. -/
def ofSeconds (x : Float) : Except Failure Int :=
  match Binary64.view x with
  | .nan => .error .notNumber
  | .infinite _ => .error .infinite
  | .finite _ _ _ =>
    let seconds := Binary64.truncate x
    let days := seconds.fdiv day
    if -mostDays ≤ days ∧ days ≤ mostDays then .ok seconds else .error (.tooLong days)

/-- A time of day, with two digits for minutes and seconds. -/
def clock (seconds : Nat) : String :=
  let two (n : Nat) : String := Decimal.zeroFilled 2 (Decimal.digits n)
  Decimal.digits (seconds / 3600) ++ ":" ++ two (seconds / 60 % 60) ++ ":" ++ two (seconds % 60)

/-- The text of a number of seconds. Days are mentioned only if there are any. -/
def text (seconds : Int) : String :=
  let days := seconds.fdiv day
  let rest := clock (seconds.fmod day).toNat
  if days = 0 then rest
  else toString days ++ (if days.natAbs = 1 then " day, " else " days, ") ++ rest

example : text 90061 = "1 day, 1:01:01" := by decide +kernel

example : text (-1) = "-1 day, 23:59:59" := by decide +kernel

end TrellisTagger.Duration
