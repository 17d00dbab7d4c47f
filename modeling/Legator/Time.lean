import Mathlib.Data.List.Basic

/-!
# Clock readings and durations

Go's `time.Time` and `time.Duration` are modelled by their nanosecond counts: a
clock reading is an `Int` of nanoseconds, and a duration is the difference of
two readings. `t.Add(d)` is `t + d`, `t.Sub(u)` is `t - u`, `t.After(u)` is
`u < t` and `t.Before(u)` is `t < u`. The constants below are Go's.

`time.ParseDuration` is modelled after its Go source: a sign, then one or more
components of digits, an optional fraction and a unit, with the same overflow
checks against `1<<63`. The nanoseconds of a fraction are computed in `float64`
as Go computes them, each step rounded to the nearest value with 53 significant
bits, ties to even. The exponent of these values is not bounded: Go's `float64`
leaves its normal range only for a fraction of more than 300 digits, whose
nanoseconds are then below one, so that both add nothing for it. The quoted
input in error texts is not escaped.
-/

namespace Legator.Time

/-- `time.Nanosecond`. -/
def nanosecond : Int := 1

/-- `time.Microsecond`. -/
def microsecond : Int := 1000 * nanosecond

/-- `time.Millisecond`. -/
def millisecond : Int := 1000 * microsecond

/-- `time.Second`. -/
def second : Int := 1000 * millisecond

/-- `time.Minute`. -/
def minute : Int := 60 * second

/-- `time.Hour`. -/
def hour : Int := 60 * minute

/-- What Go's `int64` arithmetic leaves of an exact result: the value in
`[-2^63, 2^63)` congruent to it modulo `2^64`. A `Duration` product that
overflows wraps so. -/
def wrapInt64 (x : Int) : Int :=
  (x + ((1 <<< 63 : Nat) : Int)) % ((1 <<< 64 : Nat) : Int) - ((1 <<< 63 : Nat) : Int)

theorem wrapInt64_of_mem {x : Int} (low : -((1 <<< 63 : Nat) : Int) ≤ x)
    (high : x < ((1 <<< 63 : Nat) : Int)) : wrapInt64 x = x := by
  simp only [wrapInt64, Nat.shiftLeft_eq, Nat.one_mul] at *
  push_cast at *
  omega

/-! ## Locations and times -/

/-- A `time.Location`, known by its name. -/
structure Location where
  name : String
  deriving DecidableEq, Repr

/-- `time.UTC`. -/
def Location.utc : Location :=
  ⟨"UTC"⟩

/-- A `time.Time`: nanoseconds since January 1 of year 1, UTC, and the location
used for calendar arithmetic. -/
structure GoTime where
  nanos : Int
  loc : Location
  deriving DecidableEq, Repr

namespace GoTime

/-- `time.Time{}`. -/
def zero : GoTime :=
  ⟨0, Location.utc⟩

/-- `t.IsZero()`. -/
def isZero (t : GoTime) : Bool :=
  t.nanos = 0

/-- `t.Add(d)`. -/
def add (t : GoTime) (d : Int) : GoTime :=
  { t with nanos := t.nanos + d }

/-- `t.Sub(u)`. -/
def sub (t u : GoTime) : Int :=
  t.nanos - u.nanos

/-- `t.After(u)`. -/
def after (t u : GoTime) : Bool :=
  u.nanos < t.nanos

/-- `t.In(loc)`: the same instant, displayed in `loc`. -/
def «in» (t : GoTime) (loc : Location) : GoTime :=
  { t with loc := loc }

end GoTime

/-! ## `time.ParseDuration` -/

/-- `quote` of the `time` package, without its escapes. -/
def quote (s : String) : String :=
  "\"" ++ s ++ "\""

/-- `unitMap` of `time.ParseDuration`: nanoseconds per unit. -/
def unitMap : List (String × Nat) :=
  [("ns", 1), ("us", 1000), ("µs", 1000), ("μs", 1000), ("ms", 1000000),
    ("s", 1000000000), ("m", 60000000000), ("h", 3600000000000)]

/-- The value of a decimal digit. -/
def digitValue (c : Char) : Nat :=
  c.toNat - '0'.toNat

/-- `leadingInt`: the value of the leading digits and what follows them, or
`none` when the value passes `1<<63`. -/
def leadingInt : List Char → Nat → Option (Nat × List Char)
  | [], x => some (x, [])
  | c :: rest, x =>
      if c.isDigit then
        if x > (1 <<< 63) / 10 then none
        else if x * 10 + digitValue c > 1 <<< 63 then none
        else leadingInt rest (x * 10 + digitValue c)
      else some (x, c :: rest)

/-! ## The `float64` steps of the fraction -/

/-- The number of binary digits of `n`, for `n < 2 ^ 2 ^ j`: the halves are
split off by a binary search over the digit count. -/
def bitsBelow : Nat → Nat → Nat
  | 0, n => n
  | j + 1, n =>
      if n < 1 <<< (1 <<< j) then bitsBelow j n else bitsBelow j (n >>> (1 <<< j)) + (1 <<< j)

/-- The number of binary digits of `n`, looking for a `j` with `n < 2 ^ 2 ^ j`
from `j` on. -/
def bitLengthFrom : Nat → Nat → Nat → Nat
  | 0, j, n => bitsBelow j n
  | fuel + 1, j, n => if n < 1 <<< (1 <<< j) then bitsBelow j n else bitLengthFrom fuel (j + 1) n

/-- The number of binary digits of `n`. -/
def bitLength (n : Nat) : Nat :=
  bitLengthFrom n 0 n

/-- A nonnegative `float64` value, `mantissa * 2 ^ exponent`. -/
structure Float64Value where
  mantissa : Nat
  exponent : Int
  deriving DecidableEq, Repr

namespace Float64Value

/-- The value's numerator over `denominator`. -/
def numerator (x : Float64Value) : Nat :=
  x.mantissa * (1 <<< x.exponent.toNat)

/-- The power of two the value's numerator is divided by. -/
def denominator (x : Float64Value) : Nat :=
  1 <<< (-x.exponent).toNat

/-- `uint64(x)`: the value truncated toward zero. -/
def toUInt64 (x : Float64Value) : Nat :=
  x.numerator / x.denominator

end Float64Value

/-- `n / d` rounded to the nearest integer, ties to the even one. -/
def roundHalfEven (n d : Nat) : Nat :=
  if 2 * (n % d) > d ∨ (2 * (n % d) = d ∧ n / d % 2 = 1) then n / d + 1 else n / d

/-- The `float64` nearest to `n / d`: with `e` the exponent of the leading
binary digit of the quotient, the quotient is counted in units of `2 ^ (e - 52)`,
which leaves 53 significant bits, and rounded half to even. -/
def roundFloat64 (n d : Nat) : Float64Value :=
  let g : Int := (bitLength n : Int) - bitLength d
  let e := if n * (1 <<< (-g).toNat) < d * (1 <<< g.toNat) then g - 1 else g
  ⟨roundHalfEven (n * (1 <<< (52 - e).toNat)) (d * (1 <<< (e - 52).toNat)), e - 52⟩

/-- `scale *= 10` of `leadingFraction`, on a `float64` that holds an integer. -/
def timesTen (scale : Nat) : Nat :=
  (roundFloat64 (scale * 10) 1).toUInt64

/-- `uint64(float64(f) * (float64(unit) / scale))`: the nanoseconds of the
fraction `f / scale` of a unit, with `scale` the `float64` `leadingFraction`
computed. -/
def fractionNanos (f scale unit : Nat) : Nat :=
  let x := roundFloat64 f 1
  let y := roundFloat64 unit scale
  (roundFloat64 (x.numerator * y.numerator) (x.denominator * y.denominator)).toUInt64

-- `0.9999999999999999ns` is one nanosecond: `float64(f)` rounds `f` up to `10^16`.
example : fractionNanos 9999999999999999 10000000000000000 1 = 1 := by decide

/-- `leadingFraction`: the value of the leading digits that fit, their scale
`10 ^ k` as `float64` computes it, and what follows all the digits. -/
def leadingFraction : List Char → Nat → Nat → Bool → Nat × Nat × List Char
  | [], x, scale, _ => (x, scale, [])
  | c :: rest, x, scale, overflow =>
      if c.isDigit then
        if overflow || x > ((1 <<< 63) - 1) / 10 then leadingFraction rest x scale true
        else if x * 10 + digitValue c > 1 <<< 63 then leadingFraction rest x scale true
        else leadingFraction rest (x * 10 + digitValue c) (timesTen scale) false
      else (x, scale, c :: rest)

theorem leadingInt_length {chars rest : List Char} {x value : Nat}
    (consumed : leadingInt chars x = some (value, rest)) : rest.length ≤ chars.length := by
  induction chars generalizing x with
  | nil => cases consumed; rfl
  | cons c chars inductionHypothesis =>
      simp only [leadingInt] at consumed
      split_ifs at consumed
      · exact Nat.le_succ_of_le (inductionHypothesis consumed)
      · cases consumed; rfl

theorem leadingFraction_length (chars : List Char) (x scale : Nat) (overflow : Bool) :
    (leadingFraction chars x scale overflow).2.2.length ≤ chars.length := by
  induction chars generalizing x scale overflow with
  | nil => exact Nat.le_refl 0
  | cons c chars inductionHypothesis =>
      simp only [leadingFraction]
      split_ifs <;> first | exact Nat.le_succ_of_le (inductionHypothesis ..) | exact Nat.le_refl _

/-- Whether a character ends a unit: a digit or a decimal point. -/
def startsNumber (c : Char) : Bool :=
  c == '.' || c.isDigit

/-- The optional fraction of a component: its value, its scale, what follows it,
and whether it had a digit. -/
def fractionPart : List Char → Nat × Nat × List Char × Bool
  | '.' :: digits =>
      let (f, scale, rest) := leadingFraction digits 0 1 false
      (f, scale, rest, rest.length != digits.length)
  | chars => (0, 1, chars, false)

theorem fractionPart_length (chars : List Char) :
    (fractionPart chars).2.2.1.length ≤ chars.length := by
  unfold fractionPart
  split
  · exact Nat.le_succ_of_le (leadingFraction_length ..)
  · exact Nat.le_refl _

theorem length_dropWhile_lt {chars : List Char} {p : Char → Bool}
    (taken : chars.takeWhile p ≠ []) : (chars.dropWhile p).length < chars.length := by
  cases chars with
  | nil => exact absurd rfl taken
  | cons c chars =>
      cases kept : p c
      · simp [List.takeWhile_cons, kept] at taken
      · rw [List.dropWhile_cons_of_pos kept, List.length_cons]
        exact Nat.lt_succ_of_le (List.dropWhile_suffix p).length_le

/-- The text of the `invalid duration` error. -/
def invalidDuration (orig : String) : String :=
  "time: invalid duration " ++ quote orig

/-- One pass of the components loop of `time.ParseDuration`: read digits, an
optional fraction and a unit, and add the component's nanoseconds to the
`uint64` total `d`, with Go's overflow checks. The result is what is left of the
input and the new total. -/
def durationComponent (orig : String) (chars : List Char) (d : Nat) :
    Except String (List Char × Nat) :=
  match chars with
  | [] => .ok ([], d)
  | c :: tail =>
      if !startsNumber c then .error (invalidDuration orig)
      else match leadingInt (c :: tail) 0 with
        | none => .error (invalidDuration orig)
        | some (v, afterInt) =>
            let fraction := fractionPart afterInt
            if afterInt.length == (c :: tail).length && !fraction.2.2.2 then
              .error (invalidDuration orig)
            else
              let unitText := fraction.2.2.1.takeWhile fun c => !startsNumber c
              if unitText = [] then .error ("time: missing unit in duration " ++ quote orig)
              else match unitMap.lookup (String.mk unitText) with
                | none => .error ("time: unknown unit " ++ quote (String.mk unitText) ++
                    " in duration " ++ quote orig)
                | some unit =>
                    let f := fraction.1
                    let v' := if f > 0 then v * unit + fractionNanos f fraction.2.1 unit else v * unit
                    if v > (1 <<< 63) / unit then .error (invalidDuration orig)
                    else if f > 0 ∧ v' > 1 <<< 63 then .error (invalidDuration orig)
                    else if (d + v') % (1 <<< 64) > 1 <<< 63 then .error (invalidDuration orig)
                    else .ok (fraction.2.2.1.dropWhile (fun c => !startsNumber c),
                      (d + v') % (1 <<< 64))

/-- A branch that fails leaves the answer to the rest of the code. -/
theorem ok_of_ite_error {ε α : Type} {p : Prop} [Decidable p] {e : ε} {x : Except ε α} {v : α}
    (h : (if p then .error e else x) = .ok v) : x = .ok v := by
  split at h
  · cases h
  · exact h

/-- Every component consumes at least its unit. -/
theorem durationComponent_length {orig : String} {c : Char} {tail rest : List Char}
    {d d' : Nat} (parsed : durationComponent orig (c :: tail) d = .ok (rest, d')) :
    rest.length < (c :: tail).length := by
  simp only [durationComponent] at parsed
  replace parsed := ok_of_ite_error parsed
  split at parsed
  · cases parsed
  · rename_i v afterInt found
    replace parsed := ok_of_ite_error parsed
    split at parsed
    · cases parsed
    · rename_i unitNonempty
      split at parsed
      · cases parsed
      · cases ok_of_ite_error (ok_of_ite_error (ok_of_ite_error parsed))
        exact calc _ < (fractionPart afterInt).2.2.1.length := length_dropWhile_lt unitNonempty
          _ ≤ afterInt.length := fractionPart_length afterInt
          _ ≤ (c :: tail).length := leadingInt_length found

/-- The components loop of `time.ParseDuration`, for at most `fuel` components;
`parseDuration` gives one unit of fuel per character, which is always enough. -/
def parseDurationLoop (orig : String) : Nat → List Char → Nat → Except String Nat
  | _, [], d => .ok d
  | 0, _ :: _, _ => .error (invalidDuration orig)
  | fuel + 1, c :: tail, d =>
      (durationComponent orig (c :: tail) d).bind fun (rest, d) =>
        parseDurationLoop orig fuel rest d

/-- More fuel than characters changes nothing, so the loop never runs out. -/
theorem parseDurationLoop_succ_fuel (orig : String) {fuel : Nat} {chars : List Char}
    (enough : chars.length ≤ fuel) (d : Nat) :
    parseDurationLoop orig (fuel + 1) chars d = parseDurationLoop orig fuel chars d := by
  induction fuel generalizing chars d with
  | zero => cases chars with
    | nil => rfl
    | cons c tail => exact absurd enough (by simp)
  | succ fuel inductionHypothesis =>
      cases chars with
      | nil => rfl
      | cons c tail =>
          simp only [parseDurationLoop]
          cases parsed : durationComponent orig (c :: tail) d with
          | error err => rfl
          | ok result =>
              obtain ⟨rest, d'⟩ := result
              have shorter : rest.length < (c :: tail).length := durationComponent_length parsed
              exact inductionHypothesis (by simp at shorter enough ⊢; omega) d'

/-- `time.ParseDuration`. -/
def parseDuration (s : String) : Except String Int :=
  let (neg, body) : Bool × List Char := match s.toList with
    | '-' :: rest => (true, rest)
    | '+' :: rest => (false, rest)
    | chars => (false, chars)
  if body = ['0'] then .ok 0
  else if body = [] then .error (invalidDuration s)
  else match parseDurationLoop s body.length body 0 with
    | .error err => .error err
    | .ok d =>
        if neg then .ok (-d)
        else if d > (1 <<< 63) - 1 then .error (invalidDuration s)
        else .ok d

end Legator.Time
