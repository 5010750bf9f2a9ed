import OctoConv.Base.Time
import Mathlib.Data.Rat.Floor

/-!
# `float64` and durations as text

A `float64` is a rational number, an infinity or a NaN. Arithmetic is exact arithmetic, rounded to
53 bits; the numbers that are computed with here are far from the ends of the range. How a number is
read and written by `strconv` and `fmt` is a parameter.

Source: the Go packages `strconv`, `fmt` and `time`.
-/

namespace OctoConv

/-- A `float64`. -/
inductive Float64
  | finite (q : Rat)
  | inf (negative : Bool)
  | nan
deriving DecidableEq, Repr

/-! ## Rounding -/

/-- A power of two. -/
def powTwo (k : Int) : Rat :=
  if 0 ≤ k then ((2 ^ k.toNat : Nat) : Rat) else 1 / ((2 ^ (-k).toNat : Nat) : Rat)

/-- The exponent of the leading bit of a number other than zero. -/
def leadingExponent (q : Rat) : Int :=
  let k := (Nat.log2 q.num.natAbs : Int) - Nat.log2 q.den
  if powTwo k ≤ |q| then k else k - 1

/-- The nearest whole number, an even one in the middle between two. -/
def roundTiesEven (q : Rat) : Int :=
  let below := q.floor
  if q - below < 1 / 2 then below
  else if 1 / 2 < q - below then below + 1
  else if below % 2 = 0 then below
  else below + 1

/-- The nearest `float64`. -/
def roundFloat (q : Rat) : Rat :=
  if q = 0 then 0
  else
    let place := powTwo (max (leadingExponent q - 52) (-1074))
    roundTiesEven (q / place) * place

/-- The whole number that a finite `float64` is cut to when it is converted. -/
def truncate (q : Rat) : Int := if 0 ≤ q then q.floor else -(-q).floor

example : roundFloat (1 / 10) = 3602879701896397 / 36028797018963968 := by decide +kernel

/-- `time.Duration(x * float64(time.Second))` -/
def nanoseconds (x : Rat) : Int := truncate (roundFloat (x * 1000000000))

/-- `d.Seconds()` -/
def durationSeconds (d : Int) : Rat :=
  roundFloat (roundFloat (d.tdiv second) + roundFloat (roundFloat (d.tmod second) / 1000000000))

/-! ## Text -/

/-- How `strconv` and `fmt` read and write a `float64`. -/
structure FloatText where
  /-- `strconv.ParseFloat`: the number, or the text of the error. -/
  parse : String → Except String Float64
  /-- `%v` -/
  general : Float64 → String
  /-- `strconv.FormatFloat(x, 'f', -1, 64)` -/
  shortest : Rat → String
  /-- `%.3f`, `%.2f`: with a number of decimals. -/
  fixed : Nat → Rat → String
  /-- The digits of a whole number of seconds are read as that number. -/
  parse_natural : ∀ n : Nat, n ≤ 2 ^ 31 → parse (toString n) = .ok (.finite n)
  /-- No number is written with a blank. -/
  general_blank : ∀ x, ' ' ∉ (general x).toList
  fixed_blank : ∀ n x, ' ' ∉ (fixed n x).toList

/-- The digits behind a decimal point, without the zeros at the end. -/
def fraction (v width : Nat) : String :=
  let digits := (Nat.toDigits 10 v).leftpad width '0'
  let digits := (digits.reverse.dropWhile (· = '0')).reverse
  if digits = [] then "" else "." ++ String.ofList digits

/-- A number of `unit`s, of which one is `10 ^ width` times what `v` counts. -/
def scaled (v width : Nat) (unit : String) : String :=
  toString (v / 10 ^ width) ++ fraction (v % 10 ^ width) width ++ unit

/-- `d.String()` -/
def durationText (d : Int) : String :=
  let u := d.natAbs
  let text :=
    if u = 0 then "0s"
    else if u < 1000 then scaled u 0 "ns"
    else if u < 1000000 then scaled u 3 "\u00b5s"
    else if u < 1000000000 then scaled u 6 "ms"
    else
      let whole := u / 1000000000
      let seconds := toString (whole % 60) ++ fraction (u % 1000000000) 9 ++ "s"
      if whole < 60 then seconds
      else if whole < 3600 then toString (whole / 60) ++ "m" ++ seconds
      else toString (whole / 3600) ++ "h" ++ toString (whole / 60 % 60) ++ "m" ++ seconds
  if d < 0 then "-" ++ text else text

example : durationText 5400500000000 = "1h30m0.5s" := by decide +kernel

end OctoConv
