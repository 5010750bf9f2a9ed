import OctoConv.Base.Time
import Mathlib.Algebra.Group.Int.Defs
import Mathlib.Algebra.Group.Nat.Defs
import Mathlib.Data.List.Basic

/-!
# Environment variables

A process reads its knobs from the environment: whole numbers with `strconv.Atoi`, durations with
`time.ParseDuration`, each after cutting an inline comment off and with a default for what does not
parse. The helpers are copied into every package that needs them.

Source: `internal/queue/client.go` and `cmd/*/main.go`.
-/

namespace OctoConv

/-- The environment of a process: `os.Getenv`, empty for a variable that is not set. -/
abbrev Environ := String → String

/-! ## Numbers -/

/-- The number that a sequence of decimal digits writes. -/
def ofDigits (digits : List Char) : Nat :=
  digits.foldl (fun n c => n * 10 + (c.toNat - '0'.toNat)) 0

/-- The sign in front of a number, and the rest. -/
def splitSign : List Char → Bool × List Char
  | '-' :: l => (true, l)
  | '+' :: l => (false, l)
  | l => (false, l)

/-- `strconv.Atoi` -/
def atoi (s : String) : Option Int :=
  let (neg, digits) := splitSign s.toList
  let n := ofDigits digits
  if digits = [] ∨ ¬ digits.all Char.isDigit then none
  else if neg then if n ≤ 2 ^ 63 then some (-n) else none
  else if n < 2 ^ 63 then some n
  else none

/-! ## Durations -/

/-- The units of `time.ParseDuration` in nanoseconds. -/
def unitMap : List (String × Nat) :=
  [("ns", 1), ("us", 1000), ("\u00b5s", 1000), ("\u03bcs", 1000), ("ms", 1000000),
    ("s", 1000000000), ("m", 60000000000), ("h", 3600000000000)]

/-- The digits of a fraction as a number and the power of ten it is divided by; the digits that do
not fit in 63 bits are dropped. -/
def leadingFraction (digits : List Char) : Nat × Nat :=
  let step (x : Nat × Nat × Bool) (c : Char) : Nat × Nat × Bool :=
    let (f, scale, overflow) := x
    let y := f * 10 + (c.toNat - '0'.toNat)
    if overflow ∨ (2 ^ 63 - 1) / 10 < f ∨ 2 ^ 63 < y then (f, scale, true)
    else (y, scale * 10, false)
  let (f, scale, _) := digits.foldl step (0, 1, false)
  (f, scale)

/-- One number of a duration with its unit, and the rest. The fraction is an exact quotient rounded
down, where the library rounds it as a `float64`. -/
def durationTerm (s : List Char) : Option (Nat × List Char) :=
  let (whole, rest) := s.span Char.isDigit
  let (frac, rest) :=
    match rest with
    | '.' :: rest => rest.span Char.isDigit
    | rest => ([], rest)
  let (unit, rest) := rest.span fun c => c ≠ '.' && !c.isDigit
  let v := ofDigits whole
  if whole = [] ∧ frac = [] then none
  else
    match unitMap.find? fun e => e.1.toList = unit with
    | none => none
    | some (_, ns) =>
      let (f, scale) := leadingFraction frac
      let total := v * ns + f * ns / scale
      if 2 ^ 63 < v ∨ 2 ^ 63 / ns < v ∨ 2 ^ 63 < total then none else some (total, rest)

/-- The sum of the terms of a duration. Every term takes at least one character, so the length of
the text bounds their number. -/
def durationTerms : Nat → Nat → List Char → Option Nat
  | _, d, [] => some d
  | 0, _, _ :: _ => none
  | fuel + 1, d, s =>
    match durationTerm s with
    | none => none
    | some (v, rest) => if 2 ^ 63 < d + v then none else durationTerms fuel (d + v) rest

/-- `time.ParseDuration`, in nanoseconds. -/
def parseDuration (s : String) : Option Int :=
  let (neg, rest) := splitSign s.toList
  if rest = ['0'] then some 0
  else if rest = [] then none
  else
    match durationTerms rest.length 0 rest with
    | none => none
    | some d =>
      if neg then some (-d)
      else if 2 ^ 63 - 1 < d then none
      else some d

example : parseDuration "-1h2.5m" = some (-3750000000000) := by decide

/-! ## Reading a variable -/

/-- Source: `client.go` firstField -/
def firstField (s : String) : String :=
  String.ofList (s.toList.takeWhile fun c => c ≠ ' ' && c ≠ '\t')

/-- Source: `client.go` envInt -/
def envInt (env : Environ) (key : String) (dflt : Int) : Int :=
  if env key ≠ "" then (atoi (firstField (env key))).getD dflt else dflt

/-- Source: `client.go` envDuration -/
def envDuration (env : Environ) (key : String) (dflt : Int) : Int :=
  if env key ≠ "" then (parseDuration (firstField (env key))).getD dflt else dflt

end OctoConv
