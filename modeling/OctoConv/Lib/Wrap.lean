import Mathlib.Algebra.Order.Ring.Int

/-!
# Numbers that wrap around

A number of a fixed width holds what is computed up to a multiple of the width's count of numbers,
in the range around zero. Here the cut number is compared with the one that was to be computed.

Main results:

* `bmod_le_self` : a number that is not negative does not grow when it is cut;
* `le_bmod_of_lt` : a number below the range or in it does not shrink;
* `bmod_le_sub` : a number above the range loses at least one round.
-/

namespace Wrap

variable {x : Int} {m : Nat}

/-- A number below the end of the range does not shrink. -/
theorem le_bmod_of_lt (hm : 0 < m) (hx : 2 * x < m) : x ≤ x.bmod m := by
  have hlow : -((m : Int) / 2) ≤ x.bmod m := Int.le_bmod hm
  rcases lt_or_ge (x.bmod m) x with hlt | hge
  · -- it would lose a round, and leave the range at its lower end
    have hround : (m : Int) ≤ x - x.bmod m := Int.le_of_dvd (by omega) Int.dvd_self_sub_bmod
    omega
  · exact hge

/-- A number above the range loses at least one round. -/
theorem bmod_le_sub (hm : 0 < m) (hx : m ≤ 2 * x) : x.bmod m ≤ x - m := by
  have hhigh : x.bmod m < ((m : Int) + 1) / 2 := Int.bmod_lt hm
  have hround : (m : Int) ≤ x - x.bmod m := Int.le_of_dvd (by omega) Int.dvd_self_sub_bmod
  omega

/-- A number that is not negative does not grow. -/
theorem bmod_le_self (hm : 0 < m) (hx : 0 ≤ x) : x.bmod m ≤ x := by
  rcases lt_or_ge (2 * x) m with hlt | hge
  · exact (Int.bmod_eq_of_le (by omega) (by omega)).le
  · have hsub := bmod_le_sub hm hge
    omega

/-- A positive number that is cut to zero is a round at least. -/
theorem le_of_bmod_eq_zero (h : x.bmod m = 0) (hx : 0 < x) : (m : Int) ≤ x :=
  Int.le_of_dvd hx (Int.dvd_of_bmod_eq_zero h)

end Wrap
