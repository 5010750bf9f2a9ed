import Mathlib.Data.List.Induction
import Mathlib.Tactic.Ring

/-!
# Byte strings with checked access

A byte string as a list, with the two accesses that may fail at run time: an index and a slice. A
computation over them is an `Option` whose `none` is the run-time panic, so that a bounds argument is a
proof that the computation is not `none`.

## Main results

* `index_append`, `slice_append` — an access behind a prefix is the access into the rest.
* `be_lt` — a number of `n` bytes is below `256 ^ n`.
* `be_ofBE`, `ofBE_be` — reading and writing a number.
-/

namespace Conc

/-- A byte string. -/
abbrev Bytes := List UInt8

namespace Bytes

/-- The bytes of an ASCII text. -/
def ascii (s : String) : Bytes := s.toList.map fun c => UInt8.ofNat c.toNat

/-- `b[i]`; none if the index is out of range. -/
def index (b : Bytes) (i : Nat) : Option UInt8 := b[i]?

/-- `b[lo:hi]`; none if the bounds are out of range. -/
def slice (b : Bytes) (lo hi : Nat) : Option Bytes :=
  if lo ≤ hi ∧ hi ≤ b.length then some ((b.drop lo).take (hi - lo)) else none

/-- The number that the bytes write, the most significant one first. -/
def be (b : Bytes) : Nat := b.foldl (fun n c => n * 256 + c.toNat) 0

/-- The number that the bytes write, the least significant one first. -/
def le (b : Bytes) : Nat := be b.reverse

/-! ## Access in range -/

/-- An index in the bounds finds its byte. -/
theorem index_of_lt {b : Bytes} {i : Nat} (h : i < b.length) : index b i = some b[i] :=
  List.getElem?_eq_getElem h

/-- A slice in the bounds is what is between them. -/
theorem slice_of_le {b : Bytes} {lo hi : Nat} (h : lo ≤ hi) (hlen : hi ≤ b.length) :
    slice b lo hi = some ((b.drop lo).take (hi - lo)) :=
  if_pos ⟨h, hlen⟩

/-- A slice is as long as its bounds are apart, and within the bytes. -/
theorem length_of_slice {b s : Bytes} {lo hi : Nat} (h : slice b lo hi = some s) :
    s.length = hi - lo ∧ hi ≤ b.length ∧ lo ≤ hi := by
  unfold slice at h
  split at h
  · rename_i hle
    obtain rfl : (b.drop lo).take (hi - lo) = s := by simpa using h
    refine ⟨?_, hle.2, hle.1⟩
    rw [List.length_take, List.length_drop]
    omega
  · exact absurd h (by simp)

/-! ## Access behind a prefix -/

/-- An index behind a prefix is one of the rest. -/
theorem index_append (p b : Bytes) (i : Nat) : index (p ++ b) (p.length + i) = index b i := by
  unfold index
  rw [List.getElem?_append_right (by omega)]
  congr 1
  omega

/-- So is a slice. -/
theorem slice_append (p b : Bytes) (lo hi : Nat) :
    slice (p ++ b) (p.length + lo) (p.length + hi) = slice b lo hi := by
  unfold slice
  have hcond : (p.length + lo ≤ p.length + hi ∧ p.length + hi ≤ (p ++ b).length) ↔
      lo ≤ hi ∧ hi ≤ b.length := by
    rw [List.length_append]
    omega
  have hdrop : (p ++ b).drop (p.length + lo) = b.drop lo := by
    rw [← List.drop_drop, List.drop_left]
  have hlen : p.length + hi - (p.length + lo) = hi - lo := by omega
  simp only [hcond, hdrop, hlen]

/-- The whole of a prefix. -/
theorem slice_prefix (p b : Bytes) : slice (p ++ b) 0 p.length = some p := by
  rw [slice_of_le (by omega) (by rw [List.length_append]; omega)]
  simp

/-! ## Numbers -/

/-- A number is that of its first bytes, shifted, and of its last ones. -/
theorem be_append (a b : Bytes) : be (a ++ b) = be a * 256 ^ b.length + be b := by
  have hfold : ∀ (b : Bytes) (n : Nat),
      b.foldl (fun n c => n * 256 + c.toNat) n = n * 256 ^ b.length + be b := by
    intro b
    induction b with
    | nil => simp [be]
    | cons c b ih =>
      intro n
      unfold be at *
      rw [List.foldl_cons, List.foldl_cons, ih, ih (0 * 256 + c.toNat), List.length_cons, pow_succ]
      ring
  unfold be
  rw [List.foldl_append, hfold]
  rfl

/-- A number of `n` bytes is below `256 ^ n`. -/
theorem be_lt (b : Bytes) : be b < 256 ^ b.length := by
  induction b using List.reverseRecOn with
  | nil => simp [be]
  | append_singleton b c ih =>
    rw [be_append, List.length_append, List.length_singleton, pow_one, pow_succ]
    have hc : be [c] < 256 := by
      simpa [be] using c.toNat_lt
    omega

/-- The `width` bytes that write `n`, the most significant one first. -/
def ofBE : Nat → Nat → Bytes
  | 0, _ => []
  | width + 1, n => ofBE width (n / 256) ++ [UInt8.ofNat (n % 256)]

/-- A number is encoded in as many bytes as it was given. -/
@[simp] theorem length_ofBE (width n : Nat) : (ofBE width n).length = width := by
  induction width generalizing n with
  | zero => rfl
  | succ width ih => rw [ofBE, List.length_append, ih, List.length_singleton]

/-- Reading what was written. -/
theorem be_ofBE {width n : Nat} (h : n < 256 ^ width) : be (ofBE width n) = n := by
  induction width generalizing n with
  | zero =>
    obtain rfl : n = 0 := by simpa using h
    rfl
  | succ width ih =>
    have hdiv : n / 256 < 256 ^ width := by
      rw [pow_succ] at h
      exact Nat.div_lt_of_lt_mul (by omega)
    have hlast : be [UInt8.ofNat (n % 256)] = n % 256 := by
      have hmod : n % 256 < 256 := Nat.mod_lt _ (by decide)
      simp [be, Nat.mod_eq_of_lt hmod]
    rw [ofBE, be_append, ih hdiv, hlast, List.length_singleton, pow_one]
    omega

/-- A number of `n` bytes is written with them. -/
theorem ofBE_be (b : Bytes) : ofBE b.length (be b) = b := by
  induction b using List.reverseRecOn with
  | nil => rfl
  | append_singleton b c ih =>
    have hc : be [c] = c.toNat := by simp [be]
    have hlt : c.toNat < 256 := c.toNat_lt
    have hdiv : (be b * 256 + c.toNat) / 256 = be b := by omega
    have hmod : (be b * 256 + c.toNat) % 256 = c.toNat := by omega
    rw [be_append, List.length_append, List.length_singleton, pow_one, hc, ofBE, hdiv, hmod, ih]
    simp

end Bytes

end Conc
