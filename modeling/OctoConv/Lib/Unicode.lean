import Mathlib.Data.List.Basic
import Mathlib.Order.Monotone.Basic
import Mathlib.Data.Nat.Basic
import Mathlib.Order.Nat

/-!
# Lower case, white space and printing in Unicode

The two properties of a character that a text-cleaning function needs: whether it is white space,
and its simple lower case. And the one that quoting a text needs: whether it is printed as it is. The
tables are those of the Unicode character database, as ranges of code points.

Main results:

* `toLower_toLower` : a lower case is its own lower case;
* `toLower_eq_iff` : a character without case is the lower case of itself only;
* `isSpace_toLower` : lower case neither makes nor removes white space.
-/

namespace Unicode

/-! ## White space -/

/-- The code points of the `White_Space` property. -/
def spaceCodes : List Nat :=
  [0x0009, 0x000A, 0x000B, 0x000C, 0x000D, 0x0020, 0x0085, 0x00A0, 0x1680, 0x2000, 0x2001, 0x2002,
    0x2003, 0x2004, 0x2005, 0x2006, 0x2007, 0x2008, 0x2009, 0x200A, 0x2028, 0x2029, 0x202F, 0x205F,
    0x3000]

/-- Whether a character is white space. -/
def isSpace (c : Char) : Bool := spaceCodes.contains c.toNat

/-! ## Characters that are printed -/

/-- The code points beyond ASCII of the control and format characters, the separators and the private
use areas, as ranges with their ends. -/
def unprintedRanges : List (Nat × Nat) :=
  [(0x0080, 0x00A0), (0x00AD, 0x00AD), (0x0600, 0x0605), (0x061C, 0x061C), (0x06DD, 0x06DD),
    (0x070F, 0x070F), (0x0890, 0x0891), (0x08E2, 0x08E2), (0x1680, 0x1680), (0x180E, 0x180E),
    (0x2000, 0x200F), (0x2028, 0x202F), (0x205F, 0x2064), (0x2066, 0x206F), (0x3000, 0x3000),
    (0xE000, 0xF8FF), (0xFDD0, 0xFDEF), (0xFEFF, 0xFEFF), (0xFFF9, 0xFFFB), (0x110BD, 0x110BD),
    (0x110CD, 0x110CD), (0x13430, 0x1343F), (0x1BCA0, 0x1BCA3), (0x1D173, 0x1D17A),
    (0xE0001, 0xE0001), (0xE0020, 0xE007F), (0xF0000, 0xFFFFD), (0x100000, 0x10FFFD)]

/-- Whether a character is printed as it is. A code point that no character has been given yet counts as
one that is. -/
def isPrint (c : Char) : Bool :=
  32 ≤ c.toNat && c.toNat != 127 && c.toNat % 0x10000 < 0xFFFE &&
    unprintedRanges.all fun r => Nat.blt c.toNat r.1 || Nat.blt r.2 c.toNat

/-! ## Ranges of the case table -/

/-- A range of code points whose lower cases follow one rule. -/
structure CaseRange where
  /-- The first code point of the range. -/
  lo : Nat
  /-- The last code point of the range. -/
  hi : Nat
  /-- The lower case of a code point of the range. -/
  lower : Nat → Nat
  /-- The rule keeps the order of the code points. -/
  monotone : Monotone lower

namespace CaseRange

/-- A range of capital letters, each `delta` below its lower case. -/
def shift (lo hi : Nat) (delta : Int) : CaseRange where
  lo := lo
  hi := hi
  lower n := ((n : Int) + delta).toNat
  monotone n m h := by
    dsimp only
    omega

/-- A range in which capital and small letters alternate, from a capital letter on. -/
def alternating (lo hi : Nat) : CaseRange where
  lo := lo
  hi := hi
  lower n := n + (1 - (n - lo) % 2)
  monotone n m h := by
    dsimp only
    omega

variable (r : CaseRange)

/-- Whether a code point is in the range. -/
def contains (n : Nat) : Bool := Nat.ble r.lo n && Nat.ble n r.hi

/-- The code points of the range. -/
def codes : List Nat := List.range' r.lo (r.hi - r.lo + 1)

/-- Whether a code point is outside the lower cases of the range by its size alone. -/
def outside (m : Nat) : Bool := Nat.blt m (r.lower r.lo) || Nat.blt (r.lower r.hi) m

/-- Whether a lower case of the range is its own lower case as far as a second range tells. The
second clause is checked for each code point only when the two ranges meet. -/
def settledIn (r' : CaseRange) : Bool :=
  Nat.blt r'.hi (r.lower r.lo) || Nat.blt (r.lower r.hi) r'.lo ||
    r.codes.all fun n => !r'.contains (r.lower n) || Nat.beq (r'.lower (r.lower n)) (r.lower n)

/-- Whether a code point is neither in the range nor a lower case of it. -/
def avoids (m : Nat) : Bool :=
  !r.contains m && (r.outside m || r.codes.all fun n => !Nat.beq (r.lower n) m)

variable {r} {r' : CaseRange} {n m : Nat}

/-- A range contains the code points between its ends. -/
theorem contains_iff : r.contains n ↔ r.lo ≤ n ∧ n ≤ r.hi := by
  simp [contains]

/-- The code points that a range contains are its codes. -/
theorem mem_codes (h : r.contains n) : n ∈ r.codes := by
  rw [contains_iff] at h
  simp only [codes, List.mem_range'_1]
  omega

/-- The lower cases of a range lie between the lower cases of its ends. -/
theorem lower_mem (h : r.contains n) : r.lower r.lo ≤ r.lower n ∧ r.lower n ≤ r.lower r.hi := by
  rw [contains_iff] at h
  exact ⟨r.monotone h.1, r.monotone h.2⟩

/-- A range whose lower cases are settled in another has settled lower cases. -/
theorem lower_lower (hs : r.settledIn r') (h : r.contains n) (h' : r'.contains (r.lower n)) :
    r'.lower (r.lower n) = r.lower n := by
  have hb := lower_mem h
  have hc := contains_iff.1 h'
  simp only [settledIn, Bool.or_eq_true, Nat.blt_eq, List.all_eq_true, Bool.not_eq_true',
    Nat.beq_eq] at hs
  obtain (hs | hs) | hs := hs
  · omega
  · omega
  · obtain hn | hn := hs n (mem_codes h)
    · simp [h'] at hn
    · exact hn

/-- A range that avoids a code point has no lower case there. -/
theorem lower_ne (ha : r.avoids m) (h : r.contains n) : r.lower n ≠ m := by
  have hb := lower_mem h
  simp only [avoids, outside, Bool.and_eq_true, Bool.or_eq_true, Nat.blt_eq, List.all_eq_true,
    Bool.not_eq_true'] at ha
  obtain ⟨-, (ha | ha) | ha⟩ := ha
  · omega
  · omega
  · intro he
    have hn := ha n (mem_codes h)
    simp [he] at hn

/-- It does not contain it. -/
theorem avoids_contains (ha : r.avoids m) : r.contains m = false := by
  simp only [avoids, Bool.and_eq_true, Bool.not_eq_true'] at ha
  exact ha.1

end CaseRange

/-! ## The case table -/

/-- The code points that have a lower case other than themselves. -/
def caseRanges : List CaseRange := open CaseRange in [
  shift 0x0041 0x005A 32, shift 0x00C0 0x00D6 32, shift 0x00D8 0x00DE 32,
  alternating 0x0100 0x012F, shift 0x0130 0x0130 (-199), alternating 0x0132 0x0137,
  alternating 0x0139 0x0148, alternating 0x014A 0x0177, shift 0x0178 0x0178 (-121),
  alternating 0x0179 0x017E, shift 0x0181 0x0181 210, alternating 0x0182 0x0185,
  shift 0x0186 0x0186 206, shift 0x0187 0x0187 1, shift 0x0189 0x018A 205,
  shift 0x018B 0x018B 1, shift 0x018E 0x018E 79, shift 0x018F 0x018F 202,
  shift 0x0190 0x0190 203, shift 0x0191 0x0191 1, shift 0x0193 0x0193 205,
  shift 0x0194 0x0194 207, shift 0x0196 0x0196 211, shift 0x0197 0x0197 209,
  shift 0x0198 0x0198 1, shift 0x019C 0x019C 211, shift 0x019D 0x019D 213,
  shift 0x019F 0x019F 214, alternating 0x01A0 0x01A5, shift 0x01A6 0x01A6 218,
  shift 0x01A7 0x01A7 1, shift 0x01A9 0x01A9 218, shift 0x01AC 0x01AC 1,
  shift 0x01AE 0x01AE 218, shift 0x01AF 0x01AF 1, shift 0x01B1 0x01B2 217,
  alternating 0x01B3 0x01B6, shift 0x01B7 0x01B7 219, shift 0x01B8 0x01B8 1,
  shift 0x01BC 0x01BC 1, shift 0x01C4 0x01C4 2, shift 0x01C5 0x01C5 1, shift 0x01C7 0x01C7 2,
  shift 0x01C8 0x01C8 1, shift 0x01CA 0x01CA 2, alternating 0x01CB 0x01DC,
  alternating 0x01DE 0x01EF, shift 0x01F1 0x01F1 2, alternating 0x01F2 0x01F5,
  shift 0x01F6 0x01F6 (-97), shift 0x01F7 0x01F7 (-56), alternating 0x01F8 0x021F,
  shift 0x0220 0x0220 (-130), alternating 0x0222 0x0233, shift 0x023A 0x023A 10795,
  shift 0x023B 0x023B 1, shift 0x023D 0x023D (-163), shift 0x023E 0x023E 10792,
  shift 0x0241 0x0241 1, shift 0x0243 0x0243 (-195), shift 0x0244 0x0244 69,
  shift 0x0245 0x0245 71, alternating 0x0246 0x024F, alternating 0x0370 0x0373,
  shift 0x0376 0x0376 1, shift 0x037F 0x037F 116, shift 0x0386 0x0386 38,
  shift 0x0388 0x038A 37, shift 0x038C 0x038C 64, shift 0x038E 0x038F 63,
  shift 0x0391 0x03A1 32, shift 0x03A3 0x03AB 32, shift 0x03CF 0x03CF 8,
  alternating 0x03D8 0x03EF, shift 0x03F4 0x03F4 (-60), shift 0x03F7 0x03F7 1,
  shift 0x03F9 0x03F9 (-7), shift 0x03FA 0x03FA 1, shift 0x03FD 0x03FF (-130),
  shift 0x0400 0x040F 80, shift 0x0410 0x042F 32, alternating 0x0460 0x0481,
  alternating 0x048A 0x04BF, shift 0x04C0 0x04C0 15, alternating 0x04C1 0x04CE,
  alternating 0x04D0 0x052F, shift 0x0531 0x0556 48, shift 0x10A0 0x10C5 7264,
  shift 0x10C7 0x10C7 7264, shift 0x10CD 0x10CD 7264, shift 0x13A0 0x13EF 38864,
  shift 0x13F0 0x13F5 8, shift 0x1C90 0x1CBA (-3008), shift 0x1CBD 0x1CBF (-3008),
  alternating 0x1E00 0x1E95, shift 0x1E9E 0x1E9E (-7615), alternating 0x1EA0 0x1EFF,
  shift 0x1F08 0x1F0F (-8), shift 0x1F18 0x1F1D (-8), shift 0x1F28 0x1F2F (-8),
  shift 0x1F38 0x1F3F (-8), shift 0x1F48 0x1F4D (-8), shift 0x1F59 0x1F59 (-8),
  shift 0x1F5B 0x1F5B (-8), shift 0x1F5D 0x1F5D (-8), shift 0x1F5F 0x1F5F (-8),
  shift 0x1F68 0x1F6F (-8), shift 0x1F88 0x1F8F (-8), shift 0x1F98 0x1F9F (-8),
  shift 0x1FA8 0x1FAF (-8), shift 0x1FB8 0x1FB9 (-8), shift 0x1FBA 0x1FBB (-74),
  shift 0x1FBC 0x1FBC (-9), shift 0x1FC8 0x1FCB (-86), shift 0x1FCC 0x1FCC (-9),
  shift 0x1FD8 0x1FD9 (-8), shift 0x1FDA 0x1FDB (-100), shift 0x1FE8 0x1FE9 (-8),
  shift 0x1FEA 0x1FEB (-112), shift 0x1FEC 0x1FEC (-7), shift 0x1FF8 0x1FF9 (-128),
  shift 0x1FFA 0x1FFB (-126), shift 0x1FFC 0x1FFC (-9), shift 0x2126 0x2126 (-7517),
  shift 0x212A 0x212A (-8383), shift 0x212B 0x212B (-8262), shift 0x2132 0x2132 28,
  shift 0x2160 0x216F 16, shift 0x2183 0x2183 1, shift 0x24B6 0x24CF 26,
  shift 0x2C00 0x2C2F 48, shift 0x2C60 0x2C60 1, shift 0x2C62 0x2C62 (-10743),
  shift 0x2C63 0x2C63 (-3814), shift 0x2C64 0x2C64 (-10727), alternating 0x2C67 0x2C6C,
  shift 0x2C6D 0x2C6D (-10780), shift 0x2C6E 0x2C6E (-10749), shift 0x2C6F 0x2C6F (-10783),
  shift 0x2C70 0x2C70 (-10782), shift 0x2C72 0x2C72 1, shift 0x2C75 0x2C75 1,
  shift 0x2C7E 0x2C7F (-10815), alternating 0x2C80 0x2CE3, alternating 0x2CEB 0x2CEE,
  shift 0x2CF2 0x2CF2 1, alternating 0xA640 0xA66D, alternating 0xA680 0xA69B,
  alternating 0xA722 0xA72F, alternating 0xA732 0xA76F, alternating 0xA779 0xA77C,
  shift 0xA77D 0xA77D (-35332), alternating 0xA77E 0xA787, shift 0xA78B 0xA78B 1,
  shift 0xA78D 0xA78D (-42280), alternating 0xA790 0xA793, alternating 0xA796 0xA7A9,
  shift 0xA7AA 0xA7AA (-42308), shift 0xA7AB 0xA7AB (-42319), shift 0xA7AC 0xA7AC (-42315),
  shift 0xA7AD 0xA7AD (-42305), shift 0xA7AE 0xA7AE (-42308), shift 0xA7B0 0xA7B0 (-42258),
  shift 0xA7B1 0xA7B1 (-42282), shift 0xA7B2 0xA7B2 (-42261), shift 0xA7B3 0xA7B3 928,
  alternating 0xA7B4 0xA7C3, shift 0xA7C4 0xA7C4 (-48), shift 0xA7C5 0xA7C5 (-42307),
  shift 0xA7C6 0xA7C6 (-35384), alternating 0xA7C7 0xA7CA, shift 0xA7D0 0xA7D0 1,
  alternating 0xA7D6 0xA7D9, shift 0xA7F5 0xA7F5 1, shift 0xFF21 0xFF3A 32,
  shift 0x10400 0x10427 40, shift 0x104B0 0x104D3 40, shift 0x10570 0x1057A 39,
  shift 0x1057C 0x1058A 39, shift 0x1058C 0x10592 39, shift 0x10594 0x10595 39,
  shift 0x10C80 0x10CB2 64, shift 0x118A0 0x118BF 32, shift 0x16E40 0x16E5F 32,
  shift 0x1E900 0x1E921 34]

/-- The simple lower case of a code point. An ASCII character that is no capital letter is answered
without the table. -/
def lowerCode (n : Nat) : Nat :=
  if Nat.blt n 0x80 && !(Nat.ble 0x41 n && Nat.ble n 0x5A) then n
  else
    match caseRanges.find? fun r => r.contains n with
    | some r => r.lower n
    | none => n

/-- The simple lower case of a character. -/
def toLower (c : Char) : Char := Char.ofNat (lowerCode c.toNat)

/-- Every lower case of the table is its own lower case. -/
theorem caseRanges_settled : caseRanges.all (fun r => caseRanges.all r.settledIn) = true := by
  decide +kernel

/-- Every lower case of the table is a Unicode scalar value. -/
theorem caseRanges_valid :
    caseRanges.all (fun r => r.codes.all fun n => decide (r.lower n).isValidChar) = true := by
  decide +kernel

/-- What the lower case of a code point is: the one of its range, or the code point itself. -/
theorem lowerCode_cases (n : Nat) :
    (∃ r ∈ caseRanges, r.contains n ∧ lowerCode n = r.lower n) ∨ lowerCode n = n := by
  unfold lowerCode
  split
  · exact .inr rfl
  · split
    · rename_i r hr
      exact .inl ⟨r, List.mem_of_find?_eq_some hr, by simpa using List.find?_some hr, rfl⟩
    · exact .inr rfl

/-- The lower case of a code point is settled. -/
theorem lowerCode_lowerCode (n : Nat) : lowerCode (lowerCode n) = lowerCode n := by
  obtain ⟨r, hr, hn, he⟩ | he := lowerCode_cases n
  · obtain ⟨r', hr', hn', he'⟩ | he' := lowerCode_cases (lowerCode n)
    · rw [he', he]
      rw [he] at hn'
      have hs := List.all_eq_true.1 (List.all_eq_true.1 caseRanges_settled r hr) r' hr'
      exact CaseRange.lower_lower hs hn hn'
    · exact he'
  · rw [he, he]

/-- It is that of a character. -/
theorem lowerCode_valid {n : Nat} (h : n.isValidChar) : (lowerCode n).isValidChar := by
  obtain ⟨r, hr, hn, he⟩ | he := lowerCode_cases n
  · rw [he]
    have hv := List.all_eq_true.1 (List.all_eq_true.1 caseRanges_valid r hr) n
      (CaseRange.mem_codes hn)
    exact of_decide_eq_true hv
  · rwa [he]

/-- The lower case of a character, as a code point. -/
@[simp] theorem toNat_toLower (c : Char) : (toLower c).toNat = lowerCode c.toNat := by
  have hv : (lowerCode c.toNat).isValidChar := lowerCode_valid c.valid
  rw [toLower, Char.ofNat, dif_pos hv]
  rfl

/-- A lower case is its own lower case. -/
@[simp] theorem toLower_toLower (c : Char) : toLower (toLower c) = toLower c := by
  apply Char.toNat_inj.1
  rw [toNat_toLower, toNat_toLower, lowerCode_lowerCode]

/-! ## Characters without case -/

/-- Whether a code point is outside the case table, on both sides. -/
def caseless (m : Nat) : Bool := caseRanges.all fun r => r.avoids m

/-- A code point without case is the lower case of itself only. -/
theorem lowerCode_eq_iff {n m : Nat} (h : caseless m) : lowerCode n = m ↔ n = m := by
  have ha := List.all_eq_true.1 h
  constructor
  · intro hl
    obtain ⟨r, hr, hn, he⟩ | he := lowerCode_cases n
    · exact absurd (he.symm.trans hl) (CaseRange.lower_ne (ha r hr) hn)
    · exact he.symm.trans hl
  · rintro rfl
    obtain ⟨r, hr, hn, -⟩ | he := lowerCode_cases n
    · rw [CaseRange.avoids_contains (ha r hr)] at hn
      cases hn
    · exact he

/-- So is a character. -/
theorem toLower_eq_iff {c d : Char} (h : caseless d.toNat) : toLower c = d ↔ c = d := by
  rw [← Char.toNat_inj, toNat_toLower, lowerCode_eq_iff h, Char.toNat_inj]

/-- White space has no case. -/
theorem spaces_caseless : spaceCodes.all caseless = true := by
  decide +kernel

/-- Lower case neither makes nor removes white space. -/
@[simp] theorem isSpace_toLower (c : Char) : isSpace (toLower c) = isSpace c := by
  rw [Bool.eq_iff_iff]
  simp only [isSpace, List.contains_iff_mem, toNat_toLower]
  constructor
  · intro h
    have hc := List.all_eq_true.1 spaces_caseless _ h
    rwa [(lowerCode_eq_iff hc).1 rfl]
  · intro h
    have hc := List.all_eq_true.1 spaces_caseless _ h
    rwa [(lowerCode_eq_iff hc).2 rfl]

end Unicode
