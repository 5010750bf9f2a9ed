import OctoConv.Lib.Bytes

/-!
# Variable-length integers and the elements of EBML

A variable-length integer tells its length by the leading zero bits of its first byte; behind the marker
bit that ends them it has seven bits a byte. An element is an identifier, a size and a payload of that
size, and the first two are such integers: an identifier counts its marker bit, a size does not.

Main results:

* `isVint_cons` — the length is that of the first byte;
* `vintSize_cons` — the number behind the marker.
-/

namespace Conc

/-- The bytes are a variable-length integer: the highest bit of the seven a byte, and the marker above
them, is set, and none above it. -/
structure IsVint (bs : Bytes) : Prop where
  pos : 0 < bs.length
  length_le : bs.length ≤ 8
  marker : 2 ^ (7 * bs.length) ≤ bs.be
  below : bs.be < 2 ^ (7 * bs.length + 1)

/-- The number behind the marker. -/
def vintSize (bs : Bytes) : Nat := bs.be - 2 ^ (7 * bs.length)

/-- An element with its two integers as they are written. -/
structure Element where
  id : Bytes
  size : Bytes
  payload : Bytes
  id_vint : IsVint id
  id_length : id.length ≤ 4
  size_vint : IsVint size
  fits : vintSize size = payload.length

/-- The bytes of an element. -/
def Element.encode (e : Element) : Bytes := e.id ++ (e.size ++ e.payload)

/-- An element is as long as its parts. -/
theorem Element.length_encode (e : Element) :
    e.encode.length = e.id.length + e.size.length + e.payload.length := by
  rw [encode, List.length_append, List.length_append, Nat.add_assoc]

/-- It is not empty. -/
theorem Element.encode_pos (e : Element) : 0 < e.encode.length := by
  have hpos := e.id_vint.pos
  rw [e.length_encode]
  omega

/-- The first byte of a number counts most. -/
theorem be_cons (first : UInt8) (tail : Bytes) :
    Bytes.be (first :: tail) = first.toNat * 256 ^ tail.length + Bytes.be tail := by
  have h := Bytes.be_append [first] tail
  rw [List.singleton_append] at h
  rw [h]
  simp [Bytes.be]

/-- The first byte is the number without the other bytes. -/
theorem be_div (first : UInt8) (tail : Bytes) :
    Bytes.be (first :: tail) / 256 ^ tail.length = first.toNat := by
  have hlt := Bytes.be_lt tail
  rw [be_cons, Nat.mul_comm, Nat.mul_add_div (Nat.pow_pos (by decide)), Nat.div_eq_of_lt hlt,
    Nat.add_zero]

/-- The marker of a number, shifted behind its bytes. -/
theorem pow_marker {n k : Nat} (hn : n + 1 ≤ 8 + k) :
    2 ^ (8 + k - (n + 1)) * 256 ^ n = 2 ^ (7 * (n + 1) + k) := by
  rw [show 256 = 2 ^ 8 from rfl, ← Nat.pow_mul, ← Nat.pow_add]
  congr 1
  omega

/-- The length is that of the first byte. -/
theorem isVint_cons {first : UInt8} {tail : Bytes} :
    IsVint (first :: tail) ↔ tail.length + 1 ≤ 8 ∧ 2 ^ (8 - (tail.length + 1)) ≤ first.toNat ∧
      first.toNat < 2 ^ (9 - (tail.length + 1)) := by
  have hpos : 0 < 256 ^ tail.length := Nat.pow_pos (by decide)
  have hmarker : tail.length + 1 ≤ 8 →
      (2 ^ (8 - (tail.length + 1)) ≤ first.toNat ↔
        2 ^ (7 * (tail.length + 1)) ≤ Bytes.be (first :: tail)) := by
    intro hle
    rw [← be_div first tail, Nat.le_div_iff_mul_le hpos, pow_marker (k := 0) hle, Nat.add_zero]
  have hbelow : tail.length + 1 ≤ 8 →
      (first.toNat < 2 ^ (9 - (tail.length + 1)) ↔
        Bytes.be (first :: tail) < 2 ^ (7 * (tail.length + 1) + 1)) := by
    intro hle
    rw [← be_div first tail, Nat.div_lt_iff_lt_mul hpos, pow_marker (k := 1) (by omega)]
  constructor
  · intro h
    have hle : tail.length + 1 ≤ 8 := h.length_le
    exact ⟨hle, (hmarker hle).mpr h.marker, (hbelow hle).mpr h.below⟩
  · rintro ⟨hle, hfirst, hfirst'⟩
    exact ⟨Nat.succ_pos _, hle, (hmarker hle).mp hfirst, (hbelow hle).mp hfirst'⟩

/-- The number behind the marker, from the bits of the first byte below it. -/
theorem vintSize_cons {first : UInt8} {tail : Bytes} (h : IsVint (first :: tail)) :
    vintSize (first :: tail) =
      first.toNat % 2 ^ (8 - (tail.length + 1)) * 256 ^ tail.length + Bytes.be tail := by
  obtain ⟨hle, hmarker, hbelow⟩ := isVint_cons.mp h
  have hpow : 2 ^ (9 - (tail.length + 1)) = 2 * 2 ^ (8 - (tail.length + 1)) := by
    rw [← Nat.pow_succ']
    congr 1
    omega
  have hmod : first.toNat % 2 ^ (8 - (tail.length + 1)) =
      first.toNat - 2 ^ (8 - (tail.length + 1)) := by
    rw [Nat.mod_eq_sub_mod hmarker, Nat.mod_eq_of_lt (by omega)]
  have hscaled : 2 ^ (8 - (tail.length + 1)) * 256 ^ tail.length ≤ first.toNat * 256 ^ tail.length :=
    Nat.mul_le_mul_right _ hmarker
  rw [vintSize, hmod, Nat.sub_mul, be_cons, List.length_cons, ← Nat.add_zero (7 * (tail.length + 1)),
    ← pow_marker (k := 0) hle]
  simp only [Nat.add_zero]
  omega

end Conc
