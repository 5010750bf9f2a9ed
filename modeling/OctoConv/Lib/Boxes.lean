import OctoConv.Lib.Bytes

/-!
# The ISO base media file format

A file of this format is a sequence of boxes. A box is its size, its type of four bytes and its payload;
the size is a number of 32 bits, or 1 and then a number of 64 bits behind the type.

## Main results

* `Box.length_encode` — where a box ends.
* `Leads.contains` — the first box of a type is one of the boxes.
-/

namespace Conc

/-- A box, with the width of its size field. -/
structure Box where
  type : Bytes
  payload : Bytes
  /-- The size is written with 64 bits. -/
  wide : Bool
  length_type : type.length = 4
  fits : if wide then 16 + payload.length < 2 ^ 64 else 8 + payload.length < 2 ^ 32

namespace Box

/-- The bytes of a box before its payload. -/
def header (x : Box) : Bytes :=
  if x.wide then Bytes.ofBE 4 1 ++ x.type ++ Bytes.ofBE 8 (16 + x.payload.length)
  else Bytes.ofBE 4 (8 + x.payload.length) ++ x.type

/-- The bytes of a box. -/
def encode (x : Box) : Bytes := x.header ++ x.payload

/-- The length of a header. -/
theorem length_header (x : Box) : x.header.length = if x.wide then 16 else 8 := by
  unfold header
  split
  · simp [x.length_type]
  · simp [x.length_type]

/-- The length of a box. -/
theorem length_encode (x : Box) :
    x.encode.length = (if x.wide then 16 else 8) + x.payload.length := by
  rw [encode, List.length_append, length_header]

/-- The byte string begins with these boxes. -/
def Prefix (b : Bytes) (xs : List Box) : Prop := xs.flatMap encode <+: b

/-- Fewer boxes are a beginning too. -/
theorem Prefix.take {b : Bytes} {xs ys : List Box} (h : Prefix b (xs ++ ys)) : Prefix b xs := by
  unfold Prefix at *
  rw [List.flatMap_append] at h
  exact (List.prefix_append _ _).trans h

end Box

/-- A box of this type and payload lies in the well-formed beginning of the byte string. -/
def Contains (b type payload : Bytes) : Prop :=
  ∃ xs, Box.Prefix b xs ∧ ∃ x ∈ xs, x.type = type ∧ x.payload = payload

/-- The first box of this type with at least `n` bytes in the well-formed beginning has this payload. -/
def Leads (b type : Bytes) (n : Nat) (payload : Bytes) : Prop :=
  ∃ xs x, Box.Prefix b (xs ++ [x]) ∧ (x.type = type ∧ n ≤ x.payload.length) ∧ x.payload = payload ∧
    ∀ y ∈ xs, ¬ (y.type = type ∧ n ≤ y.payload.length)

/-- A payload that leads is contained. -/
theorem Leads.contains {b type payload : Bytes} {n : Nat} (h : Leads b type n payload) :
    Contains b type payload := by
  obtain ⟨xs, x, hstarts, htype, hpayload, -⟩ := h
  exact ⟨xs ++ [x], hstarts, x, by simp, htype.1, hpayload⟩

end Conc
