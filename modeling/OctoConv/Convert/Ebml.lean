import OctoConv.Lib.Bytes

/-!
# The header of mkv and webm

Both containers begin with the same magic number; the document type is an element of the header that
follows. The walk over the elements ends at the first document type, or when an element does not fit
into the bytes that were peeked.

Source: `internal/convert/avsniff.go`.

## Main results

* `readIDVint_pos`, `readSizeVint_pos` — a variable-length integer takes at least one byte, so the walk
  ends.
-/

namespace OctoConv

open Conc

/-- Source: `avsniff.go` ebmlMagic -/
def ebmlMagic : Bytes := [0x1A, 0x45, 0xDF, 0xA3]

/-- Source: `avsniff.go` ebmlDocTypeID -/
def ebmlDocTypeID : Nat := 0x4282

/-- The length of a variable-length integer with this first byte, or 0.

Source: `avsniff.go` vintLen -/
def vintLen (first : UInt8) : Nat :=
  match (List.range 8).find? fun i => first.toNat &&& (0x80 >>> i) ≠ 0 with
  | some i => i + 1
  | none => 0

/-- A size and its length. The outer `none` is an access out of range. A size is below 2^56, so no
sum of offsets and sizes wraps around in 64 bits.

Source: `avsniff.go` readSizeVint -/
def readSizeVint (buf : Bytes) (pos : Nat) : Option (Option (Nat × Nat)) :=
  if buf.length ≤ pos then some none
  else do
    let first ← buf.index pos
    let n := vintLen first
    if n = 0 ∨ buf.length < pos + n then some none
    else
      let tail ← buf.slice (pos + 1) (pos + n)
      some (some (tail.foldl (fun value x => value * 256 + x.toNat) (first.toNat % (1 <<< (8 - n))), n))

/-- An element's id, with its length marker, and its length.

Source: `avsniff.go` readIDVint -/
def readIDVint (buf : Bytes) (pos : Nat) : Option (Option (Nat × Nat)) :=
  if buf.length ≤ pos then some none
  else do
    let first ← buf.index pos
    let n := vintLen first
    if n = 0 ∨ 4 < n ∨ buf.length < pos + n then some none
    else
      let id ← buf.slice pos (pos + n)
      some (some (id.be, n))

/-- A size takes a byte at least. -/
theorem readSizeVint_pos {buf : Bytes} {pos value n : Nat}
    (h : readSizeVint buf pos = some (some (value, n))) : 0 < n := by
  unfold readSizeVint at h
  split at h
  · exact absurd h (by simp)
  rw [Option.bind_eq_bind] at h
  obtain ⟨first, -, h⟩ := Option.bind_eq_some_iff.mp h
  dsimp only at h
  split at h
  · exact absurd h (by simp)
  rename_i hn
  obtain ⟨tail, -, h⟩ := Option.bind_eq_some_iff.mp h
  simp only [Option.some.injEq, Prod.mk.injEq] at h
  omega

/-- So does an id. -/
theorem readIDVint_pos {buf : Bytes} {pos id n : Nat} (h : readIDVint buf pos = some (some (id, n))) :
    0 < n := by
  unfold readIDVint at h
  split at h
  · exact absurd h (by simp)
  rw [Option.bind_eq_bind] at h
  obtain ⟨first, -, h⟩ := Option.bind_eq_some_iff.mp h
  dsimp only at h
  split at h
  · exact absurd h (by simp)
  rename_i hn
  obtain ⟨b, -, h⟩ := Option.bind_eq_some_iff.mp h
  simp only [Option.some.injEq, Prod.mk.injEq] at h
  omega

/-- The loop of matchEBML. -/
def walkEBML (buf : Bytes) (stop pos : Nat) : Option (Option String) :=
  if hlt : pos < stop then
    match h : readIDVint buf pos with
    | none => none
    | some none => some none
    | some (some (id, idLen)) =>
      match readSizeVint buf (pos + idLen) with
      | none => none
      | some none => some none
      | some (some (size, sizeLen)) =>
        let start := pos + idLen + sizeLen
        if buf.length < start + size then some none
        else if id = ebmlDocTypeID then
          (buf.slice start (start + size)).map fun docType =>
            if docType = Bytes.ascii "matroska" then some "mkv"
            else if docType = Bytes.ascii "webm" then some "webm"
            else none
        else
          have : stop - (start + size) < stop - pos := by
            have hpos := readIDVint_pos h
            omega
          walkEBML buf stop (start + size)
  else some none
termination_by stop - pos

/-- Source: `avsniff.go` matchEBML -/
def matchEBML (buf : Bytes) : Option (Option String) :=
  if buf.length < 5 ∨ buf.take 4 ≠ ebmlMagic then some none
  else
    match readSizeVint buf 4 with
    | none => none
    | some none => some none
    | some (some (headerSize, sizeLen)) =>
      let pos := 4 + sizeLen
      let stop := if pos + headerSize < buf.length then pos + headerSize else buf.length
      walkEBML buf stop pos

end OctoConv
