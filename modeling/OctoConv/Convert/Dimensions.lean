import OctoConv.Convert.Formats
import OctoConv.Lib.Boxes

/-!
# Declared image dimensions

The width and height that an image declares, from the first 64 KiB of its bytes. Every parser is a
computation with checked access: its outer `none` is a run-time panic, its inner `none` the `false` that
the Go function returns.

Source: `internal/convert/dimensions.go`.
-/

namespace OctoConv

open Conc

/-- The declared width and height. -/
abbrev Dims := Nat × Nat

/-- A parser of declared dimensions. -/
abbrev DimensionParser := Bytes → Option (Option Dims)

/-- Source: `dimensions.go` dimPeekLen -/
def dimPeekLen : Nat := 64 * 1024

/-! ## PNG -/

/-- Source: `dimensions.go` pngDimensions -/
def pngDimensions (b : Bytes) : Option (Option Dims) :=
  if b.length < 24 then some none
  else do
    let tag ← b.slice 12 16
    if tag ≠ Bytes.ascii "IHDR" then some none
    else
      let width ← b.slice 16 20
      let height ← b.slice 20 24
      some (some (width.be, height.be))

/-! ## WebP -/

/-- Source: `dimensions.go` webpDimensions -/
def webpDimensions (b : Bytes) : Option (Option Dims) :=
  if b.length < 20 then some none
  else do
    let riff ← b.slice 0 4
    let webp ← b.slice 8 12
    if riff ≠ Bytes.ascii "RIFF" ∨ webp ≠ Bytes.ascii "WEBP" then some none
    else
      let fourCC ← b.slice 12 16
      if fourCC = Bytes.ascii "VP8X" then
        if b.length < 30 then some none
        else
          let width ← b.slice 24 27
          let height ← b.slice 27 30
          some (some (width.le + 1, height.le + 1))
      else if fourCC = Bytes.ascii "VP8 " then
        if b.length < 30 then some none
        else
          let start ← b.slice 23 26
          if start ≠ [0x9D, 0x01, 0x2A] then some none
          else
            let width ← b.slice 26 28
            let height ← b.slice 28 30
            some (some (width.le % 2 ^ 14, height.le % 2 ^ 14))
      else if fourCC = Bytes.ascii "VP8L" then
        if b.length < 25 then some none
        else
          let signature ← b.index 20
          if signature ≠ 0x2F then some none
          else
            let bits ← b.slice 21 25
            some (some (bits.le % 2 ^ 14 + 1, bits.le / 2 ^ 14 % 2 ^ 14 + 1))
      else some none

/-! ## JPEG -/

/-- A start-of-frame marker; DHT, JPG and DAC lie in its range. -/
def isSOF (marker : UInt8) : Bool :=
  0xC0 ≤ marker && marker ≤ 0xCF && marker ≠ 0xC4 && marker ≠ 0xC8 && marker ≠ 0xCC

/-- A marker without a length field: TEM, RSTn. -/
def isStandalone (marker : UInt8) : Bool := marker = 0x01 || (0xD0 ≤ marker && marker ≤ 0xD7)

/-- What the marker scan does at one position. -/
inductive JpegStep
  /-- Go on at this position. -/
  | next (i : Nat)
  /-- Return. -/
  | done (r : Option Dims)
deriving DecidableEq

/-- The body of the marker scan at position `i`.

Source: `dimensions.go` jpegDimensions -/
def jpegStep (b : Bytes) (i : Nat) : Option JpegStep := do
  let x ← b.index i
  if x ≠ 0xFF then some (.next (i + 1))
  else
    let marker ← b.index (i + 1)
    if marker = 0xFF then some (.next (i + 1))
    else if isStandalone marker then some (.next (i + 2))
    else if marker = 0xD8 then some (.next (i + 2))
    else if marker = 0xD9 ∨ marker = 0xDA then some (.done none)
    else if b.length < i + 4 then some (.done none)
    else
      let hi ← b.index (i + 2)
      let lo ← b.index (i + 3)
      let segLen := hi.toNat * 256 + lo.toNat
      if isSOF marker then
        if b.length < i + 9 then some (.done none)
        else
          let h₁ ← b.index (i + 5)
          let h₀ ← b.index (i + 6)
          let w₁ ← b.index (i + 7)
          let w₀ ← b.index (i + 8)
          some (.done (some (w₁.toNat * 256 + w₀.toNat, h₁.toNat * 256 + h₀.toNat)))
      else if segLen < 2 ∨ b.length < i + 2 + segLen then some (.done none)
      else some (.next (i + (2 + segLen)))

/-- The scan goes forward. -/
theorem jpegStep_lt {b : Bytes} {i j : Nat} (h : jpegStep b i = some (.next j)) : i < j := by
  have hnext : ∀ k, some (JpegStep.next k) = some (.next j) → i < k → i < j := by
    intro k hk hlt
    rw [← JpegStep.next.inj (Option.some.inj hk)]
    exact hlt
  unfold jpegStep at h
  obtain ⟨x, -, h⟩ := Option.bind_eq_some_iff.mp h
  rcases ite_eq_iff.mp h with ⟨-, h⟩ | ⟨-, h⟩
  · exact hnext _ h (by omega)
  obtain ⟨marker, -, h⟩ := Option.bind_eq_some_iff.mp h
  rcases ite_eq_iff.mp h with ⟨-, h⟩ | ⟨-, h⟩
  · exact hnext _ h (by omega)
  rcases ite_eq_iff.mp h with ⟨-, h⟩ | ⟨-, h⟩
  · exact hnext _ h (by omega)
  rcases ite_eq_iff.mp h with ⟨-, h⟩ | ⟨-, h⟩
  · exact hnext _ h (by omega)
  rcases ite_eq_iff.mp h with ⟨-, h⟩ | ⟨-, h⟩
  · cases h
  rcases ite_eq_iff.mp h with ⟨-, h⟩ | ⟨-, h⟩
  · cases h
  obtain ⟨hi, -, h⟩ := Option.bind_eq_some_iff.mp h
  obtain ⟨lo, -, h⟩ := Option.bind_eq_some_iff.mp h
  rcases ite_eq_iff.mp h with ⟨-, h⟩ | ⟨-, h⟩
  · rcases ite_eq_iff.mp h with ⟨-, h⟩ | ⟨-, h⟩
    · cases h
    obtain ⟨h₁, -, h⟩ := Option.bind_eq_some_iff.mp h
    obtain ⟨h₀, -, h⟩ := Option.bind_eq_some_iff.mp h
    obtain ⟨w₁, -, h⟩ := Option.bind_eq_some_iff.mp h
    obtain ⟨w₀, -, h⟩ := Option.bind_eq_some_iff.mp h
    cases h
  rcases ite_eq_iff.mp h with ⟨-, h⟩ | ⟨-, h⟩
  · cases h
  · exact hnext _ h (by omega)

/-- The marker scan from position `i`.

Source: `dimensions.go` jpegDimensions -/
def jpegScan (b : Bytes) (i : Nat) : Option (Option Dims) :=
  if hi : i + 1 < b.length then
    match h : jpegStep b i with
    | none => none
    | some (.next j) =>
      have : b.length - j < b.length - i := by
        have hlt := jpegStep_lt h
        omega
      jpegScan b j
    | some (.done r) => some r
  else some none
termination_by b.length - i

/-- Source: `dimensions.go` jpegDimensions -/
def jpegDimensions (b : Bytes) : Option (Option Dims) :=
  if b.length < 4 then some none
  else do
    let x ← b.index 0
    let y ← b.index 1
    if x ≠ 0xFF ∨ y ≠ 0xD8 then some none else jpegScan b 2

/-! ## TIFF -/

/-- Source: `encoding/binary` ByteOrder -/
inductive ByteOrder
  | littleEndian | bigEndian
deriving DecidableEq

/-- The number that a slice writes in a byte order. -/
def ByteOrder.uint (bo : ByteOrder) (b : Bytes) : Nat :=
  match bo with
  | .littleEndian => b.le
  | .bigEndian => b.be

/-- An entry of an IFD, as far as the scan reads it. -/
inductive TiffEntry
  /-- ImageWidth with a SHORT or LONG value. -/
  | width (v : Nat)
  /-- ImageLength with a SHORT or LONG value. -/
  | height (v : Nat)
  | other
deriving DecidableEq

/-- The entry at an offset. Offsets are `uint32`, and a slice bound wraps around with them.

Source: `dimensions.go` tiffDimensions -/
def tiffEntry (b : Bytes) (bo : ByteOrder) (off : Nat) : Option TiffEntry := do
  let field (lo hi : Nat) : Option Nat :=
    (b.slice ((off + lo) % 2 ^ 32) ((off + hi) % 2 ^ 32)).map bo.uint
  let tag ← field 0 2
  if tag ≠ 256 ∧ tag ≠ 257 then some .other
  else
    let typ ← field 2 4
    if typ = 3 then
      let val ← field 8 10
      some (if tag = 256 then .width val else .height val)
    else if typ = 4 then
      let val ← field 8 12
      some (if tag = 256 then .width val else .height val)
    else some .other

/-- The scan of the `n` entries from number `i` on, with the values found so far.

Source: `dimensions.go` tiffDimensions -/
def tiffScan (b : Bytes) (bo : ByteOrder) (entriesStart : Nat) :
    Nat → Nat → Option Nat → Option Nat → Option (Option Dims)
  | 0, _, _, _ => some none
  | n + 1, i, width, height =>
    let off := (entriesStart + i * 12) % 2 ^ 32
    if b.length < off + 12 then some none
    else
      match tiffEntry b bo off with
      | none => none
      | some .other => tiffScan b bo entriesStart n (i + 1) width height
      | some (.width v) =>
        match height with
        | some h => some (some (v, h))
        | none => tiffScan b bo entriesStart n (i + 1) (some v) none
      | some (.height v) =>
        match width with
        | some w => some (some (w, v))
        | none => tiffScan b bo entriesStart n (i + 1) none (some v)

/-- The byte order that a TIFF declares. -/
def tiffOrder (b : Bytes) : Option ByteOrder :=
  if b.take 2 = [0x49, 0x49] then some .littleEndian
  else if b.take 2 = [0x4D, 0x4D] then some .bigEndian
  else none

/-- Source: `dimensions.go` tiffDimensions -/
def tiffDimensions (b : Bytes) : Option (Option Dims) :=
  if b.length < 8 then some none
  else
    match tiffOrder b with
    | none => some none
    | some bo => do
      let ifdOffset ← (b.slice 4 8).map bo.uint
      if b.length < ifdOffset + 2 then some none
      else
        let count ← (b.slice ifdOffset ((ifdOffset + 2) % 2 ^ 32)).map bo.uint
        tiffScan b bo ((ifdOffset + 2) % 2 ^ 32) count 0 none none

/-! ## HEIC -/

/-- The box at position `i`: its type, its payload and the next position; the inner none ends the
walk.

Source: `dimensions.go` walkBoxes -/
def boxAt (b : Bytes) (i : Nat) : Option (Option (Bytes × Bytes × Nat)) := do
  let size₀ ← b.slice i (i + 4)
  let boxType ← b.slice (i + 4) (i + 8)
  if size₀.be = 1 then
    if b.length < i + 16 then some none
    else
      let size₁ ← b.slice (i + 8) (i + 16)
      if b.length < size₁.be then some none
      else payload boxType size₁.be 16
  else if size₀.be = 0 then some none
  else payload boxType size₀.be 8
where
  payload (boxType : Bytes) (size headerLen : Nat) : Option (Option (Bytes × Bytes × Nat)) :=
    if size < headerLen ∨ b.length < i + size then some none
    else do
      let p ← b.slice (i + headerLen) (i + size)
      some (some (boxType, p, i + size))

/-- A box is not empty. -/
theorem boxAt_lt {b : Bytes} {i j : Nat} {t p : Bytes} (h : boxAt b i = some (some (t, p, j))) :
    i < j := by
  have hpayload : ∀ {boxType : Bytes} {size headerLen : Nat}, 0 < headerLen →
      boxAt.payload b i boxType size headerLen = some (some (t, p, j)) → i < j := by
    intro boxType size headerLen hpos hp
    unfold boxAt.payload at hp
    split at hp
    · exact absurd hp (by simp)
    rename_i hsize
    obtain ⟨q, -, hq⟩ := Option.bind_eq_some_iff.mp hp
    have hj : i + size = j := by
      simp only [Option.some.injEq, Prod.mk.injEq] at hq
      exact hq.2.2
    omega
  unfold boxAt at h
  obtain ⟨size₀, -, h⟩ := Option.bind_eq_some_iff.mp h
  obtain ⟨boxType, -, h⟩ := Option.bind_eq_some_iff.mp h
  split at h
  · split at h
    · exact absurd h (by simp)
    obtain ⟨size₁, -, h⟩ := Option.bind_eq_some_iff.mp h
    split at h
    · exact absurd h (by simp)
    · exact hpayload (by decide) h
  split at h
  · exact absurd h (by simp)
  · exact hpayload (by decide) h

/-- Call `fn` for the boxes from position `i` on until it returns false. What `fn` changes outside is
the state `s`.

Source: `dimensions.go` walkBoxes -/
def walkBoxes {σ : Type} (fn : Bytes → Bytes → σ → Option (σ × Bool)) (b : Bytes) (i : Nat) (s : σ) :
    Option σ :=
  if hi : i + 8 ≤ b.length then
    match h : boxAt b i with
    | none => none
    | some none => some s
    | some (some (t, p, j)) =>
      match fn t p s with
      | none => none
      | some (s', false) => some s'
      | some (s', true) =>
        have : b.length - j < b.length - i := by
          have hlt := boxAt_lt h
          omega
        walkBoxes fn b j s'
  else some s
termination_by b.length - i

/-- The largest dimensions so far, and whether there are any. -/
structure HeicState where
  maxW : Nat
  maxH : Nat
  found : Bool
deriving DecidableEq

/-- The callback for the boxes of ipco. -/
def heicIspe (t p : Bytes) (s : HeicState) : Option (HeicState × Bool) :=
  if t = Bytes.ascii "ispe" ∧ 12 ≤ p.length then do
    let w ← p.slice 4 8
    let h ← p.slice 8 12
    if s.maxW * s.maxH < w.be * h.be then some (⟨w.be, h.be, true⟩, true)
    else some ({ s with found := true }, true)
  else some (s, true)

/-- The callback for the boxes of iprp. -/
def heicIpco (t p : Bytes) (s : HeicState) : Option (HeicState × Bool) :=
  if t ≠ Bytes.ascii "ipco" then some (s, true)
  else (walkBoxes heicIspe p 0 s).map fun s => (s, false)

/-- The callback for the boxes of meta. -/
def heicIprp (t p : Bytes) (s : HeicState) : Option (HeicState × Bool) :=
  if t ≠ Bytes.ascii "iprp" then some (s, true)
  else (walkBoxes heicIpco p 0 s).map fun s => (s, false)

/-- The callback for the boxes of the file; meta begins with a version and flags. -/
def heicMeta (t p : Bytes) (s : HeicState) : Option (HeicState × Bool) :=
  if t ≠ Bytes.ascii "meta" ∨ p.length < 4 then some (s, true)
  else do
    let p' ← p.slice 4 p.length
    (walkBoxes heicIprp p' 0 s).map fun s => (s, false)

/-- Source: `dimensions.go` heicDimensions -/
def heicDimensions (b : Bytes) : Option (Option Dims) := do
  let s ← walkBoxes heicMeta b 0 ⟨0, 0, false⟩
  some (if s.found then some (s.maxW, s.maxH) else none)

/-! ## The dispatch -/

/-- Source: `dimensions.go` dimensionParsers -/
def dimensionParsers : List (String × DimensionParser) :=
  [("png", pngDimensions), ("jpg", jpegDimensions), ("webp", webpDimensions),
    ("heic", heicDimensions), ("tiff", tiffDimensions)]

/-- Source: `dimensions.go` HasDimensionLimit -/
def hasDimensionLimit (format : String) : Bool :=
  (dimensionParsers.lookup (normalizeFormat format)).isSome

end OctoConv
