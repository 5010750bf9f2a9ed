import OctoConv.Lib.Bytes

/-!
# Compound files

Legacy office files and encrypted ones share one container. It is never accepted; the names in its
directory decide which refusal the client is given. The directory is a chain of sectors through the
allocation table, whose sectors the header lists.

Source: `internal/convert/olecfb.go`, `internal/convert/cfb.go`.

## Main results

* `classifyCFB_short` — a file without a whole header is not classified.
-/

namespace OctoConv

open Conc

/-- Source: `olecfb.go` oleCFBMagic -/
def oleCFBMagic : Bytes := [0xD0, 0xCF, 0x11, 0xE0, 0xA1, 0xB1, 0x1A, 0xE1]

/-- `io.ReaderAt`: up to `n` bytes from an offset. -/
def readAt (data : Bytes) (n off : Nat) : Bytes := (data.drop off).take n

/-- Source: `olecfb.go` IsOLECFB -/
def isOLECFB (data : Bytes) : Bool := readAt data oleCFBMagic.length 0 = oleCFBMagic

/-- Source: `cfb.go` CFBClass -/
inductive CFBClass
  | unknown
  | encrypted
  | legacy
deriving DecidableEq, Repr

/-- Source: `cfb.go` cfbHeaderSize -/
def cfbHeaderSize : Nat := 512

/-- Source: `cfb.go` cfbNumHeaderDIFATSlots -/
def cfbNumHeaderDIFATSlots : Nat := 109

/-- Source: `cfb.go` cfbDIFATOffset -/
def cfbDIFATOffset : Nat := 76

/-- Source: `cfb.go` cfbEntrySize -/
def cfbEntrySize : Nat := 128

/-- Source: `cfb.go` cfbNameFieldSize -/
def cfbNameFieldSize : Nat := 64

/-- Source: `cfb.go` cfbMaxDirSectors -/
def cfbMaxDirSectors : Nat := 4096

/-- Source: `cfb.go` cfbEndOfChain -/
def cfbEndOfChain : Nat := 0xFFFFFFFE

/-- Source: `cfb.go` cfbSentinelThreshold -/
def cfbSentinelThreshold : Nat := 0xFFFFFFFA

/-- `binary.LittleEndian` at an offset of a buffer that is long enough. -/
def leAt (b : Bytes) (off width : Nat) : Nat := Bytes.le ((b.drop off).take width)

/-- Source: `cfb.go` cfbSectorOffset -/
def cfbSectorOffset (sector sectorSize : Nat) : Nat := (sector + 1) * sectorSize

/-- Source: `cfb.go` cfbSectorInBounds -/
def cfbSectorInBounds (sector sectorSize size : Nat) : Bool :=
  sector < cfbSentinelThreshold && cfbSectorOffset sector sectorSize + sectorSize ≤ size

/-- A sector of the file, if it is in bounds and can be read. -/
def cfbSector (data : Bytes) (sectorSize size sector : Nat) : Option Bytes :=
  if cfbSectorInBounds sector sectorSize size then
    let b := readAt data sectorSize (cfbSectorOffset sector sectorSize)
    if b.length = sectorSize then some b else none
  else none

/-- One slot of the header's list: the links that its sector of the table holds. -/
def cfbFATSlot (data header : Bytes) (sectorSize size i : Nat) : Option (List (Nat × Nat)) :=
  let fatSector := leAt header (cfbDIFATOffset + i * 4) 4
  if cfbSentinelThreshold ≤ fatSector then some []
  else
    (cfbSector data sectorSize size fatSector).map fun b =>
      (List.range (sectorSize / 4)).map fun j => (i * (sectorSize / 4) + j, leAt b (j * 4) 4)

/-- The links of the sectors.

Source: `cfb.go` buildCFBFAT -/
def buildCFBFAT (data header : Bytes) (sectorSize size : Nat) : Option (List (Nat × Nat)) :=
  ((List.range cfbNumHeaderDIFATSlots).mapM (cfbFATSlot data header sectorSize size)).map List.flatten

/-- The character of a code unit that is not part of a pair. -/
def utf16Char (u : Nat) : Char :=
  if 0xD800 ≤ u ∧ u < 0xE000 then '\uFFFD' else Char.ofNat u

/-- Source: `unicode/utf16` Decode -/
def utf16Decode : List Nat → List Char
  | [] => []
  | [u] => [utf16Char u]
  | u :: v :: us =>
    if 0xD800 ≤ u ∧ u < 0xDC00 ∧ 0xDC00 ≤ v ∧ v < 0xE000 then
      Char.ofNat ((u - 0xD800) * 0x400 + (v - 0xDC00) + 0x10000) :: utf16Decode us
    else utf16Char u :: utf16Decode (v :: us)

/-- The name of a directory entry, if the entry is allocated and its name field is well formed. -/
def cfbEntryName (entry : Bytes) : Option (List Char) :=
  let objType := leAt entry 66 1
  let nameLen := leAt entry 64 2
  if objType = 0 then none
  else if nameLen < 2 ∨ cfbNameFieldSize < nameLen ∨ nameLen % 2 ≠ 0 then none
  else
    let units := (List.range (nameLen / 2)).map fun k => leAt entry (k * 2) 2
    let units := if units.getLast? = some 0 then units.dropLast else units
    some (utf16Decode units)

/-- The names in a directory sector. -/
def cfbSectorNames (b : Bytes) (sectorSize : Nat) : List (List Char) :=
  (List.range (sectorSize / cfbEntrySize)).filterMap fun e =>
    cfbEntryName ((b.drop (e * cfbEntrySize)).take cfbEntrySize)

/-- The loop of cfbWalkDirectory; `room` sectors may still be visited. -/
def cfbWalkFrom (data : Bytes) (sectorSize size : Nat) (fat : List (Nat × Nat)) :
    Nat → List Nat → List (List Char) → Nat → Option (List (List Char))
  | room, visited, names, sector =>
    if cfbSentinelThreshold ≤ sector then some names
    else if sector ∈ visited then none
    else
      match room with
      | 0 => none
      | room + 1 => do
        let b ← cfbSector data sectorSize size sector
        let next ← fat.lookup sector
        cfbWalkFrom data sectorSize size fat room (sector :: visited)
          (names ++ cfbSectorNames b sectorSize) next

/-- The names on the directory chain.

Source: `cfb.go` cfbWalkDirectory -/
def cfbWalkDirectory (data : Bytes) (start sectorSize size : Nat) (fat : List (Nat × Nat)) :
    Option (List (List Char)) :=
  cfbWalkFrom data sectorSize size fat cfbMaxDirSectors [] [] start

/-- The names of encrypted documents. -/
def cfbEncryptedNames : List (List Char) := ["EncryptionInfo".toList, "EncryptedPackage".toList]

/-- The names of legacy documents. -/
def cfbLegacyNames : List (List Char) :=
  ["WordDocument".toList, "Workbook".toList, "Book".toList, "PowerPoint Document".toList]

/-- Source: `cfb.go` classifyCFBNames -/
def classifyCFBNames (names : List (List Char)) : CFBClass :=
  if names.any cfbEncryptedNames.contains then .encrypted
  else if names.any cfbLegacyNames.contains then .legacy
  else .unknown

/-- Source: `cfb.go` ClassifyCFB -/
def classifyCFB (data : Bytes) (size : Nat) : CFBClass :=
  if size < cfbHeaderSize then .unknown
  else
    let header := readAt data cfbHeaderSize 0
    if header.length ≠ cfbHeaderSize then .unknown
    else if header.take 8 ≠ oleCFBMagic then .unknown
    else
      let sectorShift := leAt header 30 2
      if sectorShift ≠ 9 ∧ sectorShift ≠ 12 then .unknown
      else
        let sectorSize := 1 <<< sectorShift
        if leAt header 68 4 ≠ cfbEndOfChain then .unknown
        else
          match buildCFBFAT data header sectorSize size with
          | none => .unknown
          | some fat =>
            match cfbWalkDirectory data (leAt header 48 4) sectorSize size fat with
            | none => .unknown
            | some names => classifyCFBNames names

/-- A file without a whole header is not classified. -/
theorem classifyCFB_short {data : Bytes} {size : Nat} (h : data.length < cfbHeaderSize) :
    classifyCFB data size = .unknown := by
  have hlen : (readAt data cfbHeaderSize 0).length ≠ cfbHeaderSize := by
    unfold readAt
    rw [List.drop_zero, List.length_take]
    omega
  unfold classifyCFB
  split
  · rfl
  · dsimp only
    rw [if_pos hlen]

end OctoConv
