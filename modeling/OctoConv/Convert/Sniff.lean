import OctoConv.Convert.Dimensions
import OctoConv.Convert.Ebml
import OctoConv.Lib.Reader

/-!
# Content detection

The sniffers read the beginning of an upload from a reader, look for a signature in it, and return a
reader that has the beginning put in front again. The reader they were given has lost it.

Source: `internal/convert/sniff.go`, `internal/convert/avsniff.go`, `internal/convert/audiosniff.go`,
`internal/convert/dimensions.go` Dimensions.

## Main results

* `sniffWith_content` — the reader that a sniffer returns has what its argument had.
* `dimensions_content` — so has the one that the dimension check returns.
-/

namespace OctoConv

open Conc

/-! ## Signatures of a fixed length -/

/-- The four bytes at an offset of a buffer that is long enough. -/
def fourAt (b : Bytes) (off : Nat) : Bytes := (b.drop off).take 4

/-- A box of type ftyp with one of these brands.

Source: `sniff.go` matchHEIC, `avsniff.go` matchMP4, `audiosniff.go` matchM4A -/
def matchBrand (brands : List Bytes) (b : Bytes) : Bool :=
  12 ≤ b.length && fourAt b 4 = Bytes.ascii "ftyp" && brands.contains (fourAt b 8)

/-- A RIFF container of this form.

Source: `sniff.go` matchWebP, `avsniff.go` matchAVI, `audiosniff.go` matchWAV -/
def matchForm (form : Bytes) (b : Bytes) : Bool :=
  12 ≤ b.length && fourAt b 0 = Bytes.ascii "RIFF" && fourAt b 8 = form

/-- Source: `sniff.go` matchPNG -/
def matchPNG (b : Bytes) : Bool := [0x89, 0x50, 0x4E, 0x47, 0x0D, 0x0A, 0x1A, 0x0A].isPrefixOf b

/-- Source: `sniff.go` matchJPEG -/
def matchJPEG (b : Bytes) : Bool := [0xFF, 0xD8, 0xFF].isPrefixOf b

/-- Source: `sniff.go` matchWebP -/
def matchWebP : Bytes → Bool := matchForm (Bytes.ascii "WEBP")

/-- Source: `sniff.go` matchTIFF -/
def matchTIFF (b : Bytes) : Bool :=
  [0x49, 0x49, 0x2A, 0x00].isPrefixOf b || [0x4D, 0x4D, 0x00, 0x2A].isPrefixOf b

/-- Source: `sniff.go` heicBrands -/
def heicBrands : List Bytes := ["heic", "heix", "hevc", "hevx", "mif1", "msf1"].map Bytes.ascii

/-- Source: `sniff.go` matchHEIC -/
def matchHEIC : Bytes → Bool := matchBrand heicBrands

/-- Source: `avsniff.go` mp4VideoBrands -/
def mp4VideoBrands : List Bytes :=
  ["isom", "mp41", "mp42", "mp4v", "avc1", "iso2", "iso3", "iso4", "iso5", "iso6", "iso7", "iso8",
    "iso9", "3gp4", "3gp5", "3g2a", "dash"].map Bytes.ascii

/-- Source: `avsniff.go` matchMP4 -/
def matchMP4 : Bytes → Bool := matchBrand mp4VideoBrands

/-- Source: `avsniff.go` matchMOV -/
def matchMOV : Bytes → Bool := matchBrand [Bytes.ascii "qt  "]

/-- Source: `avsniff.go` matchAVI -/
def matchAVI : Bytes → Bool := matchForm (Bytes.ascii "AVI ")

/-- Source: `audiosniff.go` matchWAV -/
def matchWAV : Bytes → Bool := matchForm (Bytes.ascii "WAVE")

/-- Source: `audiosniff.go` matchOGG -/
def matchOGG (b : Bytes) : Bool := (Bytes.ascii "OggS").isPrefixOf b

/-- Source: `audiosniff.go` m4aBrands -/
def m4aBrands : List Bytes := ["M4A ", "M4B "].map Bytes.ascii

/-- Source: `audiosniff.go` matchM4A -/
def matchM4A : Bytes → Bool := matchBrand m4aBrands

/-- The frame sync word at an offset. -/
def frameSyncAt (b : Bytes) (off : Nat) : Bool :=
  match b.drop off with
  | x :: y :: _ => x = 0xFF && y &&& 0xE0 = 0xE0
  | _ => false

/-- The byte at an offset of a buffer that is long enough. -/
def byteAt (b : Bytes) (off : Nat) : Nat := (b[off]?.getD 0).toNat

/-- Source: `audiosniff.go` matchMP3 -/
def matchMP3 (b : Bytes) : Bool :=
  if (Bytes.ascii "ID3").isPrefixOf b then
    if b.length < 10 then false
    else
      let size := byteAt b 6 <<< 21 ||| byteAt b 7 <<< 14 ||| byteAt b 8 <<< 7 ||| byteAt b 9
      let tagEnd := 10 + size + if byteAt b 5 &&& 0x10 ≠ 0 then 10 else 0
      if b.length ≤ tagEnd + 1 then false else frameSyncAt b tagEnd
  else frameSyncAt b 0

/-! ## The sniffers -/

/-- What a sniffer leaves: the detected format and the reader it returns, none if a read failed; and
what the reader it was given has become. -/
structure Sniffed where
  result : Option (String × Reader)
  drained : Reader

/-- Read the beginning and look for a signature in it; the format is empty if there is none. The outer
`none` is an access out of range. -/
def sniffWith (peekLen : Nat) (detect : Bytes → Option String) (r : Reader) : Option Sniffed :=
  let x := r.readFull peekLen
  if x.failed then some ⟨none, x.rest⟩
  else (detect x.buf).map fun format => ⟨some (format, Reader.stitched x), x.rest⟩

/-- Source: `sniff.go` sniffLen -/
def sniffLen : Nat := 12

/-- Source: `sniff.go` signatures -/
def signatures : List (String × (Bytes → Bool)) :=
  [("png", matchPNG), ("jpg", matchJPEG), ("webp", matchWebP), ("heic", matchHEIC), ("tiff", matchTIFF),
    ("mp4", matchMP4), ("mov", matchMOV), ("avi", matchAVI)]

/-- Source: `sniff.go` Sniff -/
def sniff : Reader → Option Sniffed :=
  sniffWith sniffLen fun buf =>
    match signatures.find? fun sig => sig.2 buf with
    | some sig => some (normalizeFormat sig.1)
    | none => some ""

/-- Source: `avsniff.go` avPeekLen -/
def avPeekLen : Nat := 4 * 1024

/-- Source: `avsniff.go` SniffVideo -/
def sniffVideo : Reader → Option Sniffed :=
  sniffWith avPeekLen fun buf =>
    (matchEBML buf).map fun format =>
      match format with
      | some format => normalizeFormat format
      | none => ""

/-- Source: `audiosniff.go` mp3PeekLen -/
def mp3PeekLen : Nat := 512 * 1024

/-- Source: `audiosniff.go` SniffAudio -/
def sniffAudio : Reader → Option Sniffed :=
  sniffWith mp3PeekLen fun buf =>
    if matchWAV buf then some (normalizeFormat "wav")
    else if matchOGG buf then some (normalizeFormat "ogg")
    else if matchM4A buf then some (normalizeFormat "m4a")
    else if matchMP3 buf then some (normalizeFormat "mp3")
    else some ""

/-- The declared dimensions and the reader that Dimensions returns; the inner `none` is an error.

Source: `dimensions.go` Dimensions -/
def dimensions (format : String) (r : Reader) : Option (Option (Dims × Reader)) :=
  let x := r.readFull dimPeekLen
  if x.failed then some none
  else
    match dimensionParsers.lookup (normalizeFormat format) with
    | none => some none
    | some parser => (parser x.buf).map fun found => found.map fun d => (d, Reader.stitched x)

/-! ## Nothing is lost -/

/-- The reader has these bytes left, and no read of it fails. -/
def Holds (r : Reader) (b : Bytes) : Prop := r.Reliable ∧ r.content = b

/-- A sniffer sees the beginning of what the reader holds. -/
theorem sniffWith_eq {peekLen : Nat} {detect : Bytes → Option String} {r : Reader} {b : Bytes}
    (hr : Holds r b) : sniffWith peekLen detect r = (detect (b.take peekLen)).map fun format =>
      ⟨some (format, Reader.stitched (r.readFull peekLen)), (r.readFull peekLen).rest⟩ := by
  obtain ⟨hreliable, rfl⟩ := hr
  have hread := Reader.readFull_spec r peekLen
  have hfailed := (hread.reliable hreliable).1
  unfold sniffWith
  dsimp only
  rw [hfailed, if_neg Bool.false_ne_true, hread.take hfailed]

/-- What a sniffer returns has the bytes that its argument had. -/
theorem sniffWith_content {peekLen : Nat} {detect : Bytes → Option String} {r : Reader} {b : Bytes}
    {s : Sniffed} (h : sniffWith peekLen detect r = some s) (hr : Holds r b) :
    ∃ format rest, s.result = some (format, rest) ∧ Holds rest b := by
  obtain ⟨hreliable, rfl⟩ := hr
  have hfailed := ((Reader.readFull_spec r peekLen).reliable hreliable).1
  unfold sniffWith at h
  dsimp only at h
  rw [hfailed, if_neg Bool.false_ne_true] at h
  obtain ⟨format, -, rfl⟩ := Option.map_eq_some_iff.mp h
  exact ⟨format, _, rfl, Reader.reliable_stitched hreliable peekLen, Reader.content_stitched r peekLen⟩

/-- The reader that the dimension check returns has the bytes that its argument had. -/
theorem dimensions_content {format : String} {r rest : Reader} {b : Bytes} {d : Dims}
    (h : dimensions format r = some (some (d, rest))) (hr : Holds r b) : Holds rest b := by
  obtain ⟨hreliable, rfl⟩ := hr
  unfold dimensions at h
  dsimp only at h
  split at h
  · exact absurd h (by simp)
  split at h
  · exact absurd h (by simp)
  · obtain ⟨found, -, hfound⟩ := Option.map_eq_some_iff.mp h
    obtain ⟨d', -, heq⟩ := Option.map_eq_some_iff.mp hfound
    obtain ⟨-, rfl⟩ := Prod.mk.inj heq
    exact ⟨Reader.reliable_stitched hreliable dimPeekLen, Reader.content_stitched r dimPeekLen⟩

end OctoConv
