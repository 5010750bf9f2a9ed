import OctoConv.Convert.Dimensions

/-!
# The marker scan of JPEG

A JPEG is a start-of-image marker and then segments: a marker with optional fill bytes before it, and,
unless the marker stands alone, a length and a payload. The scan steps over them to the first
start-of-frame marker.

Source: `internal/convert/dimensions.go` jpegDimensions.

## Main results

* `jpegScan_segments` — the scan steps over well-formed segments, whatever their payloads are.
* `jpegDimensions_spec` — the dimensions of the frame header are found, no access is out of range, and
  what is returned stands behind a start-of-frame marker that the scan met.
-/

namespace OctoConv

open Conc

/-! ## Steps -/

/-- A start-of-frame marker at this position declares the dimensions. -/
def FrameAt (b : Bytes) (i : Nat) (d : Dims) : Prop :=
  ∃ marker h₁ h₀ w₁ w₀, b.index i = some 0xFF ∧ b.index (i + 1) = some marker ∧
    isSOF marker = true ∧ b.index (i + 5) = some h₁ ∧ b.index (i + 6) = some h₀ ∧
    b.index (i + 7) = some w₁ ∧ b.index (i + 8) = some w₀ ∧
    d = (w₁.toNat * 256 + w₀.toNat, h₁.toNat * 256 + h₀.toNat)

/-- What a step within the buffer does: it does not panic, and dimensions are read from a frame
header. -/
theorem jpegStep_cases {b : Bytes} {i : Nat} (hi : i + 1 < b.length) :
    (∃ j, jpegStep b i = some (.next j)) ∨ jpegStep b i = some (.done none) ∨
      ∃ d, jpegStep b i = some (.done (some d)) ∧ FrameAt b i d := by
  generalize hr : jpegStep b i = r
  unfold jpegStep at hr
  rw [Option.bind_eq_bind, Bytes.index_of_lt (by omega), Option.bind_some] at hr
  rcases ite_eq_iff.mp hr with ⟨-, rfl⟩ | ⟨hff, hr⟩
  · exact .inl ⟨_, rfl⟩
  rw [Bytes.index_of_lt hi, Option.bind_some] at hr
  rcases ite_eq_iff.mp hr with ⟨-, rfl⟩ | ⟨-, hr⟩
  · exact .inl ⟨_, rfl⟩
  rcases ite_eq_iff.mp hr with ⟨-, rfl⟩ | ⟨-, hr⟩
  · exact .inl ⟨_, rfl⟩
  rcases ite_eq_iff.mp hr with ⟨-, rfl⟩ | ⟨-, hr⟩
  · exact .inl ⟨_, rfl⟩
  rcases ite_eq_iff.mp hr with ⟨-, rfl⟩ | ⟨-, hr⟩
  · exact .inr (.inl rfl)
  rcases ite_eq_iff.mp hr with ⟨-, rfl⟩ | ⟨hlong, hr⟩
  · exact .inr (.inl rfl)
  rw [Bytes.index_of_lt (by omega), Option.bind_some, Bytes.index_of_lt (by omega),
    Option.bind_some] at hr
  rcases ite_eq_iff.mp hr with ⟨hsof, hr⟩ | ⟨-, hr⟩
  · rcases ite_eq_iff.mp hr with ⟨-, rfl⟩ | ⟨hheader, hr⟩
    · exact .inr (.inl rfl)
    have h₅ : b.index (i + 5) = some b[i + 5] := Bytes.index_of_lt (by omega)
    have h₆ : b.index (i + 6) = some b[i + 6] := Bytes.index_of_lt (by omega)
    have h₇ : b.index (i + 7) = some b[i + 7] := Bytes.index_of_lt (by omega)
    have h₈ : b.index (i + 8) = some b[i + 8] := Bytes.index_of_lt (by omega)
    rw [h₅, h₆, h₇, h₈] at hr
    refine .inr (.inr
      ⟨_, hr.symm, b[i + 1], _, _, _, _, ?_, Bytes.index_of_lt hi, hsof, h₅, h₆, h₇, h₈, rfl⟩)
    rw [Bytes.index_of_lt (by omega), not_not.mp hff]
  · rcases ite_eq_iff.mp hr with ⟨-, rfl⟩ | ⟨-, rfl⟩
    · exact .inr (.inl rfl)
    · exact .inl ⟨_, rfl⟩

/-! ## Bounds -/

/-- The scan reads no byte that is not there. -/
theorem jpegScan_total (b : Bytes) (i : Nat) : jpegScan b i ≠ none := by
  fun_induction jpegScan b i with
  | case1 i hi h =>
    rcases jpegStep_cases hi with ⟨j, hs⟩ | hs | ⟨d, hs, -⟩
    · exact absurd (h.symm.trans hs) nofun
    · exact absurd (h.symm.trans hs) nofun
    · exact absurd (h.symm.trans hs) nofun
  | case2 i hi j h hlt ih => exact ih
  | case3 i hi r h => simp
  | case4 i hi => simp

/-- No access of the scan is out of range. -/
theorem jpegDimensions_total (b : Bytes) : jpegDimensions b ≠ none := by
  unfold jpegDimensions
  split
  · simp
  rw [Bytes.index_of_lt (b := b) (i := 0) (by omega), Bytes.index_of_lt (b := b) (i := 1) (by omega)]
  simp only [Option.bind_eq_bind, Option.bind_some]
  split
  · simp
  · exact jpegScan_total b 2

/-! ## What is returned -/

/-- The positions that the scan meets. -/
inductive JpegMet (b : Bytes) : Nat → Prop
  | start : JpegMet b 2
  | next {i j : Nat} (hi : JpegMet b i) (h : jpegStep b i = some (.next j)) : JpegMet b j

/-- Dimensions that the scan returns stand in a frame header it met. -/
theorem frameAt_of_jpegScan {b : Bytes} {i : Nat} {d : Dims} (hi : JpegMet b i)
    (h : jpegScan b i = some (some d)) : ∃ k, JpegMet b k ∧ FrameAt b k d := by
  fun_induction jpegScan b i with
  | case1 i hlt hs => exact absurd h (by simp)
  | case2 i hlt j hs hj ih => exact ih (.next hi hs) h
  | case3 i hlt r hs =>
    obtain rfl : r = some d := by simpa using h
    rcases jpegStep_cases hlt with ⟨j, hs'⟩ | hs' | ⟨d', hs', hframe⟩
    · exact absurd (hs.symm.trans hs') nofun
    · exact absurd (hs.symm.trans hs') nofun
    · cases hs.symm.trans hs'
      exact ⟨i, hi, hframe⟩
  | case4 i hlt => exact absurd h (by simp)

/-! ## Segments -/

/-- A well-formed segment that is no frame header and does not end the scan. -/
inductive Segment
  /-- A marker without a length. -/
  | standalone (fill : Nat) (marker : UInt8) (h : isStandalone marker = true)
  /-- A marker with a length and a payload. -/
  | sized (fill : Nat) (marker : UInt8) (payload : Bytes)
      (h : marker ≠ 0xFF ∧ isStandalone marker = false ∧ marker ≠ 0xD8 ∧ marker ≠ 0xD9 ∧
        marker ≠ 0xDA ∧ isSOF marker = false)
      (hlen : payload.length + 2 < 2 ^ 16)

/-- A marker with its fill bytes. -/
def markerBytes (fill : Nat) (marker : UInt8) : Bytes := List.replicate (fill + 1) 0xFF ++ [marker]

/-- The bytes of a segment. -/
def Segment.bytes : Segment → Bytes
  | .standalone fill marker _ => markerBytes fill marker
  | .sized fill marker payload _ _ =>
    markerBytes fill marker ++ (Bytes.ofBE 2 (payload.length + 2) ++ payload)

section

variable (p r : Bytes)

/-- The byte behind a prefix. -/
theorem index_at (x : UInt8) : Bytes.index (p ++ x :: r) p.length = some x := by
  have h := Bytes.index_append p (x :: r) 0
  rw [Nat.add_zero] at h
  rw [h]
  rfl

/-- The bytes behind it. -/
theorem index_after (k : Nat) (l : Bytes) : Bytes.index (p ++ l) (p.length + k) = l[k]? :=
  Bytes.index_append p l k

/-- A fill byte is skipped. -/
theorem jpegStep_fill : jpegStep (p ++ 0xFF :: 0xFF :: r) p.length = some (.next (p.length + 1)) := by
  unfold jpegStep
  rw [index_at, index_after]
  rfl

/-- A marker without a payload is skipped. -/
theorem jpegStep_standalone {m : UInt8} (h : isStandalone m = true) :
    jpegStep (p ++ 0xFF :: m :: r) p.length = some (.next (p.length + 2)) := by
  have hff : m ≠ 0xFF := by
    rintro rfl
    exact absurd h (by decide)
  unfold jpegStep
  rw [index_at, index_after]
  simp [hff, h]

/-- A segment is skipped with its payload. -/
theorem jpegStep_sized {m : UInt8} {payload : Bytes}
    (h : m ≠ 0xFF ∧ isStandalone m = false ∧ m ≠ 0xD8 ∧ m ≠ 0xD9 ∧ m ≠ 0xDA ∧ isSOF m = false)
    (hlen : payload.length + 2 < 2 ^ 16) :
    jpegStep (p ++ 0xFF :: m :: (Bytes.ofBE 2 (payload.length + 2) ++ payload ++ r)) p.length =
      some (.next (p.length + (4 + payload.length))) := by
  obtain ⟨hff, halone, hd8, hd9, hda, hsof⟩ := h
  obtain ⟨hi, lo, hbe⟩ : ∃ hi lo, Bytes.ofBE 2 (payload.length + 2) = [hi, lo] :=
    List.length_eq_two.mp (Bytes.length_ofBE 2 _)
  have hval : hi.toNat * 256 + lo.toNat = payload.length + 2 := by
    have hread : Bytes.be (Bytes.ofBE 2 (payload.length + 2)) = payload.length + 2 :=
      Bytes.be_ofBE (by omega)
    rw [hbe] at hread
    simpa [Bytes.be] using hread
  rw [hbe]
  unfold jpegStep
  rw [index_at, index_after, index_after, index_after]
  have hlong : ¬ (p ++ 0xFF :: m :: ([hi, lo] ++ payload ++ r)).length < p.length + 4 := by
    simp only [List.length_append, List.length_cons, List.length_nil]
    omega
  have hseg : ¬ (payload.length + 2 < 2 ∨
      (p ++ 0xFF :: m :: ([hi, lo] ++ payload ++ r)).length <
        p.length + 2 + (payload.length + 2)) := by
    simp only [List.length_append, List.length_cons, List.length_nil]
    omega
  simp only [List.cons_append, List.nil_append] at hlong hseg ⊢
  simp only [List.getElem?_cons_succ, List.getElem?_cons_zero, Option.bind_eq_bind, Option.bind_some,
    ne_eq, not_true_eq_false, ↓reduceIte, hff, halone, Bool.false_eq_true, hd8, hd9, hda, or_self,
    hlong, hsof, hval, hseg]
  congr 3
  omega

/-- A frame header gives the dimensions. -/
theorem jpegStep_frame {m : UInt8} (l₁ l₀ q h₁ h₀ w₁ w₀ : UInt8) (h : isSOF m = true) :
    jpegStep (p ++ 0xFF :: m :: l₁ :: l₀ :: q :: h₁ :: h₀ :: w₁ :: w₀ :: r) p.length =
      some (.done (some (w₁.toNat * 256 + w₀.toNat, h₁.toNat * 256 + h₀.toNat))) := by
  have hm : m ≠ 0xFF ∧ isStandalone m = false ∧ m ≠ 0xD8 ∧ m ≠ 0xD9 ∧ m ≠ 0xDA := by
    refine ⟨?_, ?_, ?_, ?_, ?_⟩
    · rintro rfl
      exact absurd h (by decide)
    · simp only [isSOF, Bool.and_eq_true, decide_eq_true_eq] at h
      simp only [isStandalone, Bool.or_eq_false_iff, decide_eq_false_iff_not,
        Bool.and_eq_false_iff]
      refine ⟨?_, .inl ?_⟩
      · rintro rfl
        exact absurd h.1.1.1.1 (by decide)
      · intro hle
        exact absurd (UInt8.le_trans hle h.1.1.1.2) (by decide)
    · rintro rfl
      exact absurd h (by decide)
    · rintro rfl
      exact absurd h (by decide)
    · rintro rfl
      exact absurd h (by decide)
  obtain ⟨hff, halone, hd8, hd9, hda⟩ := hm
  unfold jpegStep
  rw [index_at, index_after, index_after, index_after, index_after, index_after, index_after,
    index_after]
  have h4 : ¬ (p ++ 0xFF :: m :: l₁ :: l₀ :: q :: h₁ :: h₀ :: w₁ :: w₀ :: r).length <
      p.length + 4 := by
    simp only [List.length_append, List.length_cons]
    omega
  have h9 : ¬ (p ++ 0xFF :: m :: l₁ :: l₀ :: q :: h₁ :: h₀ :: w₁ :: w₀ :: r).length <
      p.length + 9 := by
    simp only [List.length_append, List.length_cons]
    omega
  simp only [List.getElem?_cons_succ, List.getElem?_cons_zero, Option.bind_eq_bind, Option.bind_some,
    ne_eq, not_true_eq_false, ↓reduceIte, hff, halone, Bool.false_eq_true, hd8, hd9, hda, or_self,
    h4, h9, h]

/-- The scan goes on from where a step leads. -/
theorem jpegScan_next {b : Bytes} {i j : Nat} (hi : i + 1 < b.length)
    (h : jpegStep b i = some (.next j)) : jpegScan b i = jpegScan b j := by
  conv => lhs; unfold jpegScan
  rw [dif_pos hi]
  split
  · rename_i hs
    rw [h] at hs
    exact absurd hs (by simp)
  · rename_i k hs
    obtain rfl : j = k := by simpa [h] using hs
    rfl
  · rename_i d hs
    rw [h] at hs
    exact absurd hs (by simp)

/-- The scan ends where a step ends it. -/
theorem jpegScan_done {b : Bytes} {i : Nat} {d : Option Dims} (hi : i + 1 < b.length)
    (h : jpegStep b i = some (.done d)) : jpegScan b i = some d := by
  unfold jpegScan
  rw [dif_pos hi]
  split
  · rename_i hs
    rw [h] at hs
    exact absurd hs (by simp)
  · rename_i k hs
    rw [h] at hs
    exact absurd hs (by simp)
  · rename_i d' hs
    obtain rfl : d = d' := by simpa [h] using hs
    rfl

/-- The scan steps over fill bytes. -/
theorem jpegScan_fill (fill : Nat) (m : UInt8) :
    jpegScan (p ++ markerBytes fill m ++ r) p.length =
      jpegScan (p ++ markerBytes fill m ++ r) (p.length + fill) := by
  induction fill generalizing p with
  | zero => rfl
  | succ fill ih =>
    have hshape : p ++ markerBytes (fill + 1) m ++ r =
        p ++ 0xFF :: 0xFF :: (List.replicate fill 0xFF ++ m :: r) := by
      simp [markerBytes, List.replicate_succ]
    have hshift : p ++ markerBytes (fill + 1) m ++ r = (p ++ [0xFF]) ++ markerBytes fill m ++ r := by
      simp [markerBytes, List.replicate_succ]
    have hstep : jpegStep (p ++ markerBytes (fill + 1) m ++ r) p.length =
        some (.next (p.length + 1)) := by
      rw [hshape]
      exact jpegStep_fill p _
    have hlen : p.length + 1 < (p ++ markerBytes (fill + 1) m ++ r).length := by
      rw [hshape, List.length_append, List.length_cons, List.length_cons]
      omega
    rw [jpegScan_next hlen hstep, hshift]
    have hih := ih (p ++ [0xFF])
    rw [List.length_append, List.length_singleton] at hih
    rw [hih]
    congr 1
    omega

/-- Behind its fill bytes a marker stands after one byte 0xFF. -/
theorem markerBytes_shape (fill : Nat) (m : UInt8) :
    p ++ markerBytes fill m ++ r = (p ++ List.replicate fill 0xFF) ++ 0xFF :: m :: r := by
  simp [markerBytes, List.replicate_succ']

/-- The scan steps over a segment. -/
theorem jpegScan_segment (x : Segment) :
    jpegScan (p ++ x.bytes ++ r) p.length =
      jpegScan (p ++ x.bytes ++ r) (p.length + x.bytes.length) := by
  cases x with
  | standalone fill m h =>
    have hstep := jpegStep_standalone (p ++ List.replicate fill 0xFF) r h
    rw [← markerBytes_shape, List.length_append, List.length_replicate] at hstep
    have hlen : p.length + fill + 1 < (p ++ markerBytes fill m ++ r).length := by
      simp only [markerBytes, List.length_append, List.length_replicate, List.length_singleton]
      omega
    unfold Segment.bytes
    rw [jpegScan_fill, jpegScan_next hlen hstep]
    congr 1
    simp only [markerBytes, List.length_append, List.length_replicate, List.length_singleton]
    omega
  | sized fill m payload h hbound =>
    have hstep := jpegStep_sized (p ++ List.replicate fill 0xFF) r h hbound
    rw [← markerBytes_shape, List.length_append, List.length_replicate] at hstep
    have hlen : p.length + fill + 1 <
        (p ++ markerBytes fill m ++ (Bytes.ofBE 2 (payload.length + 2) ++ payload ++ r)).length := by
      simp only [markerBytes, List.length_append, List.length_replicate, List.length_singleton]
      omega
    have hshape : p ++ (Segment.sized fill m payload h hbound).bytes ++ r =
        p ++ markerBytes fill m ++ (Bytes.ofBE 2 (payload.length + 2) ++ payload ++ r) := by
      simp [Segment.bytes]
    rw [hshape, jpegScan_fill, jpegScan_next hlen hstep]
    congr 1
    simp only [Segment.bytes, markerBytes, List.length_append, List.length_replicate,
      List.length_singleton, Bytes.length_ofBE]
    omega

/-- The scan steps over well-formed segments. -/
theorem jpegScan_segments (xs : List Segment) :
    jpegScan (p ++ xs.flatMap Segment.bytes ++ r) p.length =
      jpegScan (p ++ xs.flatMap Segment.bytes ++ r) (p ++ xs.flatMap Segment.bytes).length := by
  induction xs generalizing p with
  | nil => simp
  | cons x xs ih =>
    have hshape : p ++ (x :: xs).flatMap Segment.bytes ++ r =
        p ++ x.bytes ++ (xs.flatMap Segment.bytes ++ r) := by
      simp
    have hshift : p ++ (x :: xs).flatMap Segment.bytes ++ r =
        (p ++ x.bytes) ++ xs.flatMap Segment.bytes ++ r := by
      simp
    rw [hshape, jpegScan_segment, ← hshape, hshift, ← List.length_append, ih]
    simp

/-- The scan finds the frame header behind well-formed segments. -/
theorem jpegScan_frame (xs : List Segment) (fill : Nat) {m : UInt8} (l₁ l₀ q h₁ h₀ w₁ w₀ : UInt8)
    (h : isSOF m = true) :
    jpegScan (p ++ xs.flatMap Segment.bytes ++
        (markerBytes fill m ++ l₁ :: l₀ :: q :: h₁ :: h₀ :: w₁ :: w₀ :: r)) p.length =
      some (some (w₁.toNat * 256 + w₀.toNat, h₁.toNat * 256 + h₀.toNat)) := by
  rw [jpegScan_segments, ← List.append_assoc]
  generalize p ++ xs.flatMap Segment.bytes = p
  have hstep := jpegStep_frame (p ++ List.replicate fill 0xFF) r l₁ l₀ q h₁ h₀ w₁ w₀ h
  rw [← markerBytes_shape, List.length_append, List.length_replicate] at hstep
  rw [jpegScan_fill]
  refine jpegScan_done ?_ hstep
  simp only [markerBytes, List.length_append, List.length_replicate, List.length_cons]
  omega

end

/-! ## The dimensions -/

/-- Behind the start of the image and well-formed segments, the dimensions of the first frame header are
returned whatever the payloads are. On every buffer the scan ends without an access out of range, and
returns dimensions only from a start-of-frame marker that it met.

Source: `dimensions.go` jpegDimensions -/
theorem jpegDimensions_spec :
    (∀ (xs : List Segment) (fill : Nat) (m l₁ l₀ q h₁ h₀ w₁ w₀ : UInt8) (rest : Bytes),
      isSOF m = true →
      jpegDimensions ([0xFF, 0xD8] ++ xs.flatMap Segment.bytes ++
          (markerBytes fill m ++ l₁ :: l₀ :: q :: h₁ :: h₀ :: w₁ :: w₀ :: rest)) =
        some (some (w₁.toNat * 256 + w₀.toNat, h₁.toNat * 256 + h₀.toNat))) ∧
    (∀ b : Bytes, jpegDimensions b ≠ none) ∧
    ∀ (b : Bytes) (d : Dims), jpegDimensions b = some (some d) → ∃ k, JpegMet b k ∧ FrameAt b k d := by
  refine ⟨?_, jpegDimensions_total, ?_⟩
  · intro xs fill m l₁ l₀ q h₁ h₀ w₁ w₀ rest hsof
    have hscan := jpegScan_frame [0xFF, 0xD8] rest xs fill l₁ l₀ q h₁ h₀ w₁ w₀ hsof
    have hlen : ¬ ([0xFF, 0xD8] ++ xs.flatMap Segment.bytes ++
        (markerBytes fill m ++ l₁ :: l₀ :: q :: h₁ :: h₀ :: w₁ :: w₀ :: rest)).length < 4 := by
      simp only [List.length_append, List.length_cons]
      omega
    unfold jpegDimensions
    rw [if_neg hlen]
    exact hscan
  · intro b d h
    unfold jpegDimensions at h
    split at h
    · exact absurd h (by simp)
    obtain ⟨x, -, h⟩ := Option.bind_eq_some_iff.mp h
    obtain ⟨y, -, h⟩ := Option.bind_eq_some_iff.mp h
    split at h
    · exact absurd h (by simp)
    · exact frameAt_of_jpegScan .start h

/-- A frame header of 3 × 5 pixels behind a DHT segment whose payload looks like another one. -/
theorem jpegDimensions_spec_dht :
    jpegDimensions ([0xFF, 0xD8] ++ (markerBytes 0 0xC4 ++ (Bytes.ofBE 2 11 ++
        [0xFF, 0xC0, 0x00, 0x0B, 0x08, 0x00, 0x01, 0x00, 0x01])) ++
      (markerBytes 2 0xC2 ++ [0x00, 0x0B, 0x08, 0x00, 0x05, 0x00, 0x03])) = some (some (3, 5)) :=
  jpegDimensions_spec.1
    [.sized 0 0xC4 [0xFF, 0xC0, 0x00, 0x0B, 0x08, 0x00, 0x01, 0x00, 0x01] (by decide) (by decide)]
    2 0xC2 0x00 0x0B 0x08 0x00 0x05 0x00 0x03 [] (by decide)

end OctoConv
