import OctoConv.Convert.Heic

/-!
# The walk over boxes

The walk decodes what the box encoding writes: in front of a tail that is no complete box it meets
the encoded boxes. On any buffer it meets slices that lie one behind the other, and none of its
additions and conversions of a declared size leaves the range of an `int` of 64 bits.

Source: `internal/convert/dimensions.go` walkBoxes.

## Main results

* `walkBoxes_encode` — the walk meets encoded boxes and stops at an incomplete tail.
* `exists_spans` — the payloads are slices, in order and disjoint.
* `walkBoxesChecked_eq` — nothing wraps.
* `walkBoxes_decodes` — all of it.
-/

namespace OctoConv

open Conc

/-! ## Tails -/

/-- The size that a header declares and the length of the header; none if the header is not complete. -/
def headerSize (r : Bytes) : Option (Nat × Nat) :=
  if r.length < 8 then none
  else if Bytes.be (r.take 4) = 1 then
    if r.length < 16 then none else some (Bytes.be ((r.drop 8).take 8), 16)
  else some (Bytes.be (r.take 4), 8)

/-- The bytes do not begin with a complete box: the header is cut off, or the size is zero, smaller than
the header or greater than what there is. -/
def Incomplete (r : Bytes) : Prop :=
  ∀ size headerLen, headerSize r = some (size, headerLen) →
    size = 0 ∨ size < headerLen ∨ r.length < size

/-- A slice behind a part that is known. -/
theorem slice_behind (p r : Bytes) {lo hi : Nat} (hle : lo ≤ hi) (hhi : hi ≤ r.length) :
    Bytes.slice (p ++ r) (p.length + lo) (p.length + hi) = some ((r.drop lo).take (hi - lo)) := by
  rw [Bytes.slice_append, Bytes.slice_of_le hle hhi]

/-- A box that is too long, or shorter than its header, is not there. -/
theorem payload_incomplete {b t : Bytes} {i size headerLen : Nat}
    (h : size = 0 ∨ size < headerLen ∨ b.length < i + size) (hpos : 0 < headerLen) :
    boxAt.payload b i t size headerLen = some none := by
  unfold boxAt.payload
  exact if_pos (by omega)

/-- An incomplete box ends the walk. -/
theorem boxAt_incomplete (p r : Bytes) (hlen : 8 ≤ r.length) (h : Incomplete r) :
    boxAt (p ++ r) p.length = some none := by
  have hsize := slice_behind p r (show 0 ≤ 4 by omega) (by omega)
  have htype := slice_behind p r (show 4 ≤ 8 by omega) hlen
  simp only [Nat.add_zero, List.drop_zero, Nat.sub_zero] at hsize
  have htotal : (p ++ r).length = p.length + r.length := List.length_append
  unfold Incomplete headerSize at h
  rw [if_neg (by omega)] at h
  unfold boxAt
  rw [hsize, Option.bind_eq_bind, Option.bind_some, htype, Option.bind_some]
  by_cases hone : Bytes.be (r.take 4) = 1
  · rw [if_pos hone] at h ⊢
    by_cases hshort : r.length < 16
    · exact if_pos (by omega)
    rw [if_neg hshort] at h
    have hwide : Bytes.slice (p ++ r) (p.length + 8) (p.length + 16) = some ((r.drop 8).take 8) :=
      slice_behind p r (by omega) (by omega)
    rw [if_neg (by omega), hwide, Option.bind_some]
    split
    · rfl
    · exact payload_incomplete ((h _ _ rfl).imp_right (Or.imp_right fun hlt => by omega)) (by omega)
  · rw [if_neg hone] at h ⊢
    split
    · rfl
    · exact payload_incomplete ((h _ _ rfl).imp_right (Or.imp_right fun hlt => by omega)) (by omega)

/-- Where no whole box stands the walk ends. -/
theorem boxesFrom_incomplete (p r : Bytes) (h : Incomplete r) : boxesFrom (p ++ r) p.length = [] := by
  apply boxesFrom_nil
  by_cases hlen : 8 ≤ r.length
  · exact .inr (boxAt_incomplete p r hlen h)
  · refine .inl ?_
    rw [List.length_append]
    omega

/-- A callback that always continues sees every box. -/
theorem visit_continue {σ : Type} (g : Bytes → Bytes → σ → σ) (xs : List (Bytes × Bytes)) (s : σ) :
    visit (fun t p s => some (g t p s, true)) xs s = some (xs.foldl (fun s x => g x.1 x.2 s) s) := by
  induction xs generalizing s with
  | nil => rfl
  | cons x xs ih =>
    rw [visit, List.foldl_cons]
    exact ih _

/-- The walk meets encoded boxes and stops at an incomplete tail. -/
theorem walkBoxes_encode (xs : List Box) {r : Bytes} (h : Incomplete r) {σ : Type}
    (g : Bytes → Bytes → σ → σ) (s : σ) :
    walkBoxes (fun t p s => some (g t p s, true)) (xs.flatMap Box.encode ++ r) 0 s =
      some (xs.foldl (fun s x => g x.type x.payload s) s) := by
  have hboxes := boxesFrom_append [] r xs
  have hend := boxesFrom_incomplete (xs.flatMap Box.encode) r h
  simp only [List.nil_append, List.length_nil, Nat.zero_add] at hboxes
  rw [hend, List.append_nil] at hboxes
  rw [walkBoxes_eq, hboxes, visit_continue, List.foldl_map]
  rfl

/-! ## Payloads -/

/-- A box of a buffer: its type, and where its payload starts and ends. -/
structure BoxSpan where
  type : Bytes
  start : Nat
  stop : Nat

/-- What the callback is given for the box. -/
def BoxSpan.read (b : Bytes) (x : BoxSpan) : Bytes × Bytes :=
  (x.type, (b.drop x.start).take (x.stop - x.start))

/-- The payload of a box is a slice behind its header. -/
theorem span_of_boxAt {b t p : Bytes} {i j : Nat} (h : boxAt b i = some (some (t, p, j))) :
    ∃ x : BoxSpan, x.read b = (t, p) ∧ i < x.start ∧ x.start ≤ x.stop ∧ x.stop = j ∧
      x.stop ≤ b.length := by
  have hpayload : ∀ {boxType : Bytes} {size headerLen : Nat}, 0 < headerLen →
      boxAt.payload b i boxType size headerLen = some (some (t, p, j)) →
      ∃ x : BoxSpan, x.read b = (t, p) ∧ i < x.start ∧ x.start ≤ x.stop ∧ x.stop = j ∧
        x.stop ≤ b.length := by
    intro boxType size headerLen hpos hp
    obtain ⟨rfl, rfl, hle, hslice⟩ := payload_eq_some hp
    obtain ⟨-, hlen, hbounds⟩ := Bytes.length_of_slice hslice
    rw [Bytes.slice_of_le hbounds hlen] at hslice
    exact ⟨⟨t, i + headerLen, i + size⟩, Prod.ext rfl (Option.some.inj hslice), by dsimp only; omega,
      hbounds, rfl, hlen⟩
  unfold boxAt at h
  obtain ⟨size₀, -, h⟩ := Option.bind_eq_some_iff.mp h
  obtain ⟨boxType, -, h⟩ := Option.bind_eq_some_iff.mp h
  split at h
  · split at h
    · exact absurd h (by simp)
    obtain ⟨size₁, -, h⟩ := Option.bind_eq_some_iff.mp h
    split at h
    · exact absurd h (by simp)
    · exact hpayload (by decide) h
  split at h
  · exact absurd h (by simp)
  · exact hpayload (by decide) h

/-- The payloads are slices of the buffer, in order and disjoint. -/
theorem exists_spans (b : Bytes) (i : Nat) :
    ∃ spans : List BoxSpan, boxesFrom b i = spans.map (BoxSpan.read b) ∧
      (∀ x ∈ spans, i < x.start ∧ x.start ≤ x.stop ∧ x.stop ≤ b.length) ∧
      spans.Pairwise fun x y => x.stop < y.start := by
  fun_induction boxesFrom b i with
  | case1 i hi t p j h hj ih =>
    obtain ⟨spans, hmap, hbounds, hordered⟩ := ih
    obtain ⟨x, hread, hstart, hle, rfl, hstop⟩ := span_of_boxAt h
    refine ⟨x :: spans, by rw [hmap, List.map_cons, hread], ?_, ?_⟩
    · intro y hy
      rcases List.mem_cons.mp hy with rfl | hy
      · exact ⟨hstart, hle, hstop⟩
      · obtain ⟨hlt, hle', hstop'⟩ := hbounds y hy
        exact ⟨by omega, hle', hstop'⟩
    · exact List.Pairwise.cons (fun y hy => (hbounds y hy).1) hordered
  | case2 i hi h => exact ⟨[], rfl, by simp, List.Pairwise.nil⟩
  | case3 i hi => exact ⟨[], rfl, by simp, List.Pairwise.nil⟩

/-! ## Machine integers -/

/-- The value as an `int` of 64 bits; none if it does not fit. -/
def int64 (n : Nat) : Option Nat := if n < 2 ^ 63 then some n else none

/-- A number below 2^63 is an `int64`. -/
theorem int64_of_lt {n : Nat} (h : n < 2 ^ 63) : int64 n = some n := if_pos h

/-- And stays the number it is. -/
theorem int64_eq_some {n m : Nat} (h : int64 n = some m) : m = n := by
  unfold int64 at h
  split at h
  · exact (Option.some.inj h).symm
  · exact absurd h (by simp)

/-- The box at a position, with a failure where an addition or a conversion leaves the range of `int`.

Source: `dimensions.go` walkBoxes -/
def boxAtChecked (b : Bytes) (i : Nat) : Option (Option (Bytes × Bytes × Nat)) := do
  let mid ← int64 (i + 4)
  let behind ← int64 (i + 8)
  let size₀ ← b.slice i mid
  let size ← int64 size₀.be
  let boxType ← b.slice mid behind
  if size = 1 then
    let behind' ← int64 (i + 16)
    if b.length < behind' then some none
    else
      let size₁ ← b.slice behind behind'
      if b.length < size₁.be then some none
      else
        let size ← int64 size₁.be
        payload boxType size 16
  else if size = 0 then some none
  else payload boxType size 8
where
  payload (boxType : Bytes) (size headerLen : Nat) : Option (Option (Bytes × Bytes × Nat)) :=
    if size < headerLen then some none
    else do
      let stop ← int64 (i + size)
      if b.length < stop then some none
      else
        let start ← int64 (i + headerLen)
        let p ← b.slice start stop
        some (some (boxType, p, stop))

/-- What the checked walk finds the other one finds. -/
theorem payload_of_checked {b t : Bytes} {i size headerLen : Nat} {r : Option (Bytes × Bytes × Nat)}
    (h : boxAtChecked.payload b i t size headerLen = some r) :
    boxAt.payload b i t size headerLen = some r := by
  unfold boxAtChecked.payload at h
  unfold boxAt.payload
  split at h
  · rename_i hsize
    rw [if_pos (.inl hsize)]
    exact h
  rename_i hsize
  obtain ⟨stop, hstop, h⟩ := Option.bind_eq_some_iff.mp h
  obtain rfl := int64_eq_some hstop
  split at h
  · rename_i hlen
    rw [if_pos (.inr hlen)]
    exact h
  rename_i hlen
  obtain ⟨start, hstart, h⟩ := Option.bind_eq_some_iff.mp h
  obtain rfl := int64_eq_some hstart
  rw [if_neg (by omega)]
  exact h

/-- Where no check fails, the box is the one that is read with exact numbers. -/
theorem boxAt_of_checked {b : Bytes} {i : Nat} {r : Option (Bytes × Bytes × Nat)}
    (h : boxAtChecked b i = some r) : boxAt b i = some r := by
  unfold boxAtChecked at h
  obtain ⟨mid, hmid, h⟩ := Option.bind_eq_some_iff.mp h
  obtain rfl := int64_eq_some hmid
  obtain ⟨behind, hbehind, h⟩ := Option.bind_eq_some_iff.mp h
  obtain rfl := int64_eq_some hbehind
  obtain ⟨size₀, hsize₀, h⟩ := Option.bind_eq_some_iff.mp h
  obtain ⟨size, hsize, h⟩ := Option.bind_eq_some_iff.mp h
  obtain rfl := int64_eq_some hsize
  obtain ⟨boxType, htype, h⟩ := Option.bind_eq_some_iff.mp h
  unfold boxAt
  rw [hsize₀, Option.bind_eq_bind, Option.bind_some, htype, Option.bind_some]
  split at h
  · rename_i hone
    rw [if_pos hone]
    obtain ⟨behind', hbehind', h⟩ := Option.bind_eq_some_iff.mp h
    obtain rfl := int64_eq_some hbehind'
    split at h
    · rename_i hlen
      rw [if_pos hlen]
      exact h
    rename_i hlen
    obtain ⟨size₁, hsize₁, h⟩ := Option.bind_eq_some_iff.mp h
    rw [if_neg hlen, hsize₁, Option.bind_some]
    split at h
    · rename_i hlarge
      rw [if_pos hlarge]
      exact h
    · rename_i hlarge
      obtain ⟨size, hsize, h⟩ := Option.bind_eq_some_iff.mp h
      obtain rfl := int64_eq_some hsize
      rw [if_neg hlarge]
      exact payload_of_checked h
  · rename_i hone
    rw [if_neg hone]
    split at h
    · rename_i hzero
      rw [if_pos hzero]
      exact h
    · rename_i hzero
      rw [if_neg hzero]
      exact payload_of_checked h

/-- The walk with machine integers.

Source: `dimensions.go` walkBoxes -/
def walkBoxesChecked {σ : Type} (fn : Bytes → Bytes → σ → Option (σ × Bool)) (b : Bytes) (i : Nat)
    (s : σ) : Option σ :=
  if 2 ^ 63 ≤ i + 8 then none
  else if hi : i + 8 ≤ b.length then
    match h : boxAtChecked b i with
    | none => none
    | some none => some s
    | some (some (t, p, j)) =>
      match fn t p s with
      | none => none
      | some (s', false) => some s'
      | some (s', true) =>
        have : b.length - j < b.length - i := by
          have hlt := boxAt_lt (boxAt_of_checked h)
          omega
        walkBoxesChecked fn b j s'
  else some s
termination_by b.length - i

/-- A buffer: a slice of bytes, which lie in an address space of far less than `2 ^ 62` bytes. -/
structure Buffer where
  bytes : Bytes
  fits : bytes.length < 2 ^ 62

/-- No `int64` overflows in a buffer of less than 2^62 bytes. -/
theorem payloadChecked_ne_none {b t : Bytes} {i size headerLen : Nat} (hb : b.length < 2 ^ 62)
    (hi : i ≤ b.length) (hsize : size < 2 ^ 62) (hheader : headerLen ≤ 16) :
    boxAtChecked.payload b i t size headerLen ≠ none := by
  unfold boxAtChecked.payload
  split
  · simp
  rename_i hle
  rw [int64_of_lt (show i + size < 2 ^ 63 by omega), Option.bind_eq_bind, Option.bind_some]
  split
  · simp
  · rename_i hlen
    rw [int64_of_lt (by omega), Option.bind_some, Bytes.slice_of_le (by omega) (by omega)]
    simp

/-- Nothing wraps at a box whose header is in range. -/
theorem boxAtChecked_ne_none {b : Bytes} {i : Nat} (hb : b.length < 2 ^ 62) (hi : i + 8 ≤ b.length) :
    boxAtChecked b i ≠ none := by
  have hsize₀ := Bytes.slice_of_le (b := b) (show i ≤ i + 4 by omega) (by omega)
  obtain ⟨hlen₀, -, -⟩ := Bytes.length_of_slice hsize₀
  have hlt₀ := Bytes.be_lt ((b.drop i).take (i + 4 - i))
  rw [hlen₀, Nat.add_sub_cancel_left] at hlt₀
  rw [Nat.add_sub_cancel_left] at hsize₀
  unfold boxAtChecked
  simp only [Option.bind_eq_bind]
  rw [int64_of_lt (by omega), Option.bind_some, int64_of_lt (by omega), Option.bind_some, hsize₀,
    Option.bind_some, int64_of_lt (by omega), Option.bind_some,
    Bytes.slice_of_le (by omega) hi, Option.bind_some]
  split
  · rw [int64_of_lt (by omega), Option.bind_some]
    split
    · simp
    rename_i hshort
    rw [Bytes.slice_of_le (by omega) (by omega), Option.bind_some]
    split
    · simp
    · rename_i hlarge
      rw [int64_of_lt (by omega), Option.bind_some]
      exact payloadChecked_ne_none hb (by omega) (by omega) (by omega)
  split
  · simp
  · exact payloadChecked_ne_none hb (by omega) (by omega) (by omega)

/-- Nothing wraps in the walk. -/
theorem walkBoxesChecked_eq {σ : Type} (fn : Bytes → Bytes → σ → Option (σ × Bool)) {b : Bytes}
    (hb : b.length < 2 ^ 62) {i : Nat} (hi : i ≤ b.length) (s : σ) :
    walkBoxesChecked fn b i s = walkBoxes fn b i s := by
  rw [walkBoxes_eq]
  fun_induction walkBoxesChecked fn b i s with
  | case1 i s hwrap => omega
  | case2 i s hwrap hi' h => exact absurd h (boxAtChecked_ne_none hb hi')
  | case3 i s hwrap hi' h => rw [boxesFrom_nil (.inr (boxAt_of_checked h)), visit]
  | case4 i s hwrap hi' t p j h hf => rw [boxesFrom_cons hi' (boxAt_of_checked h), visit, hf]
  | case5 i s hwrap hi' t p j h s' hf => rw [boxesFrom_cons hi' (boxAt_of_checked h), visit, hf]
  | case6 i s hwrap hi' t p j h s' hf hlt ih =>
    obtain ⟨x, -, -, -, rfl, hstop⟩ := span_of_boxAt (boxAt_of_checked h)
    rw [boxesFrom_cons hi' (boxAt_of_checked h), visit, hf, ih hstop]
  | case7 i s hwrap hi' => rw [boxesFrom_nil (.inl hi'), visit]

/-- A visit whose steps return returns. -/
theorem visit_ne_none {σ : Type} {fn : Bytes → Bytes → σ → Option (σ × Bool)}
    (hfn : ∀ t p s, fn t p s ≠ none) (xs : List (Bytes × Bytes)) (s : σ) : visit fn xs s ≠ none := by
  fun_induction visit fn xs s with
  | case1 s => simp
  | case2 t p xs s hf => exact absurd hf (hfn t p s)
  | case3 t p xs s s' hf => simp
  | case4 t p xs s s' hf ih => exact ih

/-- **The walk decodes what the encoding writes.** In front of any tail that is no complete box it
meets exactly the encoded boxes. On any buffer it ends, nothing wraps in it, and what it meets are
slices of the buffer, one behind the other. -/
theorem walkBoxes_decodes :
    (∀ (xs : List Box) (r : Bytes), Incomplete r →
      ∀ (σ : Type) (g : Bytes → Bytes → σ → σ) (s : σ),
        walkBoxes (fun t p s => some (g t p s, true)) (xs.flatMap Box.encode ++ r) 0 s =
          some (xs.foldl (fun s x => g x.type x.payload s) s)) ∧
    ∀ buf : Buffer, ∃ spans : List BoxSpan,
      (∀ x ∈ spans, x.start ≤ x.stop ∧ x.stop ≤ buf.bytes.length) ∧
      (spans.Pairwise fun x y => x.stop < y.start) ∧
      ∀ (σ : Type) (fn : Bytes → Bytes → σ → Option (σ × Bool)) (s : σ),
        walkBoxesChecked fn buf.bytes 0 s = walkBoxes fn buf.bytes 0 s ∧
        walkBoxes fn buf.bytes 0 s = visit fn (spans.map (BoxSpan.read buf.bytes)) s ∧
        ((∀ t p s, fn t p s ≠ none) → walkBoxes fn buf.bytes 0 s ≠ none) := by
  constructor
  · intro xs r h σ g s
    exact walkBoxes_encode xs h g s
  · intro buf
    obtain ⟨spans, hmap, hbounds, hordered⟩ := exists_spans buf.bytes 0
    refine ⟨spans, fun x hx => (hbounds x hx).2, hordered, ?_⟩
    intro σ fn s
    refine ⟨walkBoxesChecked_eq fn buf.fits (Nat.zero_le _) s, by rw [walkBoxes_eq, hmap], ?_⟩
    intro hfn
    rw [walkBoxes_eq]
    exact visit_ne_none hfn _ s

/-- A box with a size of 32 bits, one with a size of 64 bits, and a box that is cut off. -/
theorem walkBoxes_decodes_two :
    walkBoxes (fun t p seen => some (seen ++ [(t, p)], true))
        ([ispeBox 640 480, ⟨Bytes.ascii "free", [1, 2], true, rfl, by decide⟩].flatMap Box.encode ++
          [0, 0, 0, 9, 0x66, 0x72, 0x65, 0x65]) 0 [] =
      some (List.foldl (fun seen x => seen ++ [(x.type, x.payload)]) []
        [ispeBox 640 480, ⟨Bytes.ascii "free", [1, 2], true, rfl, by decide⟩]) := by
  refine walkBoxes_decodes.1 _ _ ?_ _ (fun t p seen => seen ++ [(t, p)]) []
  intro size headerLen h
  have hsize : headerSize [0, 0, 0, 9, 0x66, 0x72, 0x65, 0x65] = some (9, 8) := by decide
  rw [hsize] at h
  obtain ⟨rfl, rfl⟩ := Prod.mk.inj (Option.some.inj h)
  decide

end OctoConv
