import OctoConv.Convert.Dimensions

/-!
# The image boxes of HEIC

A HEIC declares sizes in ispe boxes below meta, iprp and ipco. The walk goes down into the first box of
each of the three types only, so a larger size in a later one stays unseen.

Source: `internal/convert/dimensions.go` walkBoxes, heicDimensions.

## Main results

* `boxAt_encode`, `encode_of_boxAt` — what is read as a box is the encoding of one.
* `contains_iff` — the boxes of the walk are those of the well-formed beginning.
* `walkBoxes_eq` — the walk is the callback over these boxes.
* `heicDimensions_covers_iff` — the walk covers every image box exactly if the first boxes do.
-/

namespace OctoConv

open Conc

/-! ## One box -/

/-- What stands behind a slice. -/
theorem drop_of_slice {b s : Bytes} {lo hi : Nat} (h : b.slice lo hi = some s) :
    b.drop lo = s ++ b.drop hi := by
  obtain ⟨-, -, hle⟩ := Bytes.length_of_slice h
  unfold Bytes.slice at h
  split at h
  · obtain rfl : (b.drop lo).take (hi - lo) = s := by simpa using h
    have hdrop : b.drop hi = (b.drop lo).drop (hi - lo) := by
      rw [List.drop_drop]
      congr 1
      omega
    rw [hdrop, List.take_append_drop]
  · exact absurd h (by simp)

/-- Four bytes are the writing of their number. -/
theorem ofBE_of_length {s : Bytes} {n : Nat} (h : s.length = n) : Bytes.ofBE n s.be = s := by
  rw [← h]
  exact Bytes.ofBE_be s

/-- The access succeeds, so the failure comes later. -/
theorem bind_slice_eq_none {α : Type} {b : Bytes} {lo hi : Nat} {f : Bytes → Option α} (h : lo ≤ hi)
    (hlen : hi ≤ b.length) (hf : (b.slice lo hi).bind f = none) : ∃ s, f s = none := by
  rw [Bytes.slice_of_le h hlen] at hf
  exact ⟨_, hf⟩

/-- A box with its header in range is read without a panic. -/
theorem boxAt_total {b : Bytes} {i : Nat} (hi : i + 8 ≤ b.length) : boxAt b i ≠ none := by
  have hpayload : ∀ {boxType : Bytes} {size headerLen : Nat},
      boxAt.payload b i boxType size headerLen ≠ none := by
    intro boxType size headerLen h
    unfold boxAt.payload at h
    split at h
    · exact absurd h (by simp)
    rename_i hsize
    have hslice : b.slice (i + headerLen) (i + size) = some _ :=
      Bytes.slice_of_le (by omega) (by omega)
    rw [hslice] at h
    exact absurd h (by simp)
  intro h
  unfold boxAt at h
  obtain ⟨size₀, h⟩ := bind_slice_eq_none (by omega) (by omega) h
  obtain ⟨boxType, h⟩ := bind_slice_eq_none (by omega) (by omega) h
  split at h
  · split at h
    · exact absurd h (by simp)
    obtain ⟨size₁, h⟩ := bind_slice_eq_none (by omega) (by omega) h
    split at h
    · exact absurd h (by simp)
    · exact hpayload h
  split at h
  · exact absurd h (by simp)
  · exact hpayload h

/-- The payload part of a box that was read. -/
theorem payload_eq_some {b t t' p : Bytes} {i j size headerLen : Nat}
    (h : boxAt.payload b i t size headerLen = some (some (t', p, j))) :
    t' = t ∧ j = i + size ∧ headerLen ≤ size ∧ b.slice (i + headerLen) (i + size) = some p := by
  unfold boxAt.payload at h
  split at h
  · exact absurd h (by simp)
  rename_i hsize
  obtain ⟨q, hq, h⟩ := Option.bind_eq_some_iff.mp h
  simp only [Option.some.injEq, Prod.mk.injEq] at h
  obtain ⟨rfl, rfl, rfl⟩ := h
  exact ⟨rfl, rfl, by omega, hq⟩

/-- What is read as a box is the encoding of one. -/
theorem encode_of_boxAt {b t p : Bytes} {i j : Nat} (h : boxAt b i = some (some (t, p, j))) :
    ∃ x : Box, x.type = t ∧ x.payload = p ∧ b.drop i = x.encode ++ b.drop j := by
  unfold boxAt at h
  obtain ⟨size₀, hsize₀, h⟩ := Option.bind_eq_some_iff.mp h
  obtain ⟨boxType, htype, h⟩ := Option.bind_eq_some_iff.mp h
  have hlen₀ : size₀.length = 4 := by
    obtain ⟨hlen, -, -⟩ := Bytes.length_of_slice hsize₀
    omega
  have hlent : boxType.length = 4 := by
    obtain ⟨hlen, -, -⟩ := Bytes.length_of_slice htype
    omega
  have hlt := Bytes.be_lt size₀
  rw [hlen₀] at hlt
  split at h
  · rename_i hone
    split at h
    · exact absurd h (by simp)
    obtain ⟨size₁, hsize₁, h⟩ := Option.bind_eq_some_iff.mp h
    split at h
    · exact absurd h (by simp)
    obtain ⟨rfl, rfl, hle, hp⟩ := payload_eq_some h
    have hlen₁ : size₁.length = 8 := by
      obtain ⟨hlen, -, -⟩ := Bytes.length_of_slice hsize₁
      omega
    have hlenp : 16 + p.length = size₁.be := by
      obtain ⟨hlen, -, -⟩ := Bytes.length_of_slice hp
      omega
    have hlt₁ := Bytes.be_lt size₁
    rw [hlen₁] at hlt₁
    refine ⟨⟨t, p, true, hlent, by simp only [↓reduceIte]; omega⟩, rfl, rfl, ?_⟩
    have hencode : b.drop i = Bytes.ofBE 4 1 ++ t ++ Bytes.ofBE 8 (16 + p.length) ++ p ++
        b.drop (i + size₁.be) := by
      rw [drop_of_slice hsize₀, drop_of_slice htype, drop_of_slice hsize₁, drop_of_slice hp, hlenp,
        ofBE_of_length hlen₁, ← hone, ofBE_of_length hlen₀]
      simp only [List.append_assoc]
    exact hencode
  split at h
  · exact absurd h (by simp)
  obtain ⟨rfl, rfl, hle, hp⟩ := payload_eq_some h
  have hlenp : 8 + p.length = size₀.be := by
    obtain ⟨hlen, -, -⟩ := Bytes.length_of_slice hp
    omega
  refine ⟨⟨t, p, false, hlent, by simp only [Bool.false_eq_true, ↓reduceIte]; omega⟩, rfl, rfl, ?_⟩
  have hencode : b.drop i = Bytes.ofBE 4 (8 + p.length) ++ t ++ p ++ b.drop (i + size₀.be) := by
    rw [drop_of_slice hsize₀, drop_of_slice htype, drop_of_slice hp, hlenp, ofBE_of_length hlen₀]
    simp only [List.append_assoc]
  exact hencode

/-- A slice at a known place. -/
theorem slice_at {p s r : Bytes} {lo hi : Nat} (hlo : lo = p.length) (hhi : hi = lo + s.length) :
    Bytes.slice (p ++ (s ++ r)) lo hi = some s := by
  subst hlo hhi
  have h := Bytes.slice_append p (s ++ r) 0 s.length
  rw [Nat.add_zero] at h
  rw [h]
  exact Bytes.slice_prefix s r

/-- An encoded box is read back. -/
theorem boxAt_encode (p r : Bytes) (x : Box) :
    boxAt (p ++ (x.encode ++ r)) p.length =
      some (some (x.type, x.payload, p.length + x.encode.length)) := by
  have htype := x.length_type
  have hfits := x.fits
  have hlen := x.length_encode
  have hbound : p.length + x.encode.length ≤ (p ++ (x.encode ++ r)).length := by
    simp only [List.length_append]
    omega
  unfold boxAt
  by_cases hwide : x.wide = true
  · rw [if_pos hwide] at hfits hlen
    have hshape : p ++ (x.encode ++ r) = p ++ (Bytes.ofBE 4 1 ++
        (x.type ++ (Bytes.ofBE 8 (16 + x.payload.length) ++ (x.payload ++ r)))) := by
      simp [Box.encode, Box.header, hwide]
    have hsize₀ : Bytes.slice (p ++ (x.encode ++ r)) p.length (p.length + 4) =
        some (Bytes.ofBE 4 1) := by
      rw [hshape]
      exact slice_at rfl (by simp)
    have hboxType : Bytes.slice (p ++ (x.encode ++ r)) (p.length + 4) (p.length + 8) =
        some x.type := by
      rw [hshape, ← List.append_assoc p]
      exact slice_at (by simp) (by omega)
    have hsize₁ : Bytes.slice (p ++ (x.encode ++ r)) (p.length + 8) (p.length + 16) =
        some (Bytes.ofBE 8 (16 + x.payload.length)) := by
      rw [hshape, ← List.append_assoc p, ← List.append_assoc (p ++ _)]
      exact slice_at (by simp [htype]) (by simp)
    have hpayload : Bytes.slice (p ++ (x.encode ++ r)) (p.length + 16)
        (p.length + (16 + x.payload.length)) = some x.payload := by
      rw [hshape, ← List.append_assoc p, ← List.append_assoc (p ++ _),
        ← List.append_assoc (p ++ _ ++ _)]
      exact slice_at (by simp [htype]) (by omega)
    rw [hsize₀, Option.bind_eq_bind, Option.bind_some, hboxType, Option.bind_some,
      Bytes.be_ofBE (by decide), if_pos rfl, if_neg (by omega), hsize₁, Option.bind_some,
      Bytes.be_ofBE (by omega), if_neg (by omega)]
    unfold boxAt.payload
    rw [if_neg (by omega), hpayload, hlen]
    rfl
  · rw [if_neg hwide] at hfits hlen
    have hshape : p ++ (x.encode ++ r) = p ++ (Bytes.ofBE 4 (8 + x.payload.length) ++
        (x.type ++ (x.payload ++ r))) := by
      simp [Box.encode, Box.header, hwide]
    have hsize₀ : Bytes.slice (p ++ (x.encode ++ r)) p.length (p.length + 4) =
        some (Bytes.ofBE 4 (8 + x.payload.length)) := by
      rw [hshape]
      exact slice_at rfl (by simp)
    have hboxType : Bytes.slice (p ++ (x.encode ++ r)) (p.length + 4) (p.length + 8) =
        some x.type := by
      rw [hshape, ← List.append_assoc p]
      exact slice_at (by simp) (by omega)
    have hpayload : Bytes.slice (p ++ (x.encode ++ r)) (p.length + 8)
        (p.length + (8 + x.payload.length)) = some x.payload := by
      rw [hshape, ← List.append_assoc p, ← List.append_assoc (p ++ _)]
      exact slice_at (by simp [htype]) (by omega)
    rw [hsize₀, Option.bind_eq_bind, Option.bind_some, hboxType, Option.bind_some,
      Bytes.be_ofBE (by omega), if_neg (by omega), if_neg (by omega)]
    unfold boxAt.payload
    rw [if_neg (by omega), hpayload, hlen]
    rfl

/-! ## The boxes of a buffer -/

/-- The types and payloads of the boxes from position `i` on, up to the first that is not
well-formed. -/
def boxesFrom (b : Bytes) (i : Nat) : List (Bytes × Bytes) :=
  if hi : i + 8 ≤ b.length then
    match h : boxAt b i with
    | some (some (t, p, j)) =>
      have : b.length - j < b.length - i := by
        have hlt := boxAt_lt h
        omega
      (t, p) :: boxesFrom b j
    | _ => []
  else []
termination_by b.length - i

/-- The walk goes on behind a box. -/
theorem boxesFrom_cons {b t p : Bytes} {i j : Nat} (hi : i + 8 ≤ b.length)
    (h : boxAt b i = some (some (t, p, j))) : boxesFrom b i = (t, p) :: boxesFrom b j := by
  conv => lhs; unfold boxesFrom
  rw [dif_pos hi]
  split
  · rename_i t' p' j' h'
    rw [h] at h'
    simp only [Option.some.injEq, Prod.mk.injEq] at h'
    obtain ⟨rfl, rfl, rfl⟩ := h'
    rfl
  · rename_i hnot
    exact absurd h (hnot _ _ _)

/-- The walk ends where there is no box. -/
theorem boxesFrom_nil {b : Bytes} {i : Nat} (h : ¬ i + 8 ≤ b.length ∨ boxAt b i = some none) :
    boxesFrom b i = [] := by
  unfold boxesFrom
  split
  · rename_i hi
    obtain hnone : boxAt b i = some none := h.resolve_left (fun hlen => hlen hi)
    split
    · rename_i h'
      rw [hnone] at h'
      exact absurd h' (by simp)
    · rfl
  · rfl

/-- The type and payload of a box. -/
def boxPair (x : Box) : Bytes × Bytes := (x.type, x.payload)

/-- The walk meets encoded boxes in their order. -/
theorem boxesFrom_append (p r : Bytes) (xs : List Box) :
    boxesFrom (p ++ (xs.flatMap Box.encode ++ r)) p.length =
      xs.map boxPair ++ boxesFrom (p ++ (xs.flatMap Box.encode ++ r))
        (p.length + (xs.flatMap Box.encode).length) := by
  induction xs generalizing p with
  | nil => rfl
  | cons x xs ih =>
    have hih := ih (p ++ x.encode)
    rw [List.append_assoc, List.length_append, Nat.add_assoc] at hih
    have hlen := x.length_encode
    have hbox := boxAt_encode p (xs.flatMap Box.encode ++ r) x
    rw [List.flatMap_cons, List.length_append, List.append_assoc]
    have hi : p.length + 8 ≤ (p ++ (x.encode ++ (xs.flatMap Box.encode ++ r))).length := by
      simp only [List.length_append]
      split at hlen <;> omega
    rw [boxesFrom_cons hi hbox, hih]
    rfl

/-- The boxes that the walk meets are well-formed. -/
theorem prefix_boxesFrom (b : Bytes) (i : Nat) :
    ∃ xs, Box.Prefix (b.drop i) xs ∧ xs.map boxPair = boxesFrom b i := by
  fun_induction boxesFrom b i with
  | case1 i hi t p j h hj ih =>
    obtain ⟨x, rfl, rfl, hdrop⟩ := encode_of_boxAt h
    obtain ⟨xs, hxs, hmap⟩ := ih
    refine ⟨x :: xs, ?_, ?_⟩
    · unfold Box.Prefix at *
      rw [hdrop, List.flatMap_cons]
      exact (List.prefix_append_right_inj _).mpr hxs
    · rw [List.map_cons, hmap]
      rfl
  | case2 i hi h => exact ⟨[], List.nil_prefix, rfl⟩
  | case3 i hi => exact ⟨[], List.nil_prefix, rfl⟩

/-- Boxes at the beginning are the first ones of the walk. -/
theorem boxesFrom_of_prefix {b : Bytes} {xs : List Box} (h : Box.Prefix b xs) :
    ∃ ys, boxesFrom b 0 = xs.map boxPair ++ ys := by
  obtain ⟨r, rfl⟩ := h
  exact ⟨_, boxesFrom_append [] r xs⟩

/-- Encoded boxes and nothing else are read back. -/
theorem boxesFrom_encode (xs : List Box) :
    boxesFrom (xs.flatMap Box.encode) 0 = xs.map boxPair := by
  have h := boxesFrom_append [] [] xs
  rw [List.nil_append, List.append_nil, List.length_nil, Nat.zero_add] at h
  have hend : boxesFrom (xs.flatMap Box.encode) (xs.flatMap Box.encode).length = [] :=
    boxesFrom_nil (.inl (by omega))
  rw [h, hend, List.append_nil]

/-- The boxes of the walk are those of the well-formed beginning. -/
theorem contains_iff {b t p : Bytes} : Contains b t p ↔ (t, p) ∈ boxesFrom b 0 := by
  constructor
  · rintro ⟨xs, hxs, x, hx, rfl, rfl⟩
    obtain ⟨ys, hys⟩ := boxesFrom_of_prefix hxs
    rw [hys]
    exact List.mem_append_left _ (List.mem_map.mpr ⟨x, hx, rfl⟩)
  · intro h
    obtain ⟨xs, hxs, hmap⟩ := prefix_boxesFrom b 0
    rw [← hmap] at h
    obtain ⟨x, hx, hpair⟩ := List.mem_map.mp h
    simp only [boxPair, Prod.mk.injEq] at hpair
    exact ⟨xs, hxs, x, hx, hpair.1, hpair.2⟩

/-- A box of this type with at least `n` bytes. -/
def isBox (type : Bytes) (n : Nat) (x : Bytes × Bytes) : Bool := x.1 = type ∧ n ≤ x.2.length

/-- The first box of a type in the walk is the one of the well-formed beginning. -/
theorem leads_iff {b t p : Bytes} {n : Nat} :
    Leads b t n p ↔ (boxesFrom b 0).find? (isBox t n) = some (t, p) := by
  constructor
  · rintro ⟨xs, x, hstarts, ⟨rfl, hn⟩, rfl, hfirst⟩
    obtain ⟨ys, hys⟩ := boxesFrom_of_prefix hstarts
    have hnone : (xs.map boxPair).find? (isBox x.type n) = none := by
      rw [List.find?_eq_none]
      intro y hy
      obtain ⟨z, hz, rfl⟩ := List.mem_map.mp hy
      unfold isBox boxPair
      rw [decide_eq_true_eq]
      exact hfirst z hz
    rw [hys, List.map_append, List.append_assoc, List.find?_append, hnone]
    simp [isBox, boxPair, hn]
  · intro h
    obtain ⟨hbox, as, bs, hsplit, hfirst⟩ := List.find?_eq_some_iff_append.mp h
    obtain ⟨xs, hxs, hmap⟩ := prefix_boxesFrom b 0
    rw [List.drop_zero] at hxs
    rw [hsplit] at hmap
    obtain ⟨xs₁, xs₂, rfl, has, hbs⟩ := List.map_eq_append_iff.mp hmap
    obtain ⟨x, xs₂, rfl, hx, -⟩ := List.map_eq_cons_iff.mp hbs
    simp only [boxPair, Prod.mk.injEq] at hx
    obtain ⟨rfl, rfl⟩ := hx
    refine ⟨xs₁, x, ?_, by simpa [isBox] using hbox, rfl, ?_⟩
    · rw [← List.singleton_append, ← List.append_assoc] at hxs
      exact hxs.take
    · intro y hy
      have hneg := hfirst (boxPair y) (by rw [← has]; exact List.mem_map.mpr ⟨y, hy, rfl⟩)
      unfold isBox boxPair at hneg
      simpa only [Bool.not_eq_true', decide_eq_false_iff_not] using hneg

/-! ## The walk -/

/-- The callback for these boxes, until it returns false. -/
def visit {σ : Type} (fn : Bytes → Bytes → σ → Option (σ × Bool)) : List (Bytes × Bytes) → σ → Option σ
  | [], s => some s
  | (t, p) :: xs, s =>
    match fn t p s with
    | none => none
    | some (s', false) => some s'
    | some (s', true) => visit fn xs s'

/-- The walk is the callback for the boxes of the buffer. -/
theorem walkBoxes_eq {σ : Type} (fn : Bytes → Bytes → σ → Option (σ × Bool)) (b : Bytes) (i : Nat)
    (s : σ) : walkBoxes fn b i s = visit fn (boxesFrom b i) s := by
  fun_induction walkBoxes fn b i s with
  | case1 i s hi h => exact absurd h (boxAt_total hi)
  | case2 i s hi h => rw [boxesFrom_nil (.inr h), visit]
  | case3 i s hi t p j h hf => rw [boxesFrom_cons hi h, visit, hf]
  | case4 i s hi t p j h s' hf => rw [boxesFrom_cons hi h, visit, hf]
  | case5 i s hi t p j h s' hf hlt ih => rw [boxesFrom_cons hi h, visit, hf, ih]
  | case6 i s hi => rw [boxesFrom_nil (.inl hi), visit]

/-- A callback that goes down into the first box of a kind and stops. -/
theorem visit_first {σ : Type} (fn : Bytes → Bytes → σ → Option (σ × Bool))
    (kind : Bytes × Bytes → Bool) (down : Bytes → σ → Option σ)
    (hfn : ∀ t p s, fn t p s = if kind (t, p) then (down p s).map fun s => (s, false)
      else some (s, true))
    (xs : List (Bytes × Bytes)) (s : σ) :
    visit fn xs s =
      match xs.find? kind with
      | some x => down x.2 s
      | none => some s := by
  induction xs with
  | nil => rfl
  | cons x xs ih =>
    obtain ⟨t, p⟩ := x
    unfold visit
    rw [hfn, List.find?_cons]
    by_cases hkind : kind (t, p) = true
    · rw [if_pos hkind, hkind]
      change _ = down p s
      cases down p s with
      | none => rfl
      | some s' => rfl
    · rw [if_neg hkind, Bool.eq_false_iff.mpr hkind]
      exact ih

/-! ## The images -/

/-- The number of pixels. -/
def Dims.area (d : Dims) : Nat := d.1 * d.2

/-- What an ispe box declares. -/
def ispeDims (p : Bytes) : Dims := (Bytes.be ((p.drop 4).take 4), Bytes.be ((p.drop 8).take 4))

/-- What the ispe boxes among these declare. -/
def images (xs : List (Bytes × Bytes)) : List Dims :=
  (xs.filter (isBox (Bytes.ascii "ispe") 12)).map fun x => ispeDims x.2

/-- What the ispe boxes below the first meta, iprp and ipco declare. -/
def firstImages (b : Bytes) : List Dims :=
  match (boxesFrom b 0).find? (isBox (Bytes.ascii "meta") 4) with
  | none => []
  | some m =>
    match (boxesFrom (m.2.drop 4) 0).find? (isBox (Bytes.ascii "iprp") 0) with
    | none => []
    | some i =>
      match (boxesFrom i.2 0).find? (isBox (Bytes.ascii "ipco") 0) with
      | none => []
      | some c => images (boxesFrom c.2 0)

/-- What one more image does to the largest dimensions. -/
def HeicState.grow (s : HeicState) (d : Dims) : HeicState :=
  if s.maxW * s.maxH < d.area then ⟨d.1, d.2, true⟩ else { s with found := true }

/-- The dimensions that a state stands for. -/
def HeicState.dims (s : HeicState) : Dims := (s.maxW, s.maxH)

/-- The walk over the images grows by each of them. -/
theorem visit_heicIspe (xs : List (Bytes × Bytes)) (s : HeicState) :
    visit heicIspe xs s = some ((images xs).foldl HeicState.grow s) := by
  induction xs generalizing s with
  | nil => rfl
  | cons x xs ih =>
    obtain ⟨t, p⟩ := x
    unfold visit heicIspe
    by_cases hkind : t = Bytes.ascii "ispe" ∧ 12 ≤ p.length
    · have himages : images ((t, p) :: xs) = ispeDims p :: images xs := by
        unfold images
        rw [List.filter_cons_of_pos (by simpa [isBox] using hkind), List.map_cons]
      have hstep : heicIspe t p s = some (s.grow (ispeDims p), true) := by
        unfold heicIspe
        rw [if_pos hkind, Bytes.slice_of_le (by omega) (by omega), Option.bind_eq_bind,
          Option.bind_some, Bytes.slice_of_le (by omega) (by omega), Option.bind_some]
        unfold HeicState.grow
        by_cases hlt : s.maxW * s.maxH < (ispeDims p).area
        · rw [if_pos hlt]
          exact if_pos hlt
        · rw [if_neg hlt]
          exact if_neg hlt
      unfold heicIspe at hstep
      rw [hstep, himages, List.foldl_cons]
      exact ih _
    · have himages : images ((t, p) :: xs) = images xs := by
        unfold images
        rw [List.filter_cons_of_neg (by simpa [isBox] using hkind)]
      rw [if_neg hkind, himages]
      exact ih s

/-- The walk goes over the images of the first path. -/
theorem walkBoxes_heicMeta (b : Bytes) (s : HeicState) :
    walkBoxes heicMeta b 0 s = some ((firstImages b).foldl HeicState.grow s) := by
  have hipco := visit_first heicIpco (isBox (Bytes.ascii "ipco") 0)
    (fun p s => walkBoxes heicIspe p 0 s) (by
      intro t p s
      simp only [heicIpco, isBox, Nat.zero_le, and_true, decide_eq_true_eq, ne_eq, ite_not])
  have hiprp := visit_first heicIprp (isBox (Bytes.ascii "iprp") 0)
    (fun p s => walkBoxes heicIpco p 0 s) (by
      intro t p s
      simp only [heicIprp, isBox, Nat.zero_le, and_true, decide_eq_true_eq, ne_eq, ite_not])
  have hmeta := visit_first heicMeta (isBox (Bytes.ascii "meta") 4)
    (fun p s => walkBoxes heicIprp (p.drop 4) 0 s) (by
      intro t p s
      unfold heicMeta isBox
      by_cases hkind : t = Bytes.ascii "meta" ∧ 4 ≤ p.length
      · rw [if_neg (by rintro (h | h); exact h hkind.1; omega), if_pos (by simpa using hkind),
          Bytes.slice_of_le hkind.2 (Nat.le_refl _), List.take_of_length_le (by simp)]
        rfl
      · rw [if_pos (by by_contra hc; exact hkind ⟨by tauto, by omega⟩),
          if_neg (by simpa using hkind)])
  unfold firstImages
  rw [walkBoxes_eq, hmeta]
  cases hm : (boxesFrom b 0).find? (isBox (Bytes.ascii "meta") 4) with
  | none => rfl
  | some m =>
    dsimp only
    rw [walkBoxes_eq, hiprp]
    cases hi : (boxesFrom (m.2.drop 4) 0).find? (isBox (Bytes.ascii "iprp") 0) with
    | none => rfl
    | some i =>
      dsimp only
      rw [walkBoxes_eq, hipco]
      cases hc : (boxesFrom i.2 0).find? (isBox (Bytes.ascii "ipco") 0) with
      | none => rfl
      | some c =>
        dsimp only
        rw [walkBoxes_eq, visit_heicIspe]

/-- The walk returns the largest image of the first path. -/
theorem heicDimensions_eq (b : Bytes) :
    heicDimensions b =
      some (if ((firstImages b).foldl HeicState.grow ⟨0, 0, false⟩).found then
        some ((firstImages b).foldl HeicState.grow ⟨0, 0, false⟩).dims else none) := by
  unfold heicDimensions
  rw [walkBoxes_heicMeta]
  rfl

/-! ## The largest image -/

/-- One more image is counted, and the area does not shrink. -/
theorem grow_spec (s : HeicState) (d : Dims) :
    (s.grow d).found = true ∧ s.dims.area ≤ (s.grow d).dims.area ∧ d.area ≤ (s.grow d).dims.area ∧
      ((s.grow d).dims = s.dims ∨ (s.grow d).dims = d) := by
  unfold HeicState.grow
  split
  · rename_i hlt
    refine ⟨rfl, ?_, Nat.le_refl _, .inr rfl⟩
    exact Nat.le_of_lt hlt
  · rename_i hle
    refine ⟨rfl, Nat.le_refl _, ?_, .inl rfl⟩
    exact Nat.le_of_not_lt hle

/-- What the walk keeps of a list of images. -/
theorem foldl_grow_spec (ds : List Dims) (s : HeicState) :
    ((ds.foldl HeicState.grow s).found = true ↔ s.found = true ∨ ds ≠ []) ∧
    s.dims.area ≤ (ds.foldl HeicState.grow s).dims.area ∧
    (∀ d ∈ ds, d.area ≤ (ds.foldl HeicState.grow s).dims.area) ∧
    ((ds.foldl HeicState.grow s).dims = s.dims ∨ (ds.foldl HeicState.grow s).dims ∈ ds) := by
  induction ds generalizing s with
  | nil => simp
  | cons d ds ih =>
    obtain ⟨hfound, hgrow, hd, horigin⟩ := grow_spec s d
    obtain ⟨ihfound, ihgrow, ihall, ihorigin⟩ := ih (s.grow d)
    rw [List.foldl_cons]
    refine ⟨?_, ?_, ?_, ?_⟩
    · simp only [ihfound, hfound, true_or, ne_eq, reduceCtorEq, not_false_eq_true, or_true]
    · omega
    · intro e he
      rcases List.mem_cons.mp he with rfl | he
      · omega
      · exact ihall e he
    · rcases ihorigin with heq | hmem
      · rw [heq]
        rcases horigin with h | h
        · exact .inl h
        · right
          rw [h]
          exact List.mem_cons_self
      · exact .inr (List.mem_cons_of_mem _ hmem)

/-! ## The image boxes -/

/-- The payload of an ispe box, long enough to declare a size, on some way through meta, iprp and
ipco. -/
def HeicImage (b p : Bytes) : Prop :=
  ∃ m i c, Contains b (Bytes.ascii "meta") m ∧ Contains (m.drop 4) (Bytes.ascii "iprp") i ∧
    Contains i (Bytes.ascii "ipco") c ∧ Contains c (Bytes.ascii "ispe") p ∧ 12 ≤ p.length

/-- The payload of such a box on the way through the first meta, its first iprp and the first ipco
there. -/
def FirstHeicImage (b p : Bytes) : Prop :=
  ∃ m i c, Leads b (Bytes.ascii "meta") 4 m ∧ Leads (m.drop 4) (Bytes.ascii "iprp") 0 i ∧
    Leads i (Bytes.ascii "ipco") 0 c ∧ Contains c (Bytes.ascii "ispe") p ∧ 12 ≤ p.length

/-- The first image is an image. -/
theorem FirstHeicImage.image {b p : Bytes} (h : FirstHeicImage b p) : HeicImage b p := by
  obtain ⟨m, i, c, hm, hi, hc, hp, hlen⟩ := h
  exact ⟨m, i, c, hm.contains, hi.contains, hc.contains, hp, hlen⟩

/-- The box that is found first leads there. -/
theorem leads_of_find {b t : Bytes} {n : Nat} {x : Bytes × Bytes}
    (h : (boxesFrom b 0).find? (isBox t n) = some x) : Leads b t n x.2 := by
  have hkind := List.find?_some h
  simp only [isBox, decide_eq_true_eq] at hkind
  obtain ⟨t', p⟩ := x
  obtain ⟨rfl, -⟩ := hkind
  exact leads_iff.mpr h

/-- The images are the `ispe` boxes of the right length. -/
theorem mem_images {c : Bytes} {d : Dims} :
    d ∈ images (boxesFrom c 0) ↔
      ∃ p, (Contains c (Bytes.ascii "ispe") p ∧ 12 ≤ p.length) ∧ ispeDims p = d := by
  unfold images
  simp only [List.mem_map, List.mem_filter, isBox, decide_eq_true_eq, Prod.exists, contains_iff]
  constructor
  · rintro ⟨t, p, ⟨hmem, rfl, hlen⟩, hd⟩
    exact ⟨p, ⟨hmem, hlen⟩, hd⟩
  · rintro ⟨p, ⟨hmem, hlen⟩, hd⟩
    exact ⟨_, p, ⟨hmem, rfl, hlen⟩, hd⟩

/-- The images of the walk are those of the first path. -/
theorem mem_firstImages {b : Bytes} {d : Dims} :
    d ∈ firstImages b ↔ ∃ p, FirstHeicImage b p ∧ ispeDims p = d := by
  unfold firstImages
  constructor
  · intro h
    split at h
    · exact absurd h List.not_mem_nil
    rename_i m hm
    split at h
    · exact absurd h List.not_mem_nil
    rename_i i hi
    split at h
    · exact absurd h List.not_mem_nil
    rename_i c hc
    obtain ⟨p, ⟨hp, hlen⟩, hd⟩ := mem_images.mp h
    exact ⟨p, ⟨m.2, i.2, c.2, leads_of_find hm, leads_of_find hi, leads_of_find hc, hp, hlen⟩, hd⟩
  · rintro ⟨p, ⟨m, i, c, hm, hi, hc, hp, hlen⟩, hd⟩
    rw [leads_iff.mp hm]
    dsimp only
    rw [leads_iff.mp hi]
    dsimp only
    rw [leads_iff.mp hc]
    exact mem_images.mpr ⟨p, ⟨hp, hlen⟩, hd⟩

/-- No image box of the buffer is larger than what is returned, and if there is one then something is
returned. -/
def HeicCovered (b : Bytes) : Prop :=
  (∀ d, heicDimensions b = some (some d) → ∀ p, HeicImage b p → (ispeDims p).area ≤ d.area) ∧
    ((∃ p, HeicImage b p) → ∃ d, heicDimensions b = some (some d))

/-- The walk covers every image box exactly if each is covered in area by one on the first path.

Source: `dimensions.go` heicDimensions -/
theorem heicDimensions_covers_iff (b : Bytes) :
    HeicCovered b ↔
      ∀ p, HeicImage b p → ∃ q, FirstHeicImage b q ∧ (ispeDims p).area ≤ (ispeDims q).area := by
  obtain ⟨hfound, -, hall, horigin⟩ := foldl_grow_spec (firstImages b) ⟨0, 0, false⟩
  have heq := heicDimensions_eq b
  generalize (firstImages b).foldl HeicState.grow ⟨0, 0, false⟩ = s at *
  have hsome : firstImages b ≠ [] → heicDimensions b = some (some s.dims) := by
    intro hne
    rw [heq, if_pos (hfound.mpr (.inr hne))]
  constructor
  · rintro ⟨hle, hex⟩ p hp
    obtain ⟨d, hd⟩ := hex ⟨p, hp⟩
    have hne : firstImages b ≠ [] := by
      intro hnil
      have hnot : s.found = false := by
        rw [Bool.eq_false_iff, ne_eq, hfound]
        simp [hnil]
      rw [heq, hnot] at hd
      exact absurd hd (by simp)
    obtain ⟨e, he⟩ := List.exists_mem_of_ne_nil _ hne
    have hp' := hle s.dims (hsome hne) p hp
    rcases horigin with hzero | hmem
    · -- the walk has only met images without pixels
      obtain ⟨q, hq, -⟩ := mem_firstImages.mp he
      rw [hzero] at hp'
      refine ⟨q, hq, ?_⟩
      have harea : Dims.area (HeicState.dims ⟨0, 0, false⟩) = 0 := rfl
      omega
    · obtain ⟨q, hq, hdims⟩ := mem_firstImages.mp hmem
      rw [← hdims] at hp'
      exact ⟨q, hq, hp'⟩
  · intro h
    constructor
    · intro d hd p hp
      obtain ⟨q, hq, hle⟩ := h p hp
      have hmem := mem_firstImages.mpr ⟨q, hq, rfl⟩
      rw [hsome (List.ne_nil_of_mem hmem)] at hd
      obtain rfl : s.dims = d := by simpa using hd
      exact hle.trans (hall _ hmem)
    · rintro ⟨p, hp⟩
      obtain ⟨q, hq, -⟩ := h p hp
      have hmem := mem_firstImages.mpr ⟨q, hq, rfl⟩
      exact ⟨_, hsome (List.ne_nil_of_mem hmem)⟩

/-! ## A second ipco -/

/-- An ispe box that declares these dimensions. -/
def ispeBox (w h : Nat) : Box where
  type := Bytes.ascii "ispe"
  payload := [0, 0, 0, 0] ++ Bytes.ofBE 4 w ++ Bytes.ofBE 4 h
  wide := false
  length_type := by decide
  fits := by simp

/-- An ipco box around one ispe box. -/
def ipcoBox (w h : Nat) : Box where
  type := Bytes.ascii "ipco"
  payload := [ispeBox w h].flatMap Box.encode
  wide := false
  length_type := by decide
  fits := by simp [Box.length_encode, ispeBox]

/-- An iprp box with a small image in its first ipco and a large one in its second. -/
def iprpTwice : Box where
  type := Bytes.ascii "iprp"
  payload := [ipcoBox 1 1, ipcoBox 60000 60000].flatMap Box.encode
  wide := false
  length_type := by decide
  fits := by simp [Box.length_encode, ipcoBox, ispeBox]

/-- The meta box around it. -/
def metaTwice : Box where
  type := Bytes.ascii "meta"
  payload := [0, 0, 0, 0] ++ [iprpTwice].flatMap Box.encode
  wide := false
  length_type := by decide
  fits := by simp [Box.length_encode, iprpTwice, ipcoBox, ispeBox]

/-- A box of a list is contained in its encoding. -/
theorem contains_of_mem {xs : List Box} {x : Box} (h : x ∈ xs) :
    Contains (xs.flatMap Box.encode) x.type x.payload :=
  ⟨xs, List.prefix_rfl, x, h, rfl, rfl⟩

/-- The only image of the first path is the small one. -/
theorem firstImages_metaTwice : firstImages ([metaTwice].flatMap Box.encode) = [(1, 1)] := by
  have hm : (boxesFrom ([metaTwice].flatMap Box.encode) 0).find? (isBox (Bytes.ascii "meta") 4) =
      some (boxPair metaTwice) := by
    rw [boxesFrom_encode]
    decide
  have hi : (boxesFrom ((boxPair metaTwice).2.drop 4) 0).find? (isBox (Bytes.ascii "iprp") 0) =
      some (boxPair iprpTwice) := by
    have hdrop : (boxPair metaTwice).2.drop 4 = [iprpTwice].flatMap Box.encode := rfl
    rw [hdrop, boxesFrom_encode]
    decide
  have hc : (boxesFrom (boxPair iprpTwice).2 0).find? (isBox (Bytes.ascii "ipco") 0) =
      some (boxPair (ipcoBox 1 1)) := by
    have hpayload : (boxPair iprpTwice).2 = [ipcoBox 1 1, ipcoBox 60000 60000].flatMap Box.encode := rfl
    rw [hpayload, boxesFrom_encode]
    decide
  have himages : images (boxesFrom (boxPair (ipcoBox 1 1)).2 0) = [(1, 1)] := by
    have hpayload : (boxPair (ipcoBox 1 1)).2 = [ispeBox 1 1].flatMap Box.encode := rfl
    rw [hpayload, boxesFrom_encode]
    decide
  unfold firstImages
  rw [hm]
  dsimp only
  rw [hi]
  dsimp only
  rw [hc]
  exact himages

/-- A 60000 × 60000 image in the second ipco is not seen: 1 × 1 is returned. -/
theorem heicDimensions_hides : ¬ ∀ b, HeicCovered b := by
  intro h
  have hdims : heicDimensions ([metaTwice].flatMap Box.encode) = some (some (1, 1)) := by
    rw [heicDimensions_eq, firstImages_metaTwice]
    decide
  have himage : HeicImage ([metaTwice].flatMap Box.encode) (ispeBox 60000 60000).payload :=
    ⟨metaTwice.payload, iprpTwice.payload, (ipcoBox 60000 60000).payload,
      contains_of_mem (List.mem_singleton_self _), contains_of_mem (List.mem_singleton_self _),
      contains_of_mem (List.mem_cons_of_mem _ (List.mem_singleton_self _)),
      contains_of_mem (List.mem_singleton_self _), by decide⟩
  exact absurd ((h _).1 _ hdims _ himage) (by decide)

end OctoConv
