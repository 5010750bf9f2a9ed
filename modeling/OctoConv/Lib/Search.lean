import OctoConv.Lib.Utf8

/-!
# Search in lowered text

Lower-casing a byte string by its runes may change the length of a character, so an offset found in
the lowered copy is no offset of the original. A search pattern of ASCII bytes none of which is the
lower case of a character outside ASCII stands at corresponding places of both.

## Main results

* `indexOf_eq_some_iff` — the first place of a pattern.
* `prefix_toLower_iff` — the lowered copy begins with a plain pattern exactly if the original does,
  up to ASCII case.
* `indexOf_toLower` — the offset in the lowered copy is the length of the lowered beginning.
-/

namespace Conc

/-! ## The first place of a pattern -/

/-- The first place where the pattern stands. -/
def indexOf (m : Bytes) : Bytes → Option Nat
  | [] => if m = [] then some 0 else none
  | x :: b => if m.isPrefixOf (x :: b) then some 0 else (indexOf m b).map (· + 1)

/-- The index is the first place at which the pattern stands. -/
theorem indexOf_eq_some_iff {m b : Bytes} {i : Nat} :
    indexOf m b = some i ↔ i ≤ b.length ∧ m <+: b.drop i ∧ ∀ j < i, ¬ m <+: b.drop j := by
  induction b generalizing i with
  | nil =>
    unfold indexOf
    by_cases hm : m = []
    · subst hm
      rw [if_pos rfl]
      constructor
      · intro h
        obtain rfl : 0 = i := by simpa using h
        exact ⟨Nat.le_refl _, List.nil_prefix, fun j hj => absurd hj (by omega)⟩
      · rintro ⟨hi, -, -⟩
        obtain rfl : i = 0 := by simpa using hi
        rfl
    · rw [if_neg hm]
      constructor
      · intro h
        exact absurd h (by simp)
      · rintro ⟨-, hstarts, -⟩
        rw [List.drop_nil, List.prefix_nil] at hstarts
        exact absurd hstarts hm
  | cons x b ih =>
    unfold indexOf
    by_cases hfirst : m <+: x :: b
    · rw [if_pos (List.isPrefixOf_iff_prefix.mpr hfirst)]
      constructor
      · intro h
        obtain rfl : 0 = i := by simpa using h
        exact ⟨Nat.zero_le _, hfirst, fun j hj => absurd hj (by omega)⟩
      · rintro ⟨-, -, hmin⟩
        rcases i with _ | i
        · rfl
        · exact absurd hfirst (hmin 0 (by omega))
    · rw [if_neg (fun h => hfirst (List.isPrefixOf_iff_prefix.mp h)), Option.map_eq_some_iff]
      constructor
      · rintro ⟨j, hj, rfl⟩
        obtain ⟨hle, hstarts, hmin⟩ := ih.mp hj
        refine ⟨by rw [List.length_cons]; omega, hstarts, ?_⟩
        intro k hk
        rcases k with _ | k
        · exact hfirst
        · exact hmin k (by omega)
      · rintro ⟨hle, hstarts, hmin⟩
        rcases i with _ | i
        · exact absurd hstarts hfirst
        · refine ⟨i, ih.mpr ⟨by rw [List.length_cons] at hle; omega, hstarts, ?_⟩, rfl⟩
          intro j hj
          exact hmin (j + 1) (by omega)

/-- A beginning without the first byte of the pattern is passed over. -/
theorem indexOf_append {m p : Bytes} {y : UInt8} (hy : m.head? = some y) (hp : y ∉ p) (b : Bytes) :
    indexOf m (p ++ b) = (indexOf m b).map (· + p.length) := by
  induction p with
  | nil => simp
  | cons x p ih =>
    have hx : y ≠ x := by
      rintro rfl
      exact hp List.mem_cons_self
    have hnot : ¬ m.isPrefixOf (x :: (p ++ b)) = true := by
      rw [List.isPrefixOf_iff_prefix]
      rintro ⟨s, hs⟩
      obtain ⟨m', rfl⟩ := List.head?_eq_some_iff.mp hy
      rw [List.cons_append, List.cons.injEq] at hs
      exact hx hs.1
    rw [List.cons_append, indexOf, if_neg hnot, ih (fun h => hp (List.mem_cons_of_mem _ h)),
      Option.map_map, List.length_cons]
    congr 1

/-- The index is at most the length. -/
theorem indexOf_le {m b : Bytes} {i : Nat} (h : indexOf m b = some i) : i ≤ b.length :=
  (indexOf_eq_some_iff.mp h).1

/-! ## ASCII case -/

/-- The lower case of an ASCII byte. -/
def asciiLower (x : UInt8) : UInt8 := if 0x41 ≤ x ∧ x ≤ 0x5A then x + 32 else x

/-- The byte string up to ASCII case. -/
def fold (b : Bytes) : Bytes := b.map asciiLower

/-- A byte beyond ASCII has no case. -/
theorem asciiLower_of_le {x : UInt8} (h : ¬ x < 0x80) : asciiLower x = x := by
  unfold asciiLower
  rw [if_neg]
  rintro ⟨-, hx⟩
  have hlt : (0x5A : UInt8) < 0x80 := by decide
  exact h (UInt8.lt_of_le_of_lt hx hlt)

/-- The lower case of a byte, as a number. -/
theorem toNat_asciiLower (x : UInt8) :
    (asciiLower x).toNat = if 0x41 ≤ x.toNat ∧ x.toNat ≤ 0x5A then x.toNat + 32 else x.toNat := by
  unfold asciiLower
  simp only [UInt8.le_iff_toNat_le, UInt8.reduceToNat]
  split
  · rw [UInt8.toNat_add]
    simp only [UInt8.reduceToNat]
    omega
  · rfl

/-- Bytes beyond ASCII are folded to themselves. -/
theorem fold_of_le {b : Bytes} (h : ∀ x ∈ b, ¬ x < 0x80) : fold b = b := by
  have hid : b.map asciiLower = b.map id := List.map_congr_left fun x hx => asciiLower_of_le (h x hx)
  unfold fold
  rw [hid, List.map_id]

/-- Folding goes byte by byte. -/
theorem fold_append (a b : Bytes) : fold (a ++ b) = fold a ++ fold b := List.map_append

/-- Folding the first byte. -/
theorem fold_cons (x : UInt8) (b : Bytes) : fold (x :: b) = asciiLower x :: fold b := rfl

/-- Folding changes no length. -/
@[simp] theorem length_fold (b : Bytes) : (fold b).length = b.length := List.length_map ..

namespace Utf8

/-! ## Lower case by runes -/

/-- The bytes of a rune's lower case; a byte that begins no character becomes the replacement
character. -/
def Rune.lower : Rune → Bytes
  | .char c => String.utf8EncodeChar (Unicode.toLower c)
  | .bad _ => String.utf8EncodeChar '\uFFFD'

/-- The lower case of a byte string. -/
def toLower (b : Bytes) : Bytes := (runes b).flatMap Rune.lower

/-- The lower case of nothing. -/
theorem toLower_nil : toLower [] = [] := by
  unfold toLower
  rw [runes_nil]
  rfl

/-- A character is put into lower case. -/
theorem toLower_char (c : Char) (r : Bytes) :
    toLower (String.utf8EncodeChar c ++ r) = String.utf8EncodeChar (Unicode.toLower c) ++
      toLower r := by
  unfold toLower
  rw [runes_char, List.flatMap_cons, Rune.lower]

/-- A byte that is no character becomes the replacement character. -/
theorem toLower_bad {x : UInt8} {r : Bytes} (h : decodeChar (x :: r) = none) :
    toLower (x :: r) = String.utf8EncodeChar '\uFFFD' ++ toLower r := by
  unfold toLower
  rw [runes_bad h, List.flatMap_cons, Rune.lower]

/-- A text is put into lower case character by character. -/
theorem toLower_encode (cs : List Char) : toLower (encode cs) = encode (cs.map Unicode.toLower) := by
  induction cs with
  | nil => exact toLower_nil
  | cons c cs ih => rw [encode_cons, toLower_char, ih, List.map_cons, encode_cons]

/-- The lower case of ASCII code points. -/
theorem lowerCode_ascii :
    ∀ n < 128, Unicode.lowerCode n = if 0x41 ≤ n ∧ n ≤ 0x5A then n + 32 else n := by
  decide +kernel

/-- An ASCII byte is put into lower case by itself. -/
theorem toLower_ascii {x : UInt8} (h : x < 0x80) (r : Bytes) :
    toLower (x :: r) = asciiLower x :: toLower r := by
  have hx : x.toNat < 128 := by
    rw [UInt8.lt_iff_toNat_lt] at h
    exact h
  have hvalid : x.toNat.isValidChar := .inl (by omega)
  have hcode : (Char.ofNat x.toNat).toNat = x.toNat := by
    rw [Char.ofNat, dif_pos hvalid]
    rfl
  have hlower : Unicode.toLower (Char.ofNat x.toNat) = Char.ofNat (asciiLower x).toNat := by
    unfold Unicode.toLower
    rw [hcode, lowerCode_ascii _ hx, toNat_asciiLower]
  have hascii : asciiLower x < 0x80 := by
    rw [UInt8.lt_iff_toNat_lt, toNat_asciiLower]
    simp only [UInt8.reduceToNat]
    split
    · omega
    · omega
  have hchar := toLower_char (Char.ofNat x.toNat) r
  rw [encodeChar_ascii h, hlower, encodeChar_ascii hascii] at hchar
  exact hchar

/-- In an ASCII text both lower cases are the same. -/
theorem toLower_eq_fold {b : Bytes} (h : ∀ x ∈ b, x < 0x80) : toLower b = Conc.fold b := by
  induction b with
  | nil => exact toLower_nil
  | cons x b ih =>
    rw [toLower_ascii (h x List.mem_cons_self), fold_cons,
      ih fun y hy => h y (List.mem_cons_of_mem x hy)]

/-! ## Plain patterns -/

/-- An ASCII byte that is not the lower case of a character outside ASCII. -/
def isPlain (y : UInt8) : Bool := y < 0x80 && y ≠ 0x69 && y ≠ 0x6B

/-- Every range of the case table outside ASCII lowers to code points outside ASCII, but for two
characters. -/
theorem caseRanges_outside : Unicode.caseRanges.all (fun r =>
    Nat.blt r.hi 128 || Nat.ble 128 (r.lower r.lo) ||
      (Nat.beq r.lo r.hi && (Nat.beq (r.lower r.lo) 0x69 || Nat.beq (r.lower r.lo) 0x6B))) = true := by
  decide +kernel

/-- The lower case of a character outside ASCII. -/
theorem lowerCode_outside {n : Nat} (h : 128 ≤ n) :
    128 ≤ Unicode.lowerCode n ∨ Unicode.lowerCode n = 0x69 ∨ Unicode.lowerCode n = 0x6B := by
  rcases Unicode.lowerCode_cases n with ⟨r, hr, hn, he⟩ | he
  · have hrange := List.all_eq_true.mp caseRanges_outside r hr
    have hmem := Unicode.CaseRange.contains_iff.mp hn
    have hlower := Unicode.CaseRange.lower_mem hn
    simp only [Bool.or_eq_true, Bool.and_eq_true, Nat.blt_eq, Nat.ble_eq, Nat.beq_eq] at hrange
    rw [he]
    rcases hrange with (hhi | hlo) | ⟨hone, hcode⟩
    · omega
    · omega
    · have hnlo : n = r.lo := by omega
      right
      rw [hnlo]
      exact hcode
  · rw [he]
    exact .inl h

/-- No byte of the lower case of a character outside ASCII is plain. -/
theorem lower_not_plain {c : Char} (h : 128 ≤ c.toNat) :
    ∀ y ∈ String.utf8EncodeChar (Unicode.toLower c), isPlain y = false := by
  intro y hy
  obtain ⟨lead, conts, hshape, hlead, hconts, hascii, hnil⟩ := encodeChar_shape (Unicode.toLower c)
  rw [hshape] at hy
  rw [Unicode.toNat_toLower] at hascii
  by_cases hlt : lead < 0x80
  · have hcode : Unicode.lowerCode c.toNat = 0x69 ∨ Unicode.lowerCode c.toNat = 0x6B := by
      rcases lowerCode_outside h with h' | h'
      · exact absurd (hascii.mp hlt) (by omega)
      · exact h'
    rw [hnil hlt, List.mem_singleton] at hy
    have hfirst : Unicode.toLower c = 'i' ∨ Unicode.toLower c = 'k' := by
      rcases hcode with h' | h'
      · left
        apply Char.toNat_inj.mp
        rw [Unicode.toNat_toLower, h']
        rfl
      · right
        apply Char.toNat_inj.mp
        rw [Unicode.toNat_toLower, h']
        rfl
    subst hy
    rcases hfirst with h' | h'
    · rw [h'] at hshape
      have hi : String.utf8EncodeChar 'i' = [0x69] := by decide
      rw [hi, List.cons.injEq] at hshape
      rw [← hshape.1]
      decide
    · rw [h'] at hshape
      have hk : String.utf8EncodeChar 'k' = [0x6B] := by decide
      rw [hk, List.cons.injEq] at hshape
      rw [← hshape.1]
      decide
  · have hlarge : ¬ y < 0x80 := by
      rcases List.mem_cons.mp hy with rfl | hy
      · exact hlt
      · have hcont := hconts y hy
        simp only [isCont, Bool.and_eq_true, decide_eq_true_eq] at hcont
        exact UInt8.not_lt.mpr hcont.1
    simp [isPlain, hlarge]

/-- A plain byte stands in no encoding of a character outside ASCII. -/
theorem isPlain_of_le {y : UInt8} (h : ¬ y < 0x80) : isPlain y = false := by
  simp [isPlain, h]

/-- The bytes of a character beyond ASCII are beyond ASCII. -/
theorem encodeChar_large {c : Char} (h : 128 ≤ c.toNat) :
    ∀ y ∈ String.utf8EncodeChar c, ¬ y < 0x80 := by
  intro y hy
  obtain ⟨lead, conts, hshape, hlead, hconts, hascii, -⟩ := encodeChar_shape c
  rw [hshape] at hy
  rcases List.mem_cons.mp hy with rfl | hy
  · intro hlt
    have := hascii.mp hlt
    omega
  · have hcont := hconts y hy
    simp only [isCont, Bool.and_eq_true, decide_eq_true_eq] at hcont
    exact UInt8.not_lt.mpr hcont.1

/-- A byte that begins no character lies outside ASCII. -/
theorem large_of_decodeChar {x : UInt8} {r : Bytes} (h : decodeChar (x :: r) = none) : ¬ x < 0x80 := by
  intro hx
  have hd := decodeChar_encode (Char.ofNat x.toNat) r
  rw [encodeChar_ascii hx, List.singleton_append, h] at hd
  exact absurd hd (by simp)

/-- A byte that begins no character still begins none before a shorter rest. -/
theorem decodeChar_take {x : UInt8} {r : Bytes} (h : decodeChar (x :: r) = none) (i : Nat) :
    decodeChar (x :: r.take i) = none := by
  cases hd : decodeChar (x :: r.take i) with
  | none => rfl
  | some c =>
    obtain ⟨s, hs⟩ := prefix_of_decodeChar hd
    have hlong : String.utf8EncodeChar c ++ (s ++ r.drop i) = x :: r := by
      rw [← List.append_assoc, hs, List.cons_append, List.take_append_drop]
    rw [← hlong, decodeChar_encode] at h
    exact absurd h (by simp)

/-- The replacement character is not plain. -/
theorem replacement_not_plain : ∀ y ∈ String.utf8EncodeChar '\uFFFD', isPlain y = false := by
  decide +kernel

/-- A byte string is empty, begins with an ASCII byte, or begins with bytes outside ASCII whose
lower case has no plain byte; cutting behind those bytes does not change how they are read. -/
theorem block_cases (b : Bytes) :
    b = [] ∨ (∃ x r, b = x :: r ∧ x < 0x80) ∨
      ∃ p q r, b = p ++ r ∧ p ≠ [] ∧ (∀ y ∈ p, ¬ y < 0x80) ∧ (∀ y ∈ q, isPlain y = false) ∧
        q ≠ [] ∧ toLower b = q ++ toLower r ∧
          ∀ i, toLower (p ++ r.take i) = q ++ toLower (r.take i) := by
  rcases runes_cases b with rfl | ⟨c, r, rfl, -⟩ | ⟨x, r, rfl, hnone, -⟩
  · exact .inl rfl
  · by_cases hc : c.toNat < 128
    · obtain ⟨lead, conts, hshape, -, -, hascii, hnil⟩ := encodeChar_shape c
      have hlead := hascii.mpr hc
      refine .inr (.inl ⟨lead, r, ?_, hlead⟩)
      rw [hshape, hnil hlead, List.singleton_append]
    · have hlarge : 128 ≤ c.toNat := by omega
      refine .inr (.inr
        ⟨_, _, r, rfl, encodeChar_ne_nil c, encodeChar_large hlarge, lower_not_plain hlarge,
        encodeChar_ne_nil _, toLower_char c r, fun i => toLower_char c _⟩)
  · have hlarge := large_of_decodeChar hnone
    refine .inr (.inr ⟨[x], _, r, rfl, by simp, by simpa using hlarge, replacement_not_plain,
      encodeChar_ne_nil _, toLower_bad hnone, fun i => toLower_bad (decodeChar_take hnone i)⟩)

/-- Induction along ASCII bytes and blocks outside ASCII. -/
theorem block_induction {motive : Bytes → Prop} (nil : motive [])
    (ascii : ∀ x r, x < 0x80 → motive r → motive (x :: r))
    (block : ∀ p q r, p ≠ [] → (∀ y ∈ p, ¬ y < 0x80) → (∀ y ∈ q, isPlain y = false) → q ≠ [] →
      toLower (p ++ r) = q ++ toLower r → (∀ i, toLower (p ++ r.take i) = q ++ toLower (r.take i)) →
      motive r → motive (p ++ r)) (b : Bytes) : motive b := by
  induction h : b.length using Nat.strongRecOn generalizing b with
  | ind n ih =>
    subst h
    rcases block_cases b with rfl | ⟨x, r, rfl, hx⟩ |
      ⟨p, q, r, rfl, hp, hlarge, hplain, hq, hlower, htake⟩
    · exact nil
    · exact ascii x r hx (ih r.length (by simp) r rfl)
    · refine block p q r hp hlarge hplain hq hlower htake (ih r.length ?_ r rfl)
      have hpos := List.length_pos_iff.mpr hp
      rw [List.length_append]
      omega

/-- The lowered copy begins with a plain pattern exactly if the original does, up to ASCII case. -/
theorem prefix_toLower_iff {m : Bytes} (hm : ∀ y ∈ m, isPlain y = true) (b : Bytes) :
    m <+: toLower b ↔ m <+: fold b := by
  induction b using block_induction generalizing m with
  | nil => rw [toLower_nil, fold, List.map_nil]
  | ascii x r hx ih =>
    rw [toLower_ascii hx, fold_cons]
    rcases m with _ | ⟨y, m⟩
    · exact ⟨fun _ => List.nil_prefix, fun _ => List.nil_prefix⟩
    · rw [List.cons_prefix_cons, List.cons_prefix_cons, ih fun z hz => hm z (List.mem_cons_of_mem _ hz)]
  | block p q r hp hlarge hplain hq hlower htake ih =>
    rcases m with _ | ⟨y, m⟩
    · exact ⟨fun _ => List.nil_prefix, fun _ => List.nil_prefix⟩
    · have hy := hm y List.mem_cons_self
      obtain ⟨u, p', rfl⟩ := List.exists_cons_of_ne_nil hp
      obtain ⟨v, q', rfl⟩ := List.exists_cons_of_ne_nil hq
      rw [hlower, fold_append, fold_of_le hlarge, List.cons_append, List.cons_append,
        List.cons_prefix_cons, List.cons_prefix_cons]
      constructor
      · rintro ⟨rfl, -⟩
        rw [hplain y List.mem_cons_self] at hy
        exact absurd hy (by decide)
      · rintro ⟨rfl, -⟩
        rw [isPlain_of_le (hlarge y List.mem_cons_self)] at hy
        exact absurd hy (by decide)

/-- The first place of a plain pattern in the lowered copy is the length of what stands before the first
place in the original, lowered. -/
theorem indexOf_toLower {m : Bytes} (hne : m ≠ []) (hm : ∀ y ∈ m, isPlain y = true) (b : Bytes) :
    indexOf m (toLower b) = (indexOf m (fold b)).map fun i => (toLower (b.take i)).length := by
  obtain ⟨y, m', rfl⟩ := List.exists_cons_of_ne_nil hne
  have hy := hm y List.mem_cons_self
  induction b using block_induction with
  | nil =>
    rw [toLower_nil]
    rfl
  | ascii x r hx ih =>
    have hstarts := prefix_toLower_iff hm (x :: r)
    rw [toLower_ascii hx, fold_cons] at hstarts ⊢
    unfold indexOf
    by_cases hfirst : y :: m' <+: asciiLower x :: fold r
    · rw [if_pos (List.isPrefixOf_iff_prefix.mpr (hstarts.mpr hfirst)),
        if_pos (List.isPrefixOf_iff_prefix.mpr hfirst), Option.map_some, List.take_zero, toLower_nil,
        List.length_nil]
    · rw [if_neg (fun h => hfirst (hstarts.mp (List.isPrefixOf_iff_prefix.mp h))),
        if_neg (fun h => hfirst (List.isPrefixOf_iff_prefix.mp h)), ih, Option.map_map, Option.map_map]
      congr 1
      funext i
      dsimp only [Function.comp]
      rw [List.take_succ_cons, toLower_ascii hx, List.length_cons]
  | block p q r hp hlarge hplain hq hlower htake ih =>
    have hyq : y ∉ q := by
      intro h
      rw [hplain y h] at hy
      exact absurd hy (by decide)
    have hyp : y ∉ p := by
      intro h
      rw [isPlain_of_le (hlarge y h)] at hy
      exact absurd hy (by decide)
    rw [hlower, fold_append, fold_of_le hlarge, indexOf_append rfl hyq, indexOf_append rfl hyp, ih,
      Option.map_map, Option.map_map]
    congr 1
    funext i
    dsimp only [Function.comp]
    rw [Nat.add_comm i, List.take_length_add_append, htake, List.length_append]
    omega

end Utf8

end Conc
