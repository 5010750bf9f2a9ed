import OctoConv.Lib.Bytes
import OctoConv.Lib.Unicode

/-!
# UTF-8

A byte string is read as a sequence of runes: encoded characters, and bytes that begin no encoded
character. A rune of the second kind is read as the replacement character. The encoding and the decoding
of one character are those of the core library.

## Main results

* `runes_encode`, `valid_iff` — what is valid is the encoding of a text.
* `valid_take_iff` — a cut of a valid byte string is valid exactly if it does not fall into a character.
-/

namespace Conc.Utf8

open String (utf8EncodeChar)

/-! ## One character -/

/-- A continuation byte. -/
def isCont (x : UInt8) : Bool := 0x80 ≤ x && x < 0xC0

/-- The bytes of a character: one ASCII byte, or a leading byte and continuation bytes. -/
theorem encodeChar_shape (c : Char) :
    ∃ lead conts, utf8EncodeChar c = lead :: conts ∧ isCont lead = false ∧
      (∀ y ∈ conts, isCont y = true) ∧ (lead < 0x80 ↔ c.toNat < 0x80) ∧ (lead < 0x80 → conts = []) := by
  have hcont (n : Nat) (h : n < 64) : isCont (UInt8.ofNat (n + 0x80)) = true := by
    have hn : (UInt8.ofNat (n + 0x80)).toNat = n + 0x80 := by
      simp only [UInt8.toNat_ofNat']
      omega
    simp only [isCont, Bool.and_eq_true, decide_eq_true_eq, UInt8.le_iff_toNat_le,
      UInt8.lt_iff_toNat_lt, hn]
    exact ⟨by simp, by simp; omega⟩
  have hlead (n : Nat) (h₁ : 0xC0 ≤ n) (h₂ : n < 256) :
      isCont (UInt8.ofNat n) = false ∧ ¬ UInt8.ofNat n < 0x80 := by
    have hn : (UInt8.ofNat n).toNat = n := by
      simp only [UInt8.toNat_ofNat']
      omega
    simp only [isCont, Bool.and_eq_false_iff, decide_eq_false_iff_not, UInt8.le_iff_toNat_le,
      UInt8.lt_iff_toNat_lt, hn]
    exact ⟨.inr (by simp; omega), by simp; omega⟩
  have hmod (n : Nat) : n % 64 < 64 := Nat.mod_lt _ (by decide)
  have hval : c.val.toNat = c.toNat := rfl
  unfold utf8EncodeChar
  simp only [hval]
  split
  · rename_i h
    have hn : (UInt8.ofNat c.toNat).toNat = c.toNat := by
      simp only [UInt8.toNat_ofNat']
      omega
    refine ⟨_, [], rfl, ?_, by simp, ?_, fun _ => rfl⟩
    · simp only [isCont, Bool.and_eq_false_iff, decide_eq_false_iff_not, UInt8.le_iff_toNat_le, hn]
      exact .inl (by simp; omega)
    · rw [UInt8.lt_iff_toNat_lt, hn]
      simp
  split
  · rename_i h₁ h₂
    obtain ⟨hc, hl⟩ := hlead (c.toNat / 64 % 0x20 + 0xC0) (by omega) (by omega)
    refine ⟨_, _, rfl, hc, ?_, ⟨fun h => absurd h hl, fun h => by omega⟩, fun h => absurd h hl⟩
    simp only [List.forall_mem_cons, List.not_mem_nil, false_implies, implies_true, and_true]
    exact hcont _ (hmod _)
  split
  · rename_i h₁ h₂ h₃
    obtain ⟨hc, hl⟩ := hlead (c.toNat / 4096 % 0x10 + 0xE0) (by omega) (by omega)
    refine ⟨_, _, rfl, hc, ?_, ⟨fun h => absurd h hl, fun h => by omega⟩, fun h => absurd h hl⟩
    simp only [List.forall_mem_cons, List.not_mem_nil, false_implies, implies_true, and_true]
    exact ⟨hcont _ (hmod _), hcont _ (hmod _)⟩
  · rename_i h₁ h₂ h₃
    obtain ⟨hc, hl⟩ := hlead (c.toNat / 262144 % 0x08 + 0xF0) (by omega) (by omega)
    refine ⟨_, _, rfl, hc, ?_, ⟨fun h => absurd h hl, fun h => by omega⟩, fun h => absurd h hl⟩
    simp only [List.forall_mem_cons, List.not_mem_nil, false_implies, implies_true, and_true]
    exact ⟨hcont _ (hmod _), hcont _ (hmod _), hcont _ (hmod _)⟩

/-- A character has a byte. -/
theorem encodeChar_ne_nil (c : Char) : utf8EncodeChar c ≠ [] := by
  obtain ⟨lead, conts, h, -⟩ := encodeChar_shape c
  rw [h]
  exact List.cons_ne_nil _ _

/-- The character at the beginning, if there is one. -/
def decodeChar (b : Bytes) : Option Char := b.toByteArray.utf8DecodeChar? 0

/-- A character is read back. -/
theorem decodeChar_encode (c : Char) (r : Bytes) : decodeChar (utf8EncodeChar c ++ r) = some c := by
  unfold decodeChar
  rw [List.toByteArray_append]
  exact ByteArray.utf8DecodeChar?_utf8EncodeChar_append

/-- What is decoded was encoded. -/
theorem prefix_of_decodeChar {b : Bytes} {c : Char} (h : decodeChar b = some c) :
    utf8EncodeChar c <+: b := by
  obtain ⟨r, hr⟩ := ByteArray.exists_of_utf8DecodeChar?_eq_some h
  refine ⟨r.data.toList, ?_⟩
  have hlist := congrArg (fun a => a.data.toList) hr
  simpa using hlist.symm

/-! ## Runes -/

/-- A rune of a byte string. -/
inductive Rune
  /-- An encoded character. -/
  | char (c : Char)
  /-- A byte that begins no encoded character. -/
  | bad (x : UInt8)
deriving DecidableEq

/-- The runes of a byte string. -/
def runes : Bytes → List Rune
  | [] => []
  | x :: r =>
    match decodeChar (x :: r) with
    | some c => .char c :: runes (r.drop (c.utf8Size - 1))
    | none => .bad x :: runes r
termination_by b => b.length
decreasing_by
  · rw [List.length_drop, List.length_cons]
    omega
  · rw [List.length_cons]
    omega

/-- No bytes are no runes. -/
theorem runes_nil : runes [] = [] := by
  unfold runes
  rfl

/-- An encoded character is a rune. -/
theorem runes_char (c : Char) (r : Bytes) : runes (utf8EncodeChar c ++ r) = .char c :: runes r := by
  obtain ⟨lead, conts, hshape, -⟩ := encodeChar_shape c
  have hsize : c.utf8Size = conts.length + 1 := by
    rw [← String.length_utf8EncodeChar, hshape, List.length_cons]
  have hdecode := decodeChar_encode c r
  rw [hshape, List.cons_append] at hdecode ⊢
  conv => lhs; unfold runes
  rw [hdecode]
  dsimp only
  rw [hsize, Nat.add_sub_cancel, List.drop_left]

/-- A byte that begins no character is a rune. -/
theorem runes_bad {x : UInt8} {r : Bytes} (h : decodeChar (x :: r) = none) :
    runes (x :: r) = .bad x :: runes r := by
  conv => lhs; unfold runes
  rw [h]

/-- A byte string is empty, or begins with a rune. -/
theorem runes_cases (b : Bytes) :
    b = [] ∨ (∃ c r, b = utf8EncodeChar c ++ r ∧ runes b = .char c :: runes r) ∨
      ∃ x r, b = x :: r ∧ decodeChar b = none ∧ runes b = .bad x :: runes r := by
  rcases b with _ | ⟨x, r⟩
  · exact .inl rfl
  right
  cases h : decodeChar (x :: r) with
  | some c =>
    obtain ⟨s, hs⟩ := prefix_of_decodeChar h
    left
    rw [← hs]
    exact ⟨c, s, rfl, runes_char c s⟩
  | none => exact .inr ⟨x, r, rfl, rfl, runes_bad h⟩

/-- Induction along the runes of a byte string. -/
theorem rune_induction {motive : Bytes → Prop} (nil : motive [])
    (char : ∀ c r, motive r → motive (utf8EncodeChar c ++ r))
    (bad : ∀ x r, decodeChar (x :: r) = none → motive r → motive (x :: r)) (b : Bytes) : motive b := by
  induction h : b.length using Nat.strongRecOn generalizing b with
  | ind n ih =>
    subst h
    rcases runes_cases b with rfl | ⟨c, r, rfl, -⟩ | ⟨x, r, rfl, hnone, -⟩
    · exact nil
    · refine char c r (ih r.length ?_ r rfl)
      have hpos := List.length_pos_iff.mpr (encodeChar_ne_nil c)
      rw [List.length_append]
      omega
    · exact bad x r hnone (ih r.length (by simp) r rfl)

/-! ## Texts -/

/-- The encoding of a text. -/
def encode (cs : List Char) : Bytes := cs.flatMap utf8EncodeChar

/-- The first character is encoded first. -/
theorem encode_cons (c : Char) (cs : List Char) : encode (c :: cs) = utf8EncodeChar c ++ encode cs :=
  List.flatMap_cons

/-- What was encoded is read back, whatever follows. -/
theorem runes_encode_append (cs : List Char) (r : Bytes) :
    runes (encode cs ++ r) = cs.map .char ++ runes r := by
  induction cs with
  | nil => rfl
  | cons c cs ih => rw [encode_cons, List.append_assoc, runes_char, ih, List.map_cons, List.cons_append]

/-- What was encoded is read back. -/
theorem runes_encode (cs : List Char) : runes (encode cs) = cs.map .char := by
  have h := runes_encode_append cs []
  rw [runes_nil, List.append_nil, List.append_nil] at h
  exact h

/-- Every byte belongs to an encoded character. -/
def valid (b : Bytes) : Bool :=
  (runes b).all fun
    | .char _ => true
    | .bad _ => false

/-- What was encoded is valid. -/
theorem valid_encode (cs : List Char) : valid (encode cs) = true := by
  unfold valid
  rw [runes_encode, List.all_map, List.all_eq_true]
  intro c hc
  rfl

/-- What is valid is the encoding of a text. -/
theorem valid_iff {b : Bytes} : valid b = true ↔ ∃ cs, b = encode cs := by
  constructor
  · intro h
    induction b using rune_induction with
    | nil => exact ⟨[], rfl⟩
    | char c r ih =>
      unfold valid at h
      rw [runes_char, List.all_cons, Bool.and_eq_true] at h
      obtain ⟨cs, hcs⟩ := ih h.2
      exact ⟨c :: cs, by rw [encode_cons, hcs]⟩
    | bad x r hnone ih =>
      unfold valid at h
      rw [runes_bad hnone, List.all_cons, Bool.and_eq_true] at h
      exact absurd h.1 Bool.false_ne_true
  · rintro ⟨cs, rfl⟩
    exact valid_encode cs

/-! ## Cuts -/

/-- A continuation byte begins no character. -/
theorem decodeChar_cont {x : UInt8} {r : Bytes} (h : isCont x = true) : decodeChar (x :: r) = none := by
  cases hd : decodeChar (x :: r) with
  | none => rfl
  | some c =>
    obtain ⟨s, hs⟩ := prefix_of_decodeChar hd
    obtain ⟨lead, conts, hshape, hlead, -⟩ := encodeChar_shape c
    rw [hshape, List.cons_append, List.cons.injEq] at hs
    rw [hs.1, h] at hlead
    exact absurd hlead (by decide)

/-- A cut of a valid byte string is valid exactly if it does not fall into a character. -/
theorem valid_take_iff {b : Bytes} (h : valid b = true) (n : Nat) :
    valid (b.take n) = true ↔ ∀ x, b[n]? = some x → isCont x = false := by
  obtain ⟨cs, rfl⟩ := valid_iff.mp h
  constructor
  · intro hcut x hx
    obtain ⟨ds, hds⟩ := valid_iff.mp hcut
    obtain ⟨hn, hget⟩ := List.getElem?_eq_some_iff.mp hx
    have hsplit : encode cs = encode ds ++ x :: (encode cs).drop (n + 1) := by
      rw [← hds, ← hget, ← List.drop_eq_getElem_cons hn, List.take_append_drop]
    by_contra hcont
    rw [Bool.not_eq_false] at hcont
    have hvalid := h
    unfold valid at hvalid
    rw [hsplit, runes_encode_append, runes_bad (decodeChar_cont hcont), List.all_append, List.all_cons,
      Bool.and_eq_true, Bool.and_eq_true] at hvalid
    exact absurd hvalid.2.1 Bool.false_ne_true
  · intro hcut
    clear h
    induction cs generalizing n with
    | nil =>
      rw [valid_iff]
      exact ⟨[], by simp [encode]⟩
    | cons c cs ih =>
      obtain ⟨lead, conts, hshape, hlead, hconts, -⟩ := encodeChar_shape c
      rw [encode_cons] at hcut ⊢
      by_cases hn : n < (utf8EncodeChar c).length
      · rcases n with _ | n
        · rw [List.take_zero]
          exact valid_encode []
        · -- a cut behind the leading byte leaves a continuation byte over
          have hlen : n < conts.length := by
            rw [hshape, List.length_cons] at hn
            omega
          have hnext : (utf8EncodeChar c ++ encode cs)[n + 1]? = some conts[n] := by
            rw [hshape, List.cons_append, List.getElem?_cons_succ, List.getElem?_append_left hlen,
              List.getElem?_eq_getElem hlen]
          have hfalse := hcut _ hnext
          rw [hconts _ (List.getElem_mem hlen)] at hfalse
          exact absurd hfalse (by decide)
      · have hrest := ih (n - (utf8EncodeChar c).length) (by
          intro x hx
          refine hcut x ?_
          rw [List.getElem?_append_right (by omega)]
          exact hx)
        obtain ⟨ds, hds⟩ := valid_iff.mp hrest
        rw [List.take_append, List.take_of_length_le (by omega), hds, ← encode_cons]
        exact valid_encode _

/-! ## ASCII bytes -/

/-- An ASCII byte is a character. -/
theorem encodeChar_ascii {x : UInt8} (h : x < 0x80) : utf8EncodeChar (Char.ofNat x.toNat) = [x] := by
  have hx : x.toNat < 128 := by
    rw [UInt8.lt_iff_toNat_lt] at h
    exact h
  have hval : (Char.ofNat x.toNat).val.toNat = x.toNat := by
    have hvalid : x.toNat.isValidChar := .inl (by omega)
    rw [Char.ofNat, dif_pos hvalid]
    rfl
  unfold utf8EncodeChar
  dsimp only
  rw [hval, if_pos (by omega), UInt8.ofNat_toNat]

end Conc.Utf8
