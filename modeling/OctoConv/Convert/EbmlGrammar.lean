import OctoConv.Convert.Ebml
import OctoConv.Lib.Vint
import Mathlib.Tactic.Ring

/-!
# The grammar of the header of mkv and webm

A header is the magic number, a size, and a sequence of elements; what decides about the format is the
first element that is a document type. The matcher accepts a buffer exactly if it has this form up to
that element, and it never reads outside the buffer.

Source: `internal/convert/avsniff.go` matchEBML.

## Main results

* `readSizeVint_iff`, `readIDVint_iff` — what the two readers accept.
* `walkEBML_of_leads`, `leads_of_walkEBML` — what the loop accepts.
* `matchEBML_iff` — what the matcher accepts.
-/

namespace OctoConv

open Conc

/-! ## Integers -/

/-- The first byte has as many leading zero bits as the length says, less one. -/
theorem vintLen_iff (first : UInt8) (n : Nat) :
    vintLen first = n + 1 ↔
      n + 1 ≤ 8 ∧ 2 ^ (8 - (n + 1)) ≤ first.toNat ∧ first.toNat < 2 ^ (9 - (n + 1)) := by
  have htable : ∀ f : Fin 256, vintLen (UInt8.ofNat f) ≤ 8 ∧
      ∀ n : Fin 8, vintLen (UInt8.ofNat f) = n.val + 1 ↔
        2 ^ (8 - (n.val + 1)) ≤ f.val ∧ f.val < 2 ^ (9 - (n.val + 1)) := by
    decide +kernel
  obtain ⟨hle, hiff⟩ := htable ⟨first.toNat, first.toNat_lt⟩
  rw [UInt8.ofNat_toNat] at hle hiff
  by_cases hn : n + 1 ≤ 8
  · rw [hiff ⟨n, hn⟩]
    exact ⟨fun h => ⟨hn, h⟩, fun h => h.2⟩
  · exact ⟨fun h => absurd h (by omega), fun h => absurd h.1 hn⟩

/-- A byte and what follows it. -/
theorem drop_eq_cons {buf : Bytes} {pos : Nat} {first : UInt8} {tail : Bytes}
    (h : buf.drop pos = first :: tail) :
    pos + tail.length + 1 = buf.length ∧ buf.index pos = some first := by
  have hlen := congrArg List.length h
  rw [List.length_drop, List.length_cons] at hlen
  refine ⟨by omega, ?_⟩
  have hhead := congrArg List.head? h
  rw [List.head?_drop] at hhead
  exact hhead

/-- A slice from a position on, by what stands there. -/
theorem slice_of_drop {buf : Bytes} {pos : Nat} {a b c : Bytes} (hpos : pos ≤ buf.length)
    (h : buf.drop pos = a ++ (b ++ c)) :
    buf.slice (pos + a.length) (pos + a.length + b.length) = some b := by
  have hlen := congrArg List.length h
  simp only [List.length_drop, List.length_append] at hlen
  rw [Bytes.slice_of_le (by omega) (by omega), ← List.drop_drop, h, List.drop_left,
    Nat.add_sub_cancel_left, List.take_left]

/-- An integer of the grammar begins at a position exactly if the first byte there has a length that
fits into the buffer. -/
theorem vint_at_iff {buf tail bs : Bytes} {pos : Nat} {first : UInt8}
    (h : buf.drop pos = first :: tail) :
    ((∃ rest, first :: tail = bs ++ rest) ∧ IsVint bs) ↔
      vintLen first ≠ 0 ∧ pos + vintLen first ≤ buf.length ∧
        bs = first :: tail.take (vintLen first - 1) := by
  obtain ⟨hlen, -⟩ := drop_eq_cons h
  constructor
  · rintro ⟨⟨rest, happ⟩, hvint⟩
    rcases bs with _ | ⟨first', bs⟩
    · exact absurd hvint.pos (by simp)
    obtain ⟨rfl, htail⟩ := List.cons.inj happ
    have hfirst : vintLen first = bs.length + 1 :=
      (vintLen_iff first bs.length).mpr (isVint_cons.mp hvint)
    have hsum : tail.length = bs.length + rest.length := by
      rw [htail]
      exact List.length_append
    refine ⟨by omega, by omega, ?_⟩
    rw [hfirst, htail, Nat.add_sub_cancel]
    exact congrArg (first :: ·) List.take_left.symm
  · rintro ⟨hpos, hfits, rfl⟩
    obtain ⟨n, hn⟩ : ∃ n, vintLen first = n + 1 := ⟨vintLen first - 1, by omega⟩
    have htake : (tail.take n).length = n := by
      rw [List.length_take]
      omega
    rw [hn, Nat.add_sub_cancel]
    refine ⟨⟨tail.drop n, ?_⟩, ?_⟩
    · rw [List.cons_append, List.take_append_drop]
    · rw [isVint_cons, htake]
      exact (vintLen_iff first n).mp hn

/-- Nothing can be read from the end. -/
theorem not_vint_of_nil {bs rest : Bytes} (h : [] = bs ++ rest) : ¬ IsVint bs := by
  obtain ⟨rfl, -⟩ := List.append_eq_nil_iff.mp h.symm
  intro hvint
  exact absurd hvint.pos (by simp)

/-- The value that the loop of readSizeVint makes of the bytes behind the first. -/
theorem foldl_size (value : Nat) (tail : Bytes) :
    tail.foldl (fun value x => value * 256 + x.toNat) value =
      value * 256 ^ tail.length + Bytes.be tail := by
  have h : ∀ (value : Nat), tail.foldl (fun value x => value * 256 + x.toNat) value =
      value * 256 ^ tail.length + tail.foldl (fun value x => value * 256 + x.toNat) 0 := by
    induction tail with
    | nil => simp
    | cons x tail ih =>
      intro value
      rw [List.foldl_cons, List.foldl_cons, ih, ih (0 * 256 + x.toNat), List.length_cons, Nat.pow_succ]
      ring
  exact h value

/-- What is read as a size is an integer of the grammar, and nothing is read outside the buffer. -/
theorem readSizeVint_iff (buf : Bytes) (pos : Nat) :
    readSizeVint buf pos ≠ none ∧ ∀ value n, readSizeVint buf pos = some (some (value, n)) ↔
      ∃ bs rest, buf.drop pos = bs ++ rest ∧ IsVint bs ∧ value = vintSize bs ∧ n = bs.length := by
  rcases hdrop : buf.drop pos with _ | ⟨first, tail⟩
  · have hnone : readSizeVint buf pos = some none := if_pos (List.drop_eq_nil_iff.mp hdrop)
    rw [hnone]
    refine ⟨by simp, fun value n => ⟨fun h => absurd h (by simp), ?_⟩⟩
    rintro ⟨bs, rest, happ, hvint, -, -⟩
    exact absurd hvint (not_vint_of_nil happ)
  obtain ⟨hlen, hindex⟩ := drop_eq_cons hdrop
  unfold readSizeVint
  simp only [Option.bind_eq_bind]
  rw [if_neg (by omega), hindex, Option.bind_some]
  by_cases hn : vintLen first = 0 ∨ buf.length < pos + vintLen first
  · rw [if_pos hn]
    refine ⟨by simp, fun value n => ⟨fun h => absurd h (by simp), ?_⟩⟩
    rintro ⟨bs, rest, happ, hvint, -, -⟩
    obtain ⟨hpos, hfits, -⟩ := (vint_at_iff hdrop).mp ⟨⟨rest, happ⟩, hvint⟩
    omega
  · obtain ⟨⟨rest, happ⟩, hvint⟩ := (vint_at_iff hdrop).mpr ⟨by omega, by omega, rfl⟩
    have hbytes : (tail.take (vintLen first - 1)).length + 1 = vintLen first := by
      rw [List.length_take]
      omega
    have hslice : buf.slice (pos + 1) (pos + vintLen first) = some (tail.take (vintLen first - 1)) := by
      have h := slice_of_drop (a := [first]) (b := tail.take (vintLen first - 1)) (c := rest)
        (show pos ≤ buf.length by omega) (by rw [hdrop, happ]; rfl)
      rw [List.length_singleton, Nat.add_assoc, Nat.add_comm 1, hbytes] at h
      exact h
    have hsize : (tail.take (vintLen first - 1)).foldl (fun value x => value * 256 + x.toNat)
        (first.toNat % (1 <<< (8 - vintLen first))) =
          vintSize (first :: tail.take (vintLen first - 1)) := by
      rw [foldl_size, vintSize_cons hvint, hbytes, Nat.one_shiftLeft]
    rw [if_neg hn, hslice, Option.bind_some, hsize]
    refine ⟨by simp, fun value n => ?_⟩
    constructor
    · intro h
      obtain ⟨rfl, rfl⟩ := Prod.mk.inj (Option.some.inj (Option.some.inj h))
      exact ⟨_, rest, happ, hvint, rfl, hbytes.symm⟩
    · rintro ⟨bs, rest', happ', hvint', rfl, rfl⟩
      obtain ⟨-, -, rfl⟩ := (vint_at_iff hdrop).mp ⟨⟨rest', happ'⟩, hvint'⟩
      rw [List.length_cons, hbytes]

/-- What is read as an identifier is an integer of the grammar of at most four bytes, and nothing is
read outside the buffer. -/
theorem readIDVint_iff (buf : Bytes) (pos : Nat) :
    readIDVint buf pos ≠ none ∧ ∀ id n, readIDVint buf pos = some (some (id, n)) ↔
      ∃ bs rest, buf.drop pos = bs ++ rest ∧ IsVint bs ∧ bs.length ≤ 4 ∧ id = Bytes.be bs ∧
        n = bs.length := by
  rcases hdrop : buf.drop pos with _ | ⟨first, tail⟩
  · have hnone : readIDVint buf pos = some none := if_pos (List.drop_eq_nil_iff.mp hdrop)
    rw [hnone]
    refine ⟨by simp, fun id n => ⟨fun h => absurd h (by simp), ?_⟩⟩
    rintro ⟨bs, rest, happ, hvint, -, -, -⟩
    exact absurd hvint (not_vint_of_nil happ)
  obtain ⟨hlen, hindex⟩ := drop_eq_cons hdrop
  unfold readIDVint
  simp only [Option.bind_eq_bind]
  rw [if_neg (by omega), hindex, Option.bind_some]
  have hbytes : vintLen first ≠ 0 → pos + vintLen first ≤ buf.length →
      (first :: tail.take (vintLen first - 1)).length = vintLen first := by
    intro hpos hfits
    rw [List.length_cons, List.length_take]
    omega
  by_cases hn : vintLen first = 0 ∨ 4 < vintLen first ∨ buf.length < pos + vintLen first
  · rw [if_pos hn]
    refine ⟨by simp, fun id n => ⟨fun h => absurd h (by simp), ?_⟩⟩
    rintro ⟨bs, rest, happ, hvint, hfour, -, -⟩
    obtain ⟨hpos, hfits, rfl⟩ := (vint_at_iff hdrop).mp ⟨⟨rest, happ⟩, hvint⟩
    rw [hbytes hpos hfits] at hfour
    omega
  · obtain ⟨⟨rest, happ⟩, hvint⟩ := (vint_at_iff hdrop).mpr ⟨by omega, by omega, rfl⟩
    have hlength := hbytes (by omega) (by omega)
    have hslice : buf.slice pos (pos + vintLen first) =
        some (first :: tail.take (vintLen first - 1)) := by
      have h := slice_of_drop (a := []) (b := first :: tail.take (vintLen first - 1)) (c := rest)
        (show pos ≤ buf.length by omega) (by rw [hdrop, happ]; rfl)
      rw [hlength] at h
      exact h
    rw [if_neg hn, hslice, Option.bind_some]
    refine ⟨by simp, fun id n => ?_⟩
    constructor
    · intro h
      obtain ⟨rfl, rfl⟩ := Prod.mk.inj (Option.some.inj (Option.some.inj h))
      exact ⟨_, rest, happ, hvint, by omega, rfl, hlength.symm⟩
    · rintro ⟨bs, rest', happ', hvint', -, rfl, rfl⟩
      obtain ⟨-, -, rfl⟩ := (vint_at_iff hdrop).mp ⟨⟨rest', happ'⟩, hvint'⟩
      rw [hlength]

/-! ## Elements -/

/-- The format of a document type. -/
def docFormat (docType : Bytes) : Option String :=
  if docType = Bytes.ascii "matroska" then some "mkv"
  else if docType = Bytes.ascii "webm" then some "webm"
  else none

/-- The loop at an element: a document type decides, another element is passed over. -/
theorem walkEBML_element {buf rest : Bytes} {stop pos : Nat} {e : Element} (hlt : pos < stop)
    (h : buf.drop pos = e.encode ++ rest) :
    walkEBML buf stop pos =
      if Bytes.be e.id = ebmlDocTypeID then some (docFormat e.payload)
      else walkEBML buf stop (pos + e.encode.length) := by
  have hlen := congrArg List.length h
  rw [List.length_drop, List.length_append] at hlen
  have hpos := e.encode_pos
  have hlength := e.length_encode
  have hshape : buf.drop pos = e.id ++ (e.size ++ (e.payload ++ rest)) := by
    rw [h, Element.encode, List.append_assoc, List.append_assoc]
  have hid : readIDVint buf pos = some (some (Bytes.be e.id, e.id.length)) :=
    ((readIDVint_iff buf pos).2 _ _).mpr ⟨e.id, _, hshape, e.id_vint, e.id_length, rfl, rfl⟩
  have hbehind : buf.drop (pos + e.id.length) = e.size ++ (e.payload ++ rest) := by
    rw [← List.drop_drop, hshape, List.drop_left]
  have hsize : readSizeVint buf (pos + e.id.length) = some (some (e.payload.length, e.size.length)) :=
    ((readSizeVint_iff buf _).2 _ _).mpr ⟨e.size, _, hbehind, e.size_vint, e.fits.symm, rfl⟩
  have hslice := slice_of_drop (show pos + e.id.length ≤ buf.length by omega) hbehind
  have hnext : pos + e.id.length + e.size.length + e.payload.length = pos + e.encode.length := by omega
  conv => lhs; unfold walkEBML
  rw [dif_pos hlt]
  split
  · rename_i hread
    rw [hid] at hread
    exact absurd hread (by simp)
  · rename_i hread
    rw [hid] at hread
    exact absurd hread (by simp)
  rename_i id idLen hread
  rw [hid] at hread
  obtain ⟨rfl, rfl⟩ := Prod.mk.inj (Option.some.inj (Option.some.inj hread))
  rw [hsize]
  dsimp only
  rw [if_neg (by omega), hslice, hnext]
  rfl

/-- The loop ends where no element stands. -/
theorem walkEBML_stuck {buf : Bytes} {stop pos : Nat} (hlt : pos < stop)
    (h : ∀ (e : Element) rest, buf.drop pos ≠ e.encode ++ rest) :
      walkEBML buf stop pos = some none := by
  unfold walkEBML
  rw [dif_pos hlt]
  split
  · rename_i hread
    exact absurd hread (readIDVint_iff buf pos).1
  · rfl
  rename_i id idLen hread
  obtain ⟨idBytes, rest, hdrop, hvint, hfour, rfl, rfl⟩ := ((readIDVint_iff buf pos).2 _ _).mp hread
  split
  · rename_i hread'
    exact absurd hread' (readSizeVint_iff buf _).1
  · rfl
  rename_i size sizeLen hread'
  obtain ⟨sizeBytes, rest', hdrop', hvint', rfl, rfl⟩ := ((readSizeVint_iff buf _).2 _ _).mp hread'
  rw [← List.drop_drop, hdrop, List.drop_left] at hdrop'
  dsimp only
  split
  · rfl
  rename_i hfits
  subst hdrop'
  have hlen := congrArg List.length hdrop
  simp only [List.length_drop, List.length_append] at hlen
  have hpos := hvint.pos
  have htake : (rest'.take (vintSize sizeBytes)).length = vintSize sizeBytes := by
    rw [List.length_take]
    omega
  refine absurd ?_ (h ⟨idBytes, sizeBytes, rest'.take (vintSize sizeBytes), hvint, hfour, hvint',
    htake.symm⟩ (rest'.drop (vintSize sizeBytes)))
  rw [hdrop, Element.encode, List.append_assoc, List.append_assoc, List.take_append_drop]

/-- Behind its end the walk stops. -/
theorem walkEBML_end {buf : Bytes} {stop pos : Nat} (hlt : ¬ pos < stop) :
    walkEBML buf stop pos = some none := by
  unfold walkEBML
  exact dif_neg hlt

/-- What the loop accepts: elements, of which each starts before the end and the last one is the first
document type. -/
def LeadsToDocType (stop pos : Nat) (bytes docType : Bytes) : Prop :=
  ∃ (es : List Element) (e : Element) (rest : Bytes),
    bytes = es.flatMap Element.encode ++ (e.encode ++ rest) ∧
    (∀ x ∈ es, Bytes.be x.id ≠ ebmlDocTypeID) ∧ Bytes.be e.id = ebmlDocTypeID ∧ e.payload = docType ∧
    pos + (es.flatMap Element.encode).length < stop

/-- The loop finds the first document type. -/
theorem walkEBML_of_leads {buf docType : Bytes} {stop pos : Nat}
    (h : LeadsToDocType stop pos (buf.drop pos) docType) :
    walkEBML buf stop pos = some (docFormat docType) := by
  obtain ⟨es, e, rest, hdrop, hnot, hid, rfl, hstop⟩ := h
  induction es generalizing pos with
  | nil =>
    rw [walkEBML_element (Nat.lt_of_le_of_lt (Nat.le_add_right _ _) hstop) hdrop, if_pos hid]
  | cons x es ih =>
    rw [List.flatMap_cons, List.append_assoc] at hdrop
    rw [List.flatMap_cons, List.length_append, ← Nat.add_assoc] at hstop
    rw [walkEBML_element (by omega) hdrop, if_neg (hnot x List.mem_cons_self)]
    apply ih _ (fun y hy => hnot y (List.mem_cons_of_mem _ hy)) hstop
    rw [← List.drop_drop, hdrop, List.drop_left]

/-- The loop ends without an access out of range, and a format that it finds belongs to the first
document type. -/
theorem leads_of_walkEBML (buf : Bytes) (stop pos : Nat) :
    ∃ r, walkEBML buf stop pos = some r ∧ ∀ format, r = some format →
      ∃ docType, docFormat docType = some format ∧ LeadsToDocType stop pos (buf.drop pos) docType := by
  induction hk : stop - pos using Nat.strongRecOn generalizing pos with
  | ind k ih =>
    by_cases hlt : pos < stop
    swap
    · exact ⟨none, walkEBML_end hlt, by simp⟩
    by_cases hstands : ∃ (e : Element) (rest : Bytes), buf.drop pos = e.encode ++ rest
    swap
    · refine ⟨none, walkEBML_stuck hlt fun e rest h => hstands ⟨e, rest, h⟩, by simp⟩
    obtain ⟨e, rest, hdrop⟩ := hstands
    rw [walkEBML_element hlt hdrop]
    by_cases hid : Bytes.be e.id = ebmlDocTypeID
    · rw [if_pos hid]
      refine ⟨_, rfl, fun format hformat => ⟨e.payload, hformat, [], e, rest, ?_, ?_, hid, rfl, hlt⟩⟩
      · rw [hdrop]
        rfl
      · simp
    · rw [if_neg hid]
      have hpos := e.encode_pos
      obtain ⟨r, hr, hfound⟩ := ih (stop - (pos + e.encode.length)) (by omega) _ rfl
      refine ⟨r, hr, fun format hformat => ?_⟩
      obtain ⟨docType, hdoc, es, e', rest', hdrop', hnot, hid', hpayload, hstop⟩ :=
        hfound format hformat
      refine ⟨docType, hdoc, e :: es, e', rest', ?_, ?_, hid', hpayload, ?_⟩
      · rw [← List.drop_drop, hdrop, List.drop_left] at hdrop'
        rw [hdrop, hdrop', List.flatMap_cons, List.append_assoc]
      · intro x hx
        rcases List.mem_cons.mp hx with rfl | hx
        · exact hid
        · exact hnot x hx
      · rw [List.flatMap_cons, List.length_append, ← Nat.add_assoc]
        exact hstop

/-! ## The header -/

/-- A header with this document type: the magic number, a size, and complete elements, each starting
before the end that the size declares, of which the last is the first document type. -/
def HasDocType (buf docType : Bytes) : Prop :=
  ∃ (size : Bytes) (es : List Element) (e : Element) (rest : Bytes),
    IsVint size ∧ buf = ebmlMagic ++ (size ++ (es.flatMap Element.encode ++ (e.encode ++ rest))) ∧
    (∀ x ∈ es, Bytes.be x.id ≠ ebmlDocTypeID) ∧ Bytes.be e.id = ebmlDocTypeID ∧ e.payload = docType ∧
    (es.flatMap Element.encode).length < vintSize size

/-- The matcher finds the document type of a header. -/
theorem matchEBML_of_docType {buf docType : Bytes} (h : HasDocType buf docType) :
    matchEBML buf = some (docFormat docType) := by
  obtain ⟨size, es, e, rest, hvint, hbuf, hnot, hid, hpayload, hstop⟩ := h
  have hmagic : ebmlMagic.length = 4 := rfl
  have hpos := hvint.pos
  have hpos' := e.encode_pos
  have hlen := congrArg List.length hbuf
  simp only [List.length_append] at hlen
  have htake : buf.take 4 = ebmlMagic := by
    rw [hbuf, ← hmagic, List.take_left]
  have hdrop : buf.drop 4 = size ++ (es.flatMap Element.encode ++ (e.encode ++ rest)) := by
    rw [hbuf, ← hmagic, List.drop_left]
  have hread : readSizeVint buf 4 = some (some (vintSize size, size.length)) :=
    ((readSizeVint_iff buf 4).2 _ _).mpr ⟨size, _, hdrop, hvint, rfl, rfl⟩
  unfold matchEBML
  rw [if_neg (by rw [htake]; simp; omega), hread]
  apply walkEBML_of_leads
  refine ⟨es, e, rest, ?_, hnot, hid, hpayload, ?_⟩
  · rw [← List.drop_drop, hdrop, List.drop_left]
  · split <;> omega

/-- The matcher ends without an access out of range, and a format that it finds belongs to the document
type of the header. -/
theorem docType_of_matchEBML (buf : Bytes) :
    ∃ r, matchEBML buf = some r ∧ ∀ format, r = some format →
      ∃ docType, docFormat docType = some format ∧ HasDocType buf docType := by
  unfold matchEBML
  by_cases hmagic : buf.length < 5 ∨ buf.take 4 ≠ ebmlMagic
  · exact ⟨none, if_pos hmagic, by simp⟩
  rw [if_neg hmagic]
  simp only [not_or, not_lt, Classical.not_not] at hmagic
  rcases hread : readSizeVint buf 4 with _ | _ | ⟨value, n⟩
  · exact absurd hread (readSizeVint_iff buf 4).1
  · exact ⟨none, rfl, by simp⟩
  obtain ⟨size, rest, hdrop, hvint, rfl, rfl⟩ := ((readSizeVint_iff buf 4).2 _ _).mp hread
  dsimp only
  obtain ⟨r, hr, hfound⟩ := leads_of_walkEBML buf
    (if 4 + size.length + vintSize size < buf.length then 4 + size.length + vintSize size
      else buf.length)
    (4 + size.length)
  refine ⟨r, hr, fun format hformat => ?_⟩
  obtain ⟨docType, hdoc, es, e, rest', hdrop', hnot, hid, hpayload, hstop⟩ := hfound format hformat
  refine ⟨docType, hdoc, size, es, e, rest', hvint, ?_, hnot, hid, hpayload, ?_⟩
  · rw [← List.drop_drop, hdrop, List.drop_left] at hdrop'
    rw [← hdrop', ← hdrop, ← hmagic.2, List.take_append_drop]
  · split at hstop <;> omega

/-- The document type of Matroska. -/
theorem docFormat_eq_mkv {docType : Bytes} :
    docFormat docType = some "mkv" ↔ docType = Bytes.ascii "matroska" := by
  unfold docFormat
  split_ifs with hmkv hwebm
  · exact iff_of_true rfl hmkv
  · exact iff_of_false (by decide) hmkv
  · exact iff_of_false (by decide) hmkv

/-- The document type of WebM. -/
theorem docFormat_eq_webm {docType : Bytes} :
    docFormat docType = some "webm" ↔ docType = Bytes.ascii "webm" := by
  unfold docFormat
  split_ifs with hmkv hwebm
  · refine iff_of_false (by decide) ?_
    rw [hmkv]
    decide
  · exact iff_of_true rfl hwebm
  · exact iff_of_false (by decide) hwebm

/-- There are no other document types. -/
theorem docFormat_eq_some {docType : Bytes} {format : String} (h : docFormat docType = some format) :
    docType = Bytes.ascii "matroska" ∨ docType = Bytes.ascii "webm" := by
  unfold docFormat at h
  split_ifs at h with hmkv hwebm
  · exact .inl hmkv
  · exact .inr hwebm

/-- **The matcher accepts exactly its grammar**, and never reads outside the buffer. -/
theorem matchEBML_iff (buf : Bytes) :
    (matchEBML buf = some (some "mkv") ↔ HasDocType buf (Bytes.ascii "matroska")) ∧
      (matchEBML buf = some (some "webm") ↔ HasDocType buf (Bytes.ascii "webm")) ∧
      (¬ HasDocType buf (Bytes.ascii "matroska") ∧ ¬ HasDocType buf (Bytes.ascii "webm") ↔
        matchEBML buf = some none) := by
  obtain ⟨r, hr, hfound⟩ := docType_of_matchEBML buf
  refine ⟨?_, ?_, ?_⟩
  · constructor
    · intro h
      obtain ⟨docType, hdoc, hhas⟩ := hfound "mkv" (Option.some.inj (hr.symm.trans h))
      rwa [docFormat_eq_mkv.mp hdoc] at hhas
    · intro h
      rw [matchEBML_of_docType h, docFormat_eq_mkv.mpr rfl]
  · constructor
    · intro h
      obtain ⟨docType, hdoc, hhas⟩ := hfound "webm" (Option.some.inj (hr.symm.trans h))
      rwa [docFormat_eq_webm.mp hdoc] at hhas
    · intro h
      rw [matchEBML_of_docType h, docFormat_eq_webm.mpr rfl]
  · constructor
    · rintro ⟨hmkv, hwebm⟩
      rcases r with _ | format
      · exact hr
      · obtain ⟨docType, hdoc, hhas⟩ := hfound format rfl
        rcases docFormat_eq_some hdoc with rfl | rfl
        · exact absurd hhas hmkv
        · exact absurd hhas hwebm
    · intro h
      constructor
      · intro hhas
        rw [matchEBML_of_docType hhas, docFormat_eq_mkv.mpr rfl] at h
        exact absurd h (by simp)
      · intro hhas
        rw [matchEBML_of_docType hhas, docFormat_eq_webm.mpr rfl] at h
        exact absurd h (by simp)

end OctoConv
