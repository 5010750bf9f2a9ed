import OctoConv.Lib.Search
import Mathlib.Algebra.Group.Nat.Defs
import Mathlib.Data.List.TakeWhile

/-!
# The content check of HTML

HTML has no magic bytes. The check reads the first mebibyte of an upload, wants valid UTF-8 without NUL,
and looks for a doctype or an html tag in a lowered copy.

Source: `internal/convert/htmlsniff.go` LooksLikeHTML.

## Main results

* `looksLikeHTML_iff` — what is accepted, in terms of the bytes themselves.
* `looksLikeHTML_sniffed_iff` — the check is right exactly if the cut does not fall into a character
  of an HTML document.
-/

namespace OctoConv

open Conc

/-! ## The check -/

/-- Source: `htmlsniff.go` htmlSniffCap -/
def htmlSniffCap : Nat := 2 ^ 20

/-- Source: `htmlsniff.go` htmlDoctypeMarker -/
def htmlDoctypeMarker : Bytes := Bytes.ascii "<!doctype html"

/-- Source: `htmlsniff.go` htmlTagMarker -/
def htmlTagMarker : Bytes := Bytes.ascii "<html"

/-- The byte order mark of UTF-8. -/
def utf8BOM : Bytes := [0xEF, 0xBB, 0xBF]

/-- The bytes that are trimmed: space, tab, CR, LF, FF, VT. -/
def htmlSpaces : Bytes := [0x20, 0x09, 0x0D, 0x0A, 0x0C, 0x0B]

/-- The bytes that may follow the html tag's name: >, /, space, tab, CR, LF. -/
def htmlTagEnds : Bytes := [0x3E, 0x2F, 0x20, 0x09, 0x0D, 0x0A]

/-- Source: `bytes` TrimPrefix -/
def trimPrefix (b p : Bytes) : Bytes := if p.isPrefixOf b then b.drop p.length else b

/-- Source: `bytes` TrimLeft -/
def trimLeft (b cutset : Bytes) : Bytes := b.dropWhile fun x => x ∈ cutset

/-- The check of a reader with this content.

Source: `htmlsniff.go` LooksLikeHTML -/
def looksLikeHTML (r : Bytes) (size : Nat) : Bool :=
  if size = 0 then false
  else
    let n := if htmlSniffCap < size then htmlSniffCap else size
    let buf := r.take n
    if buf.length = 0 then false
    else if 0 ∈ buf then false
    else if Utf8.valid buf = false then false
    else
      let buf := trimPrefix buf utf8BOM
      let buf := trimLeft buf htmlSpaces
      let lower := Utf8.toLower buf
      if htmlDoctypeMarker.isPrefixOf lower then true
      else if htmlTagMarker.isPrefixOf lower then
        match lower.drop htmlTagMarker.length with
        | [] => false
        | x :: _ => x ∈ htmlTagEnds
      else false

/-! ## What it accepts -/

/-- The beginning of an HTML document, up to ASCII case. -/
def HtmlStart (b : Bytes) : Prop :=
  htmlDoctypeMarker <+: fold b ∨ ∃ x ∈ htmlTagEnds, htmlTagMarker ++ [x] <+: fold b

/-- The beginning of an HTML document behind a byte order mark and white space. -/
def HtmlLed (b : Bytes) : Prop :=
  ∃ bom ws r, b = bom ++ (ws ++ r) ∧ (bom = [] ∨ bom = utf8BOM) ∧ (∀ x ∈ ws, x ∈ htmlSpaces) ∧
    HtmlStart r

/-- The markers are plain patterns. -/
theorem htmlMarkers_plain :
    (∀ y ∈ htmlDoctypeMarker, Utf8.isPlain y = true) ∧
      ∀ x ∈ htmlTagEnds, ∀ y ∈ htmlTagMarker ++ [x], Utf8.isPlain y = true := by
  decide +kernel

/-- A document begins with a less-than sign. -/
theorem HtmlStart.head {b : Bytes} (h : HtmlStart b) : ∃ r, b = 0x3C :: r := by
  have hfold : ∃ r, fold b = 0x3C :: r := by
    rcases h with ⟨s, hs⟩ | ⟨x, -, s, hs⟩
    · exact ⟨_, hs.symm⟩
    · exact ⟨_, hs.symm⟩
  obtain ⟨r, hr⟩ := hfold
  rcases b with _ | ⟨y, b⟩
  · exact absurd hr (by simp [fold])
  · rw [fold_cons, List.cons.injEq] at hr
    have hnat := toNat_asciiLower y
    rw [hr.1] at hnat
    simp only [UInt8.reduceToNat] at hnat
    have hy : y = 0x3C := by
      apply UInt8.toNat_inj.mp
      simp only [UInt8.reduceToNat]
      split at hnat
      · omega
      · omega
    exact ⟨b, by rw [hy]⟩

/-- White space before a text is trimmed with it. -/
theorem trimLeft_append {ws r : Bytes} (h : ∀ x ∈ ws, x ∈ htmlSpaces) :
    trimLeft (ws ++ r) htmlSpaces = trimLeft r htmlSpaces :=
  List.dropWhile_append_of_pos fun x hx => by simpa using h x hx

/-- What is trimmed is a byte order mark and white space. -/
theorem htmlLed_iff (b : Bytes) :
    HtmlLed b ↔ HtmlStart (trimLeft (trimPrefix b utf8BOM) htmlSpaces) := by
  constructor
  · rintro ⟨bom, ws, r, rfl, hbom, hws, hstart⟩
    obtain ⟨r', rfl⟩ := hstart.head
    have hr : trimLeft (0x3C :: r') htmlSpaces = 0x3C :: r' := by
      unfold trimLeft
      rw [List.dropWhile_cons_of_neg (by decide)]
    rcases hbom with rfl | rfl
    · have hnot : ¬ utf8BOM.isPrefixOf (ws ++ 0x3C :: r') = true := by
        rw [List.isPrefixOf_iff_prefix]
        rintro ⟨s, hs⟩
        rcases ws with _ | ⟨w, ws⟩
        · exact absurd (List.cons.inj hs).1 (by decide)
        · have hw := hws w List.mem_cons_self
          rw [← (List.cons.inj hs).1] at hw
          exact absurd hw (by decide)
      rw [List.nil_append, trimPrefix, if_neg hnot, trimLeft_append hws, hr]
      exact hstart
    · have hpos : utf8BOM.isPrefixOf (utf8BOM ++ (ws ++ 0x3C :: r')) = true :=
        List.isPrefixOf_iff_prefix.mpr (List.prefix_append _ _)
      rw [trimPrefix, if_pos hpos, List.drop_left, trimLeft_append hws, hr]
      exact hstart
  · intro h
    have hsplit (c : Bytes) : c = c.takeWhile (fun x => x ∈ htmlSpaces) ++ trimLeft c htmlSpaces :=
      (List.takeWhile_append_dropWhile ..).symm
    have hws (c : Bytes) : ∀ x ∈ c.takeWhile (fun x => x ∈ htmlSpaces), x ∈ htmlSpaces := by
      intro x hx
      simpa using List.mem_takeWhile_imp hx
    by_cases hbom : utf8BOM <+: b
    · obtain ⟨c, rfl⟩ := hbom
      rw [trimPrefix, if_pos (List.isPrefixOf_iff_prefix.mpr (List.prefix_append _ _)),
        List.drop_left] at h
      exact ⟨utf8BOM, _, _, by rw [← hsplit c], .inr rfl, hws c, h⟩
    · rw [trimPrefix, if_neg (fun hp => hbom (List.isPrefixOf_iff_prefix.mp hp))] at h
      exact ⟨[], _, _, by rw [List.nil_append, ← hsplit b], .inl rfl, hws b, h⟩

/-- The search in the lowered copy finds exactly the documents. -/
theorem htmlStart_iff (b : Bytes) :
    (if htmlDoctypeMarker.isPrefixOf (Utf8.toLower b) then true
      else if htmlTagMarker.isPrefixOf (Utf8.toLower b) then
        match (Utf8.toLower b).drop htmlTagMarker.length with
        | [] => false
        | x :: _ => decide (x ∈ htmlTagEnds)
      else false) = true ↔ HtmlStart b := by
  have hdoctype := Utf8.prefix_toLower_iff htmlMarkers_plain.1 b
  have htag (x : UInt8) (hx : x ∈ htmlTagEnds) := Utf8.prefix_toLower_iff (htmlMarkers_plain.2 x hx) b
  unfold HtmlStart
  rw [← hdoctype]
  generalize Utf8.toLower b = lower at *
  by_cases hd : htmlDoctypeMarker <+: lower
  · rw [if_pos (List.isPrefixOf_iff_prefix.mpr hd)]
    exact ⟨fun _ => .inl hd, fun _ => rfl⟩
  rw [if_neg (fun h => hd (List.isPrefixOf_iff_prefix.mp h))]
  by_cases ht : htmlTagMarker <+: lower
  · rw [if_pos (List.isPrefixOf_iff_prefix.mpr ht)]
    obtain ⟨s, rfl⟩ := ht
    rw [List.drop_left]
    rcases s with _ | ⟨y, s⟩
    · constructor
      · intro h
        exact absurd h Bool.false_ne_true
      · rintro (h | ⟨x, hx, h⟩)
        · exact absurd h hd
        · have hlen := ((htag x hx).mpr h).length_le
          simp at hlen
    · constructor
      · intro h
        have hy : y ∈ htmlTagEnds := by simpa using h
        refine .inr ⟨y, hy, (htag y hy).mp ?_⟩
        rw [List.prefix_append_right_inj]
        exact ⟨s, rfl⟩
      · rintro (h | ⟨x, hx, h⟩)
        · exact absurd h hd
        · have hx' := (htag x hx).mpr h
          rw [List.prefix_append_right_inj, List.cons_prefix_cons] at hx'
          rw [← hx'.1]
          exact decide_eq_true hx
  · rw [if_neg (fun h => ht (List.isPrefixOf_iff_prefix.mp h))]
    constructor
    · intro h
      exact absurd h Bool.false_ne_true
    · rintro (h | ⟨x, hx, h⟩)
      · exact absurd h hd
      · exact absurd ((List.prefix_append _ _).trans ((htag x hx).mpr h)) ht

/-- Nothing is led by a tag. -/
theorem not_htmlLed_nil : ¬ HtmlLed [] := by
  rw [htmlLed_iff]
  intro h
  obtain ⟨r, hr⟩ := h.head
  have hnil : trimLeft (trimPrefix [] utf8BOM) htmlSpaces = [] := by decide
  rw [hnil] at hr
  exact absurd hr (by simp)

/-- What the check accepts. -/
theorem looksLikeHTML_iff (d : Bytes) :
    looksLikeHTML d d.length = true ↔
      0 ∉ d.take htmlSniffCap ∧ Utf8.valid (d.take htmlSniffCap) = true ∧
        HtmlLed (d.take htmlSniffCap) := by
  have htake : d.take (if htmlSniffCap < d.length then htmlSniffCap else d.length) =
      d.take htmlSniffCap := by
    split
    · rfl
    · rw [List.take_of_length_le (Nat.le_refl _), List.take_of_length_le (by omega)]
  unfold looksLikeHTML
  dsimp only
  rw [htake]
  generalize hbuf : d.take htmlSniffCap = buf
  by_cases hlen : buf.length = 0
  · obtain rfl := List.eq_nil_of_length_eq_zero hlen
    constructor
    · intro h
      split at h
      · exact absurd h Bool.false_ne_true
      · exact absurd h Bool.false_ne_true
    · rintro ⟨-, -, h⟩
      exact absurd h not_htmlLed_nil
  · have hsize : d.length ≠ 0 := by
      intro h
      rw [← hbuf, List.length_take] at hlen
      omega
    rw [if_neg hsize, if_neg hlen, htmlLed_iff, ← htmlStart_iff]
    by_cases hnul : 0 ∈ buf
    · simp [hnul]
    by_cases hvalid : Utf8.valid buf = true
    · simp only [hnul, hvalid, if_false, Bool.true_eq_false, not_false_eq_true, true_and]
    · simp [hnul, hvalid]

/-! ## The cut -/

/-- The check accepts every HTML document, and nothing whose beginning has a NUL or is not that of
an HTML document. -/
def HtmlSniffed (d : Bytes) : Prop :=
  (Utf8.valid d = true ∧ 0 ∉ d ∧ HtmlLed (d.take htmlSniffCap) → looksLikeHTML d d.length = true) ∧
    (0 ∈ d.take htmlSniffCap ∨ ¬ HtmlLed (d.take htmlSniffCap) → looksLikeHTML d d.length = false)

/-- The check is right for a byte string unless it is an HTML document with a continuation byte at the
offset of the cap, so that the cut falls into a character.

Source: `htmlsniff.go` LooksLikeHTML -/
theorem looksLikeHTML_sniffed_iff (d : Bytes) :
    HtmlSniffed d ↔
      ¬ ((Utf8.valid d = true ∧ 0 ∉ d ∧ HtmlLed (d.take htmlSniffCap)) ∧
        ∃ x, d[htmlSniffCap]? = some x ∧ Utf8.isCont x = true) := by
  have hiff := looksLikeHTML_iff d
  constructor
  · rintro ⟨haccepts, -⟩ ⟨hdoc, x, hx, hcont⟩
    obtain ⟨-, hcut, -⟩ := hiff.mp (haccepts hdoc)
    rw [(Utf8.valid_take_iff hdoc.1 _).mp hcut x hx] at hcont
    exact absurd hcont Bool.false_ne_true
  · intro h
    constructor
    · intro hdoc
      refine hiff.mpr ⟨fun hmem => hdoc.2.1 (List.mem_of_mem_take hmem), ?_, hdoc.2.2⟩
      rw [Utf8.valid_take_iff hdoc.1]
      intro x hx
      rw [Bool.eq_false_iff]
      intro hcont
      exact h ⟨hdoc, x, hx, hcont⟩
    · intro hbad
      rw [Bool.eq_false_iff]
      intro haccepted
      obtain ⟨hnul, -, hled⟩ := hiff.mp haccepted
      rcases hbad with hbad | hbad
      · exact hnul hbad
      · exact hbad hled

/-- An HTML document of `n` + 8 bytes that ends with a two-byte character. -/
def longDoc (n : Nat) : Bytes := Bytes.ascii "<html>" ++ (List.replicate n 0x61 ++ [0xC3, 0xA9])

/-- The long document is valid. -/
theorem valid_longDoc (n : Nat) : Utf8.valid (longDoc n) = true := by
  have hreplicate : Utf8.encode (List.replicate n 'a') = List.replicate n 0x61 := by
    induction n with
    | zero => rfl
    | succ n ih =>
      rw [List.replicate_succ, Utf8.encode_cons, ih, List.replicate_succ]
      rfl
  rw [Utf8.valid_iff]
  refine ⟨['<', 'h', 't', 'm', 'l', '>'] ++ (List.replicate n 'a' ++ ['é']), ?_⟩
  have happend (cs ds : List Char) : Utf8.encode (cs ++ ds) = Utf8.encode cs ++ Utf8.encode ds :=
    List.flatMap_append
  rw [happend, happend, hreplicate]
  rfl

/-- An HTML document with a two-byte character across the cap is not accepted. -/
theorem looksLikeHTML_cut : ¬ ∀ d, HtmlSniffed d := by
  intro h
  obtain ⟨n, hcap⟩ : ∃ n, htmlSniffCap = 6 + (n + 1) := ⟨htmlSniffCap - 7, by decide⟩
  have hsix : (Bytes.ascii "<html>").length = 6 := by decide
  have hlast : (longDoc n)[htmlSniffCap]? = some 0xA9 := by
    unfold longDoc
    rw [hcap, ← hsix, List.getElem?_append_right (Nat.le_add_right _ _), Nat.add_sub_cancel_left,
      List.getElem?_append_right (by rw [List.length_replicate]; omega), List.length_replicate,
      Nat.add_sub_cancel_left]
    rfl
  have hled : HtmlLed ((longDoc n).take htmlSniffCap) := by
    refine ⟨[], [], (longDoc n).take htmlSniffCap, rfl, .inl rfl, by simp, .inr ⟨0x3E, by decide, ?_⟩⟩
    unfold longDoc
    rw [hcap, ← hsix, List.take_length_add_append, fold_append]
    exact List.prefix_append _ _
  have hnul : 0 ∉ longDoc n := by
    unfold longDoc
    simp only [List.mem_append, List.mem_replicate, not_or]
    exact ⟨by decide, fun h => absurd h.2 (by decide), by decide⟩
  have haccepted := (h _).1 ⟨valid_longDoc n, hnul, hled⟩
  obtain ⟨-, hcut, -⟩ := (looksLikeHTML_iff _).mp haccepted
  have hcont := (Utf8.valid_take_iff (valid_longDoc n) _).mp hcut _ hlast
  exact absurd hcont (by decide)

end OctoConv
