import OctoConv.Lib.Search

/-!
# The injections into a rendered page

Before a page is printed, a policy tag and a style are spliced into a copy of it. The places are
searched for in a lowered copy, and the offsets found there are used in the original.

Source: `internal/convert/chromium.go` injectPrintCSS, injectCSPFirst, spliceAt.

## Main results

* `injectCSPFirst_eq`, `injectPrintCSS_eq` — the injections in terms of the original's own offsets.
* `injections_exact_iff` — they splice at the right places exactly if the offsets of the lowered
  copy lead to the same places.
-/

namespace OctoConv

open Conc

/-! ## The injections -/

/-- Source: `chromium.go` headCloseTag -/
def headCloseTag : Bytes := Bytes.ascii "</head>"

/-- Source: `chromium.go` headOpenPrefix -/
def headOpenPrefix : Bytes := Bytes.ascii "<head"

/-- Source: `chromium.go` htmlOpenPrefix -/
def htmlOpenPrefix : Bytes := Bytes.ascii "<html"

/-- Source: `bytes` IndexByte -/
def indexByte (b : Bytes) (x : UInt8) : Option Nat := indexOf [x] b

/-- Source: `chromium.go` spliceAt -/
def spliceAt (html : Bytes) (offset : Nat) (css : Bytes) : Option Bytes := do
  let before ← html.slice 0 offset
  let after ← html.slice offset html.length
  some (before ++ css ++ after)

/-- The offset behind the tag that begins with this prefix, if the copy has the prefix and the original
has a greater-than sign from there on. -/
def openingEnd (html lower tag : Bytes) : Option (Option Nat) :=
  match indexOf tag lower with
  | none => some none
  | some idx => do
    let rest ← html.slice idx html.length
    some ((indexByte rest 0x3E).map fun e => idx + e + 1)

/-- Source: `chromium.go` injectPrintCSS -/
def injectPrintCSS (html css : Bytes) : Option Bytes :=
  let lower := Utf8.toLower html
  match indexOf headCloseTag lower with
  | some idx => spliceAt html idx css
  | none => do
    match ← openingEnd html lower htmlOpenPrefix with
    | some offset => spliceAt html offset css
    | none => spliceAt html 0 css

/-- Source: `chromium.go` injectCSPFirst -/
def injectCSPFirst (html csp : Bytes) : Option Bytes := do
  let lower := Utf8.toLower html
  match ← openingEnd html lower headOpenPrefix with
  | some offset => spliceAt html offset csp
  | none =>
    match ← openingEnd html lower htmlOpenPrefix with
    | some offset => spliceAt html offset csp
    | none => spliceAt html 0 csp

/-! ## Places in the original -/

/-- The first place of a tag in the page itself, up to ASCII case. -/
def tagAt (html tag : Bytes) : Option Nat := indexOf tag (fold html)

/-- The offset behind the first greater-than sign from an offset on. -/
def endFrom (html : Bytes) (i : Nat) : Option Nat :=
  (indexByte (html.drop i) 0x3E).map fun e => i + e + 1

/-- The length of what stands before an offset, lowered: where the lowered copy has what the page has at
the offset. -/
def lowered (html : Bytes) (i : Nat) : Nat := (Utf8.toLower (html.take i)).length

/-- The page with a text inserted at an offset. -/
def insertAt (html : Bytes) (offset : Nat) (s : Bytes) : Bytes :=
  html.take offset ++ s ++ html.drop offset

/-- Where the policy belongs: behind the opening head tag, else behind the opening html tag, else at the
beginning. -/
def cspPlace (html : Bytes) : Nat :=
  (((tagAt html headOpenPrefix).bind (endFrom html)).or
    ((tagAt html htmlOpenPrefix).bind (endFrom html))).getD 0

/-- Where the style belongs: before the closing head tag, else behind the opening html tag, else at the
beginning. -/
def cssPlace (html : Bytes) : Nat :=
  match tagAt html headCloseTag with
  | some i => i
  | none => ((tagAt html htmlOpenPrefix).bind (endFrom html)).getD 0

/-- A text is inserted at an offset in the page. -/
theorem spliceAt_eq {html : Bytes} {offset : Nat} (h : offset ≤ html.length) (s : Bytes) :
    spliceAt html offset s = some (insertAt html offset s) := by
  have htake : (html.drop offset).take (html.length - offset) = html.drop offset :=
    List.take_of_length_le (by rw [List.length_drop])
  unfold spliceAt insertAt
  rw [Bytes.slice_of_le (Nat.zero_le _) h, Bytes.slice_of_le h (Nat.le_refl _), List.drop_zero,
    Nat.sub_zero, htake]
  rfl

/-- Behind the end of the page it is not. -/
theorem spliceAt_none {html : Bytes} {offset : Nat} (h : html.length < offset) (s : Bytes) :
    spliceAt html offset s = none := by
  have hslice : html.slice 0 offset = none := if_neg (by omega)
  unfold spliceAt
  rw [hslice]
  rfl

/-! ## Offsets -/

/-- A byte that was found is in the text. -/
theorem indexByte_lt {b : Bytes} {x : UInt8} {e : Nat} (h : indexByte b x = some e) : e < b.length := by
  obtain ⟨-, hstarts, -⟩ := indexOf_eq_some_iff.mp h
  have hlen := hstarts.length_le
  rw [List.length_singleton, List.length_drop] at hlen
  omega

/-- The end of a tag lies in the page, behind its first byte. -/
theorem endFrom_bounds {html : Bytes} {i k : Nat} (h : endFrom html i = some k) :
    k ≤ html.length ∧ 1 ≤ k := by
  obtain ⟨e, he, rfl⟩ := Option.map_eq_some_iff.mp h
  have hlt := indexByte_lt he
  rw [List.length_drop] at hlt
  omega

/-- The end of the tag in the page itself. -/
def tagEnd (html tag : Bytes) : Option Nat := (tagAt html tag).bind (endFrom html)

/-- The end of the tag that is found from the offset of the lowered copy on. -/
def shiftedEnd (html tag : Bytes) : Option Nat :=
  (tagAt html tag).bind fun i => endFrom html (lowered html i)

/-- The offset of the tag in the lowered copy lies in the page. -/
def InPage (html tag : Bytes) : Prop := ∀ i, tagAt html tag = some i → lowered html i ≤ html.length

/-- A tag ends in the page, and not at its start. -/
theorem tagEnd_bounds {html tag : Bytes} {k : Nat} (h : tagEnd html tag = some k) :
    k ≤ html.length ∧ 1 ≤ k := by
  obtain ⟨i, -, hi⟩ := Option.bind_eq_some_iff.mp h
  exact endFrom_bounds hi

/-- So does the shifted one. -/
theorem shiftedEnd_bounds {html tag : Bytes} {k : Nat} (h : shiftedEnd html tag = some k) :
    k ≤ html.length ∧ 1 ≤ k := by
  obtain ⟨i, -, hi⟩ := Option.bind_eq_some_iff.mp h
  exact endFrom_bounds hi

/-- A tag that was found is in the page. -/
theorem tagAt_le {html tag : Bytes} {i : Nat} (h : tagAt html tag = some i) : i ≤ html.length := by
  have hle := indexOf_le h
  rw [length_fold] at hle
  exact hle

/-- An ASCII text has its places where its lowered copy has them. -/
theorem lowered_ascii {html : Bytes} (h : ∀ x ∈ html, x < 0x80) {i : Nat} (hi : i ≤ html.length) :
    lowered html i = i := by
  unfold lowered
  rw [Utf8.toLower_eq_fold fun x hx => h x (List.mem_of_mem_take hx), length_fold, List.length_take,
    Nat.min_eq_left hi]

/-- In ASCII nothing is shifted. -/
theorem shiftedEnd_ascii {html : Bytes} (h : ∀ x ∈ html, x < 0x80) (tag : Bytes) :
    shiftedEnd html tag = tagEnd html tag := by
  unfold shiftedEnd tagEnd
  cases hi : tagAt html tag with
  | none => rfl
  | some i => rw [Option.bind_some, Option.bind_some, lowered_ascii h (tagAt_le hi)]

/-- In ASCII every tag ends in the page. -/
theorem inPage_ascii {html : Bytes} (h : ∀ x ∈ html, x < 0x80) (tag : Bytes) : InPage html tag := by
  intro i hi
  have hle := tagAt_le hi
  rw [lowered_ascii h hle]
  exact hle

/-- The three tags are plain patterns. -/
theorem tags_plain : ∀ tag ∈ [headCloseTag, headOpenPrefix, htmlOpenPrefix],
    tag ≠ [] ∧ ∀ y ∈ tag, Utf8.isPlain y = true := by
  decide +kernel

/-- The search in the lowered copy finds the tag at its lowered offset. -/
theorem indexOf_lower {tag : Bytes} (htag : tag ∈ [headCloseTag, headOpenPrefix, htmlOpenPrefix])
    (html : Bytes) : indexOf tag (Utf8.toLower html) = (tagAt html tag).map (lowered html) := by
  obtain ⟨hne, hplain⟩ := tags_plain tag htag
  exact Utf8.indexOf_toLower hne hplain html

/-- The end of the tag that was looked for, if it is in the page. -/
theorem openingEnd_of_inPage {html tag : Bytes}
    (htag : tag ∈ [headCloseTag, headOpenPrefix, htmlOpenPrefix]) (h : InPage html tag) :
    openingEnd html (Utf8.toLower html) tag = some (shiftedEnd html tag) := by
  unfold openingEnd shiftedEnd
  rw [indexOf_lower htag]
  cases hi : tagAt html tag with
  | none => rfl
  | some i =>
    have hle := h i hi
    have htake : (html.drop (lowered html i)).take (html.length - lowered html i) =
        html.drop (lowered html i) := List.take_of_length_le (by rw [List.length_drop])
    rw [Option.map_some, Option.bind_some]
    dsimp only
    rw [Bytes.slice_of_le hle (Nat.le_refl _), htake]
    rfl

/-- And none if it is not. -/
theorem openingEnd_of_not_inPage {html tag : Bytes}
    (htag : tag ∈ [headCloseTag, headOpenPrefix, htmlOpenPrefix]) (h : ¬ InPage html tag) :
    openingEnd html (Utf8.toLower html) tag = none := by
  unfold openingEnd
  rw [indexOf_lower htag]
  cases hi : tagAt html tag with
  | none =>
    refine absurd ?_ h
    intro i hi'
    rw [hi] at hi'
    exact absurd hi' (by simp)
  | some i =>
    have hlt : html.length < lowered html i := by
      by_contra hle
      refine h ?_
      intro j hj
      obtain rfl : i = j := by simpa [hi] using hj
      omega
    have hslice : html.slice (lowered html i) html.length = none := if_neg (by omega)
    rw [Option.map_some]
    dsimp only
    rw [hslice]
    rfl

/-- Where the code puts the policy; none is a panic. -/
def cspOffset (html : Bytes) : Option Nat := do
  match ← openingEnd html (Utf8.toLower html) headOpenPrefix with
  | some offset => some offset
  | none => (openingEnd html (Utf8.toLower html) htmlOpenPrefix).map (·.getD 0)

/-- Where the code puts the style; none is a panic. -/
def cssOffset (html : Bytes) : Option Nat :=
  match indexOf headCloseTag (Utf8.toLower html) with
  | some idx => some idx
  | none => (openingEnd html (Utf8.toLower html) htmlOpenPrefix).map (·.getD 0)

/-- The offset does not depend on what is spliced in. -/
theorem injectCSPFirst_eq (html s : Bytes) :
    injectCSPFirst html s = (cspOffset html).bind fun k => spliceAt html k s := by
  unfold injectCSPFirst cspOffset
  dsimp only
  cases openingEnd html (Utf8.toLower html) headOpenPrefix with
  | none => rfl
  | some head =>
    cases head with
    | some offset => rfl
    | none =>
      cases openingEnd html (Utf8.toLower html) htmlOpenPrefix with
      | none => rfl
      | some start =>
        cases start with
        | none => rfl
        | some offset => rfl

/-- The print CSS is inserted at its offset, if that is in the page. -/
theorem injectPrintCSS_eq (html s : Bytes) :
    injectPrintCSS html s = (cssOffset html).bind fun k => spliceAt html k s := by
  unfold injectPrintCSS cssOffset
  dsimp only
  cases indexOf headCloseTag (Utf8.toLower html) with
  | some idx => rfl
  | none =>
    cases openingEnd html (Utf8.toLower html) htmlOpenPrefix with
    | none => rfl
    | some start =>
      cases start with
      | none => rfl
      | some offset => rfl

/-! ## The right places -/

/-- Both injections return the page with the text inserted at its place, whatever is inserted. -/
def Exact (html : Bytes) : Prop :=
  ∀ s, injectCSPFirst html s = some (insertAt html (cspPlace html) s) ∧
    injectPrintCSS html s = some (insertAt html (cssPlace html) s)

/-- From the offsets that the opening tags have in the lowered copy, the same greater-than sign is found
as from their own. -/
def CspAligned (html : Bytes) : Prop :=
  InPage html headOpenPrefix ∧ (shiftedEnd html headOpenPrefix = none → InPage html htmlOpenPrefix) ∧
    (shiftedEnd html headOpenPrefix).or (shiftedEnd html htmlOpenPrefix) =
      (tagEnd html headOpenPrefix).or (tagEnd html htmlOpenPrefix)

/-- What stands before the closing head tag lowers to as many bytes; without that tag, the same is
found for the opening html tag. -/
def CssAligned (html : Bytes) : Prop :=
  match tagAt html headCloseTag with
  | some i => lowered html i = i
  | none => InPage html htmlOpenPrefix ∧ shiftedEnd html htmlOpenPrefix = tagEnd html htmlOpenPrefix

/-- Insertions of every text at two offsets differ. -/
theorem insertAt_injective {html : Bytes} {k k' : Nat} (hk : k ≤ html.length) (hk' : k' ≤ html.length)
    (h : ∀ s, insertAt html k s = insertAt html k' s) : k = k' := by
  have hlt {i j : Nat} (hi : i < j) (hj : j ≤ html.length)
      (heq : ∀ s, insertAt html i s = insertAt html j s) : False := by
    obtain ⟨x, hx⟩ : ∃ x : UInt8, x ≠ html[i] := by
      by_cases hzero : html[i] = 0
      · exact ⟨1, by rw [hzero]; decide⟩
      · exact ⟨0, fun h0 => hzero h0.symm⟩
    have hlen : (html.take i).length = i := by
      rw [List.length_take]
      omega
    have hleft : (insertAt html i [x])[i]? = some x := by
      unfold insertAt
      rw [List.append_assoc, List.getElem?_append_right (by omega), hlen, Nat.sub_self]
      rfl
    have hright : (insertAt html j [x])[i]? = some html[i] := by
      unfold insertAt
      rw [List.append_assoc, List.getElem?_append_left (by rw [List.length_take]; omega),
        List.getElem?_take_of_lt hi, List.getElem?_eq_getElem (by omega)]
    rw [heq [x], hright, Option.some.injEq] at hleft
    exact hx hleft.symm
  rcases Nat.lt_trichotomy k k' with hless | heq | hless
  · exact (hlt hless hk' h).elim
  · exact heq
  · exact (hlt hless hk fun s => (h s).symm).elim

/-- Splicing every text in at one offset is right exactly if it is the right offset. -/
theorem spliced_iff {html : Bytes} {o : Option Nat} {k : Nat} (hk : k ≤ html.length) :
    (∀ s, (o.bind fun i => spliceAt html i s) = some (insertAt html k s)) ↔ o = some k := by
  constructor
  · intro h
    cases o with
    | none => exact absurd (h []) (by simp)
    | some i =>
      have hi : i ≤ html.length := by
        by_contra hlt
        have hnone := h []
        rw [Option.bind_some, spliceAt_none (by omega)] at hnone
        exact absurd hnone (by simp)
      rw [insertAt_injective hi hk]
      intro s
      have hs := h s
      rw [Option.bind_some, spliceAt_eq hi, Option.some.injEq] at hs
      exact hs
  · rintro rfl s
    rw [Option.bind_some, spliceAt_eq hk]

/-- Two offsets of which none is 0 have the same default exactly if they are the same. -/
theorem getD_zero_inj {x y : Option Nat} (hx : ∀ k, x = some k → 1 ≤ k) (hy : ∀ k, y = some k → 1 ≤ k) :
    x.getD 0 = y.getD 0 ↔ x = y := by
  constructor
  · intro h
    cases x with
    | none =>
      cases y with
      | none => rfl
      | some k =>
        have hk := hy k rfl
        simp only [Option.getD_none, Option.getD_some] at h
        omega
    | some j =>
      have hj := hx j rfl
      cases y with
      | none =>
        simp only [Option.getD_none, Option.getD_some] at h
        omega
      | some k =>
        simp only [Option.getD_some] at h
        rw [h]
  · rintro rfl
    rfl

/-- What holds of two places holds of the first of them that there is. -/
theorem forall_or {P : Nat → Prop} {x y : Option Nat} (hx : ∀ k, x = some k → P k)
    (hy : ∀ k, y = some k → P k) : ∀ k, x.or y = some k → P k := by
  intro k h
  rcases Option.or_eq_some_iff.mp h with h | ⟨-, h⟩
  · exact hx k h
  · exact hy k h

/-- Without a place it is the beginning. -/
theorem getD_zero_le {n : Nat} {x : Option Nat} (h : ∀ k, x = some k → k ≤ n) : x.getD 0 ≤ n := by
  rcases x with _ | k
  · exact Nat.zero_le n
  · exact h k rfl

/-- The place of the policy is in the page. -/
theorem cspPlace_le (html : Bytes) : cspPlace html ≤ html.length :=
  getD_zero_le (forall_or (fun _ h => (tagEnd_bounds h).1) fun _ h => (tagEnd_bounds h).1)

/-- The place of the print CSS is in the page. -/
theorem cssPlace_le (html : Bytes) : cssPlace html ≤ html.length := by
  unfold cssPlace
  cases hi : tagAt html headCloseTag with
  | some i => exact tagAt_le hi
  | none => exact getD_zero_le fun _ h => (tagEnd_bounds h).1

/-- The code puts the policy at its place exactly if the offsets are aligned. -/
theorem cspOffset_iff (html : Bytes) : cspOffset html = some (cspPlace html) ↔ CspAligned html := by
  have hplace : cspPlace html =
      ((tagEnd html headOpenPrefix).or (tagEnd html htmlOpenPrefix)).getD 0 := rfl
  have hpos (tag : Bytes) : ∀ k, tagEnd html tag = some k → 1 ≤ k := fun k h => (tagEnd_bounds h).2
  have hspos (tag : Bytes) : ∀ k, shiftedEnd html tag = some k → 1 ≤ k :=
    fun k h => (shiftedEnd_bounds h).2
  have htrue := forall_or (hpos headOpenPrefix) (hpos htmlOpenPrefix)
  unfold cspOffset CspAligned
  by_cases hhead : InPage html headOpenPrefix
  · rw [openingEnd_of_inPage (by simp) hhead, Option.bind_eq_bind, Option.bind_some]
    cases hend : shiftedEnd html headOpenPrefix with
    | some offset =>
      have hsome := hspos headOpenPrefix offset hend
      have hinj := getD_zero_inj (x := some offset) (by rintro k ⟨⟩; exact hsome) htrue
      rw [hplace, Option.some_or, ← hinj, Option.getD_some]
      simp [hhead]
    | none =>
      by_cases hhtml : InPage html htmlOpenPrefix
      · have hinj := getD_zero_inj (hspos htmlOpenPrefix) htrue
        dsimp only
        rw [openingEnd_of_inPage (by simp) hhtml, hplace, Option.none_or, ← hinj]
        simp [hhead, hhtml]
      · dsimp only
        rw [openingEnd_of_not_inPage (by simp) hhtml]
        simp [hhtml]
  · rw [openingEnd_of_not_inPage (by simp) hhead]
    simp [hhead]

/-- The code puts the style at its place exactly if the offsets are aligned. -/
theorem cssOffset_iff (html : Bytes) : cssOffset html = some (cssPlace html) ↔ CssAligned html := by
  unfold cssOffset CssAligned cssPlace
  rw [indexOf_lower (by simp)]
  cases hi : tagAt html headCloseTag with
  | some i => simp
  | none =>
    have hpos : ∀ k, tagEnd html htmlOpenPrefix = some k → 1 ≤ k := fun k h => (tagEnd_bounds h).2
    have hspos : ∀ k, shiftedEnd html htmlOpenPrefix = some k → 1 ≤ k :=
      fun k h => (shiftedEnd_bounds h).2
    change (openingEnd html (Utf8.toLower html) htmlOpenPrefix).map (·.getD 0) =
      some ((tagEnd html htmlOpenPrefix).getD 0) ↔ _
    by_cases hhtml : InPage html htmlOpenPrefix
    · rw [openingEnd_of_inPage (by simp) hhtml, ← getD_zero_inj hspos hpos]
      simp [hhtml]
    · rw [openingEnd_of_not_inPage (by simp) hhtml]
      simp [hhtml]

/-- The injections are exact for a page exactly if the offsets of the lowered copy lead to the same
places as the page's own.

Source: `chromium.go` injectCSPFirst, injectPrintCSS -/
theorem injections_exact_iff (html : Bytes) : Exact html ↔ CspAligned html ∧ CssAligned html := by
  rw [← cspOffset_iff, ← cssOffset_iff, ← spliced_iff (cspPlace_le html),
    ← spliced_iff (cssPlace_le html)]
  unfold Exact
  constructor
  · intro h
    constructor
    · intro s
      rw [← injectCSPFirst_eq]
      exact (h s).1
    · intro s
      rw [← injectPrintCSS_eq]
      exact (h s).2
  · rintro ⟨hcsp, hcss⟩ s
    rw [injectCSPFirst_eq, injectPrintCSS_eq]
    exact ⟨hcsp s, hcss s⟩

/-- For ASCII pages the injections are exact. -/
theorem exact_of_ascii {html : Bytes} (h : ∀ x ∈ html, x < 0x80) : Exact html := by
  rw [injections_exact_iff]
  constructor
  · refine ⟨inPage_ascii h _, fun _ => inPage_ascii h _, ?_⟩
    rw [shiftedEnd_ascii h, shiftedEnd_ascii h]
  · unfold CssAligned
    cases hi : tagAt html headCloseTag with
    | some i => exact lowered_ascii h (tagAt_le hi)
    | none => exact ⟨inPage_ascii h _, shiftedEnd_ascii h _⟩

/-- A page whose head has a letter that takes three bytes in lower case and two in upper case. -/
def growingPage : Bytes := Utf8.encode "<head>\u023A</head>".toList

/-- The style is spliced into the closing head tag of this page. -/
theorem injections_shifted : ¬ ∀ html, Utf8.valid html = true → Exact html := by
  intro h
  have hvalid : Utf8.valid growingPage = true := Utf8.valid_encode _
  have hcss := (cssOffset_iff growingPage).mp ((spliced_iff (cssPlace_le growingPage)).mp fun s => by
    rw [← injectPrintCSS_eq]
    exact (h growingPage hvalid s).2)
  have hat : tagAt growingPage headCloseTag = some 8 := by decide +kernel
  have hlowered : lowered growingPage 8 = 9 := by
    have htake : growingPage.take 8 = Utf8.encode "<head>\u023A".toList := by decide +kernel
    unfold lowered
    rw [htake, Utf8.toLower_encode]
    decide +kernel
  unfold CssAligned at hcss
  rw [hat] at hcss
  dsimp only at hcss
  rw [hlowered] at hcss
  exact absurd hcss (by decide)

end OctoConv
