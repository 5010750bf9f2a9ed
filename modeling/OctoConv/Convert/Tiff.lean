import OctoConv.Convert.Dimensions
import Mathlib.Data.List.Infix

/-!
# The entries of a TIFF

A TIFF declares its size in two entries of its first IFD. The scan returns at the first entry where
it has seen both tags, with the last value of each; an entry behind that one stays unseen.

Source: `internal/convert/dimensions.go` tiffDimensions.

## Main results

* `tiffDimensions_eq` — the dimensions come from the shortest beginning of the IFD with both tags.
* `tiffDimensions_covers_iff` — they bound every reading of the IFD exactly if the largest values stand
  last in that beginning.
-/

namespace OctoConv

open Conc

/-! ## The entries -/

/-- The entries from number `i` on, up to the first that does not lie in the buffer. Offsets are numbers
of 32 bits, as everywhere in a TIFF. -/
def entriesFrom (b : Bytes) (bo : ByteOrder) (entriesStart : Nat) : Nat → Nat → List TiffEntry
  | 0, _ => []
  | n + 1, i =>
    if b.length < (entriesStart + i * 12) % 2 ^ 32 + 12 then []
    else
      match tiffEntry b bo ((entriesStart + i * 12) % 2 ^ 32) with
      | none => []
      | some e => e :: entriesFrom b bo entriesStart n (i + 1)

/-- The entries of the first IFD. -/
def tiffEntries (b : Bytes) : List TiffEntry :=
  (do
    let bo ← tiffOrder b
    let ifdOffset ← (b.slice 4 8).map bo.uint
    let count ← (b.slice ifdOffset ((ifdOffset + 2) % 2 ^ 32)).map bo.uint
    some (entriesFrom b bo ((ifdOffset + 2) % 2 ^ 32) count 0) : Option (List TiffEntry)).getD []

/-- The ImageWidth values among the entries. -/
def widths (es : List TiffEntry) : List Nat :=
  es.filterMap fun
    | .width v => some v
    | _ => none

/-- The ImageLength values among the entries. -/
def heights (es : List TiffEntry) : List Nat :=
  es.filterMap fun
    | .height v => some v
    | _ => none

/-- Both tags occur. -/
def bothTags (es : List TiffEntry) : Bool := widths es ≠ [] ∧ heights es ≠ []

/-- The shortest beginning of the entries in which both tags occur. -/
def decisive (es : List TiffEntry) : Option (List TiffEntry) := es.inits.find? bothTags

/-- The last value of each tag. -/
def lastDims (es : List TiffEntry) : Dims := ((widths es).getLastD 0, (heights es).getLastD 0)

section

variable (es : List TiffEntry) (v : Nat)

/-- The widths of two lists of entries. -/
@[simp] theorem widths_append (fs : List TiffEntry) : widths (es ++ fs) = widths es ++ widths fs :=
  List.filterMap_append

/-- The heights of two lists of entries. -/
@[simp] theorem heights_append (fs : List TiffEntry) : heights (es ++ fs) = heights es ++ heights fs :=
  List.filterMap_append

@[simp] theorem widths_width : widths [.width v] = [v] := rfl

@[simp] theorem widths_height : widths [.height v] = [] := rfl

@[simp] theorem widths_other : widths [.other] = [] := rfl

@[simp] theorem heights_width : heights [.width v] = [] := rfl

@[simp] theorem heights_height : heights [.height v] = [v] := rfl

@[simp] theorem heights_other : heights [.other] = [] := rfl

end

/-! ## The scan -/

/-- What the scan returns when it has already met some entries, not both tags among them. -/
def decisiveFrom (met es : List TiffEntry) : Option Dims :=
  ((es.inits.map (met ++ ·)).find? bothTags).map lastDims

/-- No entry decides before both tags were met. -/
theorem decisiveFrom_nil {met : List TiffEntry} (h : bothTags met = false) :
    decisiveFrom met [] = none := by
  simp [decisiveFrom, h]

/-- One more entry. -/
theorem decisiveFrom_cons {met : List TiffEntry} (h : bothTags met = false) (e : TiffEntry)
    (es : List TiffEntry) :
    decisiveFrom met (e :: es) =
      if bothTags (met ++ [e]) then some (lastDims (met ++ [e])) else decisiveFrom (met ++ [e]) es := by
  have hshift : (List.map (met ++ ·) (es.inits.map (e :: ·))) = es.inits.map ((met ++ [e]) ++ ·) := by
    rw [List.map_map]
    refine List.map_congr_left fun q _ => ?_
    simp
  have hfirst : ∃ qs, es.inits = [] :: qs := by
    cases es with
    | nil => exact ⟨[], rfl⟩
    | cons x xs => exact ⟨_, List.inits_cons x xs⟩
  have hskip : decisiveFrom met (e :: es) = decisiveFrom (met ++ [e]) es := by
    unfold decisiveFrom
    rw [List.inits_cons, List.map_cons, List.append_nil, List.find?_cons_of_neg (by simp [h]), hshift]
  rw [hskip]
  split
  · rename_i hboth
    obtain ⟨qs, hqs⟩ := hfirst
    unfold decisiveFrom
    rw [hqs, List.map_cons, List.append_nil, List.find?_cons_of_pos hboth]
    rfl
  · rfl

/-- The scan returns the last values at the first entry with both tags behind it. -/
theorem tiffScan_eq (b : Bytes) (bo : ByteOrder) (entriesStart n i : Nat) (met : List TiffEntry)
    (hmet : bothTags met = false) (d : Dims) :
    tiffScan b bo entriesStart n i (widths met).getLast? (heights met).getLast? = some (some d) ↔
      decisiveFrom met (entriesFrom b bo entriesStart n i) = some d := by
  induction n generalizing i met with
  | zero =>
    unfold tiffScan entriesFrom
    rw [decisiveFrom_nil hmet]
    simp
  | succ n ih =>
    unfold tiffScan entriesFrom
    dsimp only
    split
    · rw [decisiveFrom_nil hmet]
      simp
    cases he : tiffEntry b bo ((entriesStart + i * 12) % 2 ^ 32) with
    | none =>
      rw [decisiveFrom_nil hmet]
      simp
    | some e =>
      dsimp only
      rw [decisiveFrom_cons hmet]
      cases e with
      | other =>
        have hmet' : bothTags (met ++ [.other]) = false := by simpa [bothTags] using hmet
        have hih := ih (i + 1) (met ++ [.other]) hmet'
        rw [if_neg (by simp [hmet']), ← hih]
        simp
      | width v =>
        cases hh : (heights met).getLast? with
        | some h =>
          have hne : heights met ≠ [] := by
            rintro hnil
            rw [hnil] at hh
            exact absurd hh (by simp)
          have hboth : bothTags (met ++ [.width v]) = true := by simp [bothTags, hne]
          have hdims : lastDims (met ++ [.width v]) = (v, h) := by
            simp [lastDims, List.getLastD_eq_getLast?, hh]
          rw [if_pos hboth, hdims]
          simp
        | none =>
          have hnil : heights met = [] := List.getLast?_eq_none_iff.mp hh
          have hmet' : bothTags (met ++ [.width v]) = false := by simp [bothTags, hnil]
          have hih := ih (i + 1) (met ++ [.width v]) hmet'
          rw [if_neg (by simp [hmet']), ← hih]
          simp [hnil]
      | height v =>
        cases hw : (widths met).getLast? with
        | some w =>
          have hne : widths met ≠ [] := by
            rintro hnil
            rw [hnil] at hw
            exact absurd hw (by simp)
          have hboth : bothTags (met ++ [.height v]) = true := by simp [bothTags, hne]
          have hdims : lastDims (met ++ [.height v]) = (w, v) := by
            simp [lastDims, List.getLastD_eq_getLast?, hw]
          rw [if_pos hboth, hdims]
          simp
        | none =>
          have hnil : widths met = [] := List.getLast?_eq_none_iff.mp hw
          have hmet' : bothTags (met ++ [.height v]) = false := by simp [bothTags, hnil]
          have hih := ih (i + 1) (met ++ [.height v]) hmet'
          rw [if_neg (by simp [hmet']), ← hih]
          simp [hnil]

/-- The dimensions come from the shortest beginning of the IFD in which both tags occur. -/
theorem tiffDimensions_eq (b : Bytes) (d : Dims) :
    tiffDimensions b = some (some d) ↔ (decisive (tiffEntries b)).map lastDims = some d := by
  have hnil : (decisive []).map lastDims = none := rfl
  have hscan (bo : ByteOrder) (entriesStart count : Nat) :
      tiffScan b bo entriesStart count 0 none none = some (some d) ↔
        (decisive (entriesFrom b bo entriesStart count 0)).map lastDims = some d := by
    have h := tiffScan_eq b bo entriesStart count 0 [] rfl d
    have hfrom : decisiveFrom [] (entriesFrom b bo entriesStart count 0) =
        (decisive (entriesFrom b bo entriesStart count 0)).map lastDims := by
      simp [decisiveFrom, decisive]
    rw [hfrom] at h
    exact h
  unfold tiffDimensions tiffEntries
  split
  · rename_i hlen
    have hslice : b.slice 4 8 = none := if_neg (by omega)
    rw [hslice]
    cases tiffOrder b with
    | none => simp [hnil]
    | some bo => simp [hnil]
  cases tiffOrder b with
  | none => simp [hnil]
  | some bo =>
    cases hifd : b.slice 4 8 with
    | none => simp [hnil]
    | some s =>
      simp only [Option.map_some, Option.bind_eq_bind, Option.bind_some]
      split
      · rename_i hlen
        have hslice : b.slice (bo.uint s) ((bo.uint s + 2) % 2 ^ 32) = none := by
          refine if_neg ?_
          rintro ⟨hle, hin⟩
          have hmod := Nat.mod_le (bo.uint s + 2) (2 ^ 32)
          omega
        rw [hslice, Option.map_none, Option.bind_none, Option.getD_none, hnil]
        simp
      · cases hcount : b.slice (bo.uint s) ((bo.uint s + 2) % 2 ^ 32) with
        | none => simp [hnil]
        | some c =>
          simp only [Option.map_some, Option.bind_some, Option.getD_some]
          exact hscan _ _ _

/-! ## Every reading of the IFD -/

/-- No reading of the IFD is larger than what is returned. -/
def TiffCovered (b : Bytes) : Prop :=
  ∀ w h, tiffDimensions b = some (some (w, h)) →
    ∀ w' ∈ widths (tiffEntries b), ∀ h' ∈ heights (tiffEntries b), w' * h' ≤ w * h

/-- Where the scan has seen both tags for the first time, the last value of each is the largest of the
whole IFD; or one of the tags has no value but 0. -/
def LargestLast (es : List TiffEntry) : Prop :=
  ∀ p, decisive es = some p →
    ((∀ w ∈ widths es, w ≤ (widths p).getLastD 0) ∧ ∀ h ∈ heights es, h ≤ (heights p).getLastD 0) ∨
      (∀ w ∈ widths es, w = 0) ∨ ∀ h ∈ heights es, h = 0

/-- The last of some values is one of them. -/
theorem getLastD_mem {α : Type} {xs : List α} (h : xs ≠ []) (a : α) : xs.getLastD a ∈ xs := by
  rw [List.getLastD_eq_getLast?, List.getLast?_eq_some_getLast h]
  exact List.getLast_mem h

/-- The values that decide stand in the IFD. -/
theorem lastDims_mem {es p : List TiffEntry} (h : decisive es = some p) :
    (widths p).getLastD 0 ∈ widths es ∧ (heights p).getLastD 0 ∈ heights es := by
  have hboth := List.find?_some h
  simp only [bothTags, decide_eq_true_eq] at hboth
  obtain ⟨q, rfl⟩ := (List.mem_inits _ _).mp (List.mem_of_find?_eq_some h)
  rw [widths_append, heights_append]
  exact ⟨List.mem_append_left _ (getLastD_mem hboth.1 0),
    List.mem_append_left _ (getLastD_mem hboth.2 0)⟩

/-- A value that no product exceeds is the largest, unless the other factor is 0. -/
theorem le_of_mul_le {a b c : Nat} (h : a * c ≤ b * c) (hc : c ≠ 0) : a ≤ b :=
  Nat.le_of_mul_le_mul_right h (by omega)

/-- The returned dimensions bound every reading of the IFD exactly if the largest values stand last
where the scan has seen both tags, or one of the tags is always 0.

Source: `dimensions.go` tiffDimensions -/
theorem tiffDimensions_covers_iff (b : Bytes) : TiffCovered b ↔ LargestLast (tiffEntries b) := by
  have heq := tiffDimensions_eq b
  unfold TiffCovered LargestLast
  generalize tiffEntries b = es at *
  constructor
  · intro hcovered p hp
    have hread : tiffDimensions b = some (some (lastDims p)) := (heq _).mpr (by rw [hp]; rfl)
    have hle := hcovered _ _ hread
    obtain ⟨hw, hh⟩ := lastDims_mem hp
    change (∀ w' ∈ widths es, ∀ h' ∈ heights es,
      w' * h' ≤ (widths p).getLastD 0 * (heights p).getLastD 0) at hle
    generalize (widths p).getLastD 0 = w at *
    generalize (heights p).getLastD 0 = h at *
    by_cases hzero : (∀ w ∈ widths es, w = 0) ∨ ∀ h ∈ heights es, h = 0
    · exact .inr hzero
    · -- some reading has a positive area, so the returned one has
      push Not at hzero
      obtain ⟨⟨w', hw', hw'0⟩, h', hh', hh'0⟩ := hzero
      have hpos : 0 < w * h :=
        Nat.lt_of_lt_of_le (Nat.mul_pos (by omega) (by omega)) (hle w' hw' h' hh')
      have hw0 : w ≠ 0 := by
        rintro rfl
        omega
      have hh0 : h ≠ 0 := by
        rintro rfl
        omega
      left
      constructor
      · intro x hx
        exact le_of_mul_le (hle x hx h hh) hh0
      · intro y hy
        have hmul := hle w hw y hy
        rw [Nat.mul_comm w y, Nat.mul_comm w h] at hmul
        exact le_of_mul_le hmul hw0
  · intro hlast w h hread w' hw' h' hh'
    obtain ⟨p, hp, hdims⟩ := Option.map_eq_some_iff.mp ((heq _).mp hread)
    simp only [lastDims, Prod.mk.injEq] at hdims
    obtain ⟨rfl, rfl⟩ := hdims
    rcases hlast p hp with ⟨hlw, hlh⟩ | hzero | hzero
    · exact Nat.mul_le_mul (hlw w' hw') (hlh h' hh')
    · rw [hzero w' hw', Nat.zero_mul]
      exact Nat.zero_le _
    · rw [hzero h' hh', Nat.mul_zero]
      exact Nat.zero_le _

/-- A little-endian TIFF with the entries 1, 1 and then a second width of 60000: 1 × 1 is returned. -/
theorem tiffDimensions_hides : ¬ ∀ b, TiffCovered b := by
  intro h
  have hread := h
    ([0x49, 0x49, 42, 0, 8, 0, 0, 0, 3, 0] ++
      [0, 1, 3, 0, 1, 0, 0, 0, 1, 0, 0, 0] ++
      [1, 1, 3, 0, 1, 0, 0, 0, 1, 0, 0, 0] ++
      [0, 1, 3, 0, 1, 0, 0, 0, 0x60, 0xEA, 0, 0]) 1 1 (by decide) 60000 (by decide) 1 (by decide)
  exact absurd hread (by decide)

end OctoConv
