import OctoConv.Lib.Bytes
import Mathlib.Algebra.BigOperators.Group.List.Basic
import Mathlib.Data.UInt
import Mathlib.Data.List.Perm.Basic

/-!
# The container check of office documents

An office document is a ZIP archive. One pass over its central directory finds the format, the declared
uncompressed size and the macro parts; the upload handler turns the result into a verdict. What
`archive/zip` reports of an entry is a parameter.

Source: `internal/convert/docsniff.go`, `internal/api/handlers.go` handleCreateJob.

## Main results

* `sniffContainer_eq` — the result of the pass in terms of the list of entries.
* `zipVerdict_bounded_iff` — the size guard holds exactly if the sum does not wrap around below the
  limit, or the archive is refused anyway.
* `zipVerdict_orderFree_iff` — the verdict depends on the order of the entries exactly if they
  declare two formats and nothing else is wrong.
-/

namespace OctoConv

open Conc

/-! ## The pass -/

/-- An entry of the central directory, as `archive/zip` reports it.

Source: `archive/zip` File -/
structure ZipFile where
  name : Bytes
  method : Nat
  uncompressedSize64 : UInt64
  /-- The content read up to a number of bytes; none: it cannot be read. -/
  content : Nat → Option Bytes

/-- Source: `archive/zip` Store -/
def zipStore : Nat := 0

/-- Source: `docsniff.go` ContainerResult -/
structure ContainerResult where
  format : String
  totalUncompressed : UInt64
  hasMacro : Bool
  duplicateRootPart : Bool
deriving DecidableEq

/-- Source: `docsniff.go` ooxmlRootParts -/
def ooxmlRootParts : List (Bytes × String) :=
  [(Bytes.ascii "word/document.xml", "docx"), (Bytes.ascii "xl/workbook.xml", "xlsx"),
    (Bytes.ascii "ppt/presentation.xml", "pptx")]

/-- Source: `docsniff.go` odfMimetypes -/
def odfMimetypes : List (Bytes × String) :=
  [(Bytes.ascii "application/vnd.oasis.opendocument.text", "odt"),
    (Bytes.ascii "application/vnd.oasis.opendocument.spreadsheet", "ods"),
    (Bytes.ascii "application/vnd.oasis.opendocument.presentation", "odp")]

/-- Source: `docsniff.go` ooxmlMacroParts -/
def ooxmlMacroParts : List Bytes :=
  [Bytes.ascii "word/vbaProject.bin", Bytes.ascii "xl/vbaProject.bin", Bytes.ascii "ppt/vbaProject.bin"]

/-- Source: `docsniff.go` hasBasicPrefix -/
def hasBasicPrefix (name : Bytes) : Bool := 6 ≤ name.length && name.take 6 = Bytes.ascii "Basic/"

/-- Source: `docsniff.go` readBounded -/
def readBounded (f : ZipFile) (max : Nat) : Option Bytes := f.content max

/-- `m[name]++` for a map of counters. -/
def increment (name : Bytes) (counts : List (Bytes × Nat)) : List (Bytes × Nat) :=
  if ∃ x ∈ counts, x.1 = name then counts.map fun x => if x.1 = name then (x.1, x.2 + 1) else x
  else counts ++ [(name, 1)]

/-- The variables of the pass. -/
structure SniffPass where
  format : String
  totalUncompressed : UInt64
  hasMacro : Bool
  nameCount : List (Bytes × Nat)

/-- The macro check of one entry. -/
def sniffMacroPart (f : ZipFile) (s : SniffPass) : SniffPass :=
  if f.name ∈ ooxmlMacroParts ∨ hasBasicPrefix f.name = true then
    { s with hasMacro := true, nameCount := increment f.name s.nameCount }
  else s

/-- The root part check of one entry. -/
def sniffRootPart (f : ZipFile) (s : SniffPass) : SniffPass :=
  match ooxmlRootParts.lookup f.name with
  | some fmtName => { s with format := fmtName, nameCount := increment f.name s.nameCount }
  | none => s

/-- The media type check, for the first entry only. -/
def sniffMimetype (i : Nat) (f : ZipFile) (s : SniffPass) : SniffPass :=
  if i = 0 ∧ f.name = Bytes.ascii "mimetype" ∧ f.method = zipStore then
    match readBounded f 128 with
    | some payload =>
      match odfMimetypes.lookup payload with
      | some odfFmt => { s with format := odfFmt }
      | none => s
    | none => s
  else s

/-- The pass over the entry with number `i`.

Source: `docsniff.go` SniffContainer -/
def sniffEntry (i : Nat) (f : ZipFile) (s : SniffPass) : SniffPass :=
  sniffMimetype i f <| sniffRootPart f <| sniffMacroPart f
    { s with totalUncompressed := s.totalUncompressed + f.uncompressedSize64 }

/-- The pass over the entries from number `i` on. -/
def sniffFrom : Nat → List ZipFile → SniffPass → SniffPass
  | _, [], s => s
  | i, f :: files, s => sniffFrom (i + 1) files (sniffEntry i f s)

/-- The result for what `zip.NewReader` returns; none is ErrNotAZip.

Source: `docsniff.go` SniffContainer -/
def sniffContainer (zr : Option (List ZipFile)) : Option ContainerResult :=
  zr.map fun files =>
    let s := sniffFrom 0 files ⟨"", 0, false, []⟩
    { format := s.format
      totalUncompressed := s.totalUncompressed
      hasMacro := s.hasMacro
      duplicateRootPart := s.nameCount.any fun c => 1 < c.2 }

/-- What the upload handler makes of the result. -/
inductive ZipVerdict
  /-- The detected format. -/
  | accepted (format : String)
  | zipBomb
  | macros
  | unrecognised
deriving DecidableEq

/-- Source: `handlers.go` handleCreateJob -/
def zipVerdict (maxDocumentUncompressedBytes : UInt64) (cr : Option ContainerResult) : ZipVerdict :=
  match cr with
  | none => .unrecognised
  | some cr =>
    if cr.format ≠ "" ∧ cr.duplicateRootPart = false then
      if maxDocumentUncompressedBytes < cr.totalUncompressed then .zipBomb
      else if cr.hasMacro then .macros
      else .accepted cr.format
    else .unrecognised

/-! ## What the entries say -/

/-- The entry is a macro part. -/
def isMacroPart (f : ZipFile) : Prop := f.name ∈ ooxmlMacroParts ∨ hasBasicPrefix f.name = true

instance (f : ZipFile) : Decidable (isMacroPart f) := inferInstanceAs (Decidable (_ ∨ _))

/-- The format whose root part the entry is. -/
def rootFormat (f : ZipFile) : Option String := ooxmlRootParts.lookup f.name

/-- The format that the entry declares if it is the first one with an ODF media type. -/
def odfFormat (f : ZipFile) : Option String :=
  if f.name = Bytes.ascii "mimetype" ∧ f.method = zipStore then
    (readBounded f 128).bind fun payload => odfMimetypes.lookup payload
  else none

/-- The formats that an archive declares, in the order of the entries. -/
def declaredFormats : List ZipFile → List String
  | [] => []
  | f :: files => ((rootFormat f).or (odfFormat f)).toList ++ files.filterMap rootFormat

/-- The entry's name is counted. -/
def isCounted (f : ZipFile) : Prop := isMacroPart f ∨ rootFormat f ≠ none

instance (f : ZipFile) : Decidable (isCounted f) := inferInstanceAs (Decidable (_ ∨ _))

/-- The names that are counted, once for each entry. -/
def countedNames (files : List ZipFile) : List Bytes := (files.filter (isCounted ·)).map (·.name)

/-- The true sum of the declared sizes. -/
def declaredSize (files : List ZipFile) : Nat := (files.map (·.uncompressedSize64.toNat)).sum

/-- The archive has root parts, or a media type and a root part, of two formats. -/
def Ambiguous (files : List ZipFile) : Prop :=
  ∃ a ∈ declaredFormats files, ∃ b ∈ declaredFormats files, a ≠ b

/-- Some root or macro part occurs twice. -/
def HasTwins (files : List ZipFile) : Prop :=
  ∃ name ∈ countedNames files, 1 < (countedNames files).count name

instance (files : List ZipFile) : Decidable (HasTwins files) :=
  inferInstanceAs (Decidable (∃ name ∈ _, _))

/-- Some entry is a macro part. -/
def HasMacros (files : List ZipFile) : Prop := ∃ f ∈ files, isMacroPart f

instance (files : List ZipFile) : Decidable (HasMacros files) :=
  inferInstanceAs (Decidable (∃ f ∈ _, _))

/-! ## One entry -/

/-- What was looked up is in the table. -/
theorem mem_of_lookup {m : List (Bytes × String)} {name : Bytes} {fmt : String}
    (h : m.lookup name = some fmt) : (name, fmt) ∈ m := by
  obtain ⟨l₁, l₂, hsplit, -⟩ := List.lookup_eq_some_iff.mp h
  rw [hsplit]
  exact List.mem_append_right _ List.mem_cons_self

/-- A root part is no macro part and no media type. -/
theorem rootPart_exclusive {f : ZipFile} {fmt : String} (h : rootFormat f = some fmt) :
    ¬ isMacroPart f ∧ f.name ≠ Bytes.ascii "mimetype" ∧ fmt ≠ "" := by
  have hall : ∀ x ∈ ooxmlRootParts, ¬ (x.1 ∈ ooxmlMacroParts ∨ hasBasicPrefix x.1 = true) ∧
      x.1 ≠ Bytes.ascii "mimetype" ∧ x.2 ≠ "" := by decide
  exact hall _ (mem_of_lookup h)

/-- A format of OpenDocument has a name. -/
theorem odfFormat_ne_empty {f : ZipFile} {fmt : String} (h : odfFormat f = some fmt) : fmt ≠ "" := by
  have hall : ∀ x ∈ odfMimetypes, x.2 ≠ "" := by decide
  unfold odfFormat at h
  split at h
  · obtain ⟨payload, -, hlookup⟩ := Option.bind_eq_some_iff.mp h
    exact hall _ (mem_of_lookup hlookup)
  · exact absurd h (by simp)

/-- The pass over the `mimetype` entry. -/
theorem sniffMimetype_eq (i : Nat) (f : ZipFile) (s : SniffPass) :
    sniffMimetype i f s = { s with format := (if i = 0 then odfFormat f else none).getD s.format } := by
  unfold sniffMimetype odfFormat
  by_cases hi : i = 0
  · by_cases hf : f.name = Bytes.ascii "mimetype" ∧ f.method = zipStore
    · rw [if_pos ⟨hi, hf⟩, if_pos hi, if_pos hf]
      cases readBounded f 128 with
      | none => rfl
      | some payload =>
        rw [Option.bind_some]
        dsimp only
        cases odfMimetypes.lookup payload with
        | none => rfl
        | some fmt => rfl
    · rw [if_neg (fun h => hf h.2), if_pos hi, if_neg hf]
      rfl
  · rw [if_neg (fun h => hi h.1), if_neg hi]
    rfl

/-- What one entry adds. -/
theorem sniffEntry_eq (i : Nat) (f : ZipFile) (s : SniffPass) :
    sniffEntry i f s =
      { format := ((rootFormat f).or (if i = 0 then odfFormat f else none)).getD s.format
        totalUncompressed := s.totalUncompressed + f.uncompressedSize64
        hasMacro := s.hasMacro || decide (isMacroPart f)
        nameCount := if isCounted f then increment f.name s.nameCount else s.nameCount } := by
  unfold sniffEntry
  rw [sniffMimetype_eq]
  unfold sniffRootPart sniffMacroPart
  cases hroot : rootFormat f with
  | some fmt =>
    obtain ⟨hmacroPart, hmime, -⟩ := rootPart_exclusive hroot
    have hodf : odfFormat f = none := if_neg (fun h => hmime h.1)
    have hlookup : ooxmlRootParts.lookup f.name = some fmt := hroot
    have hcounted : isCounted f := .inr (by simp [hroot])
    have hmacroPart' : ¬ (f.name ∈ ooxmlMacroParts ∨ hasBasicPrefix f.name = true) := hmacroPart
    rw [hlookup, if_neg hmacroPart', if_pos hcounted, hodf]
    simp [hmacroPart]
  | none =>
    have hlookup : ooxmlRootParts.lookup f.name = none := hroot
    rw [hlookup]
    by_cases hmacroPart : isMacroPart f
    · have hmacroPart' : f.name ∈ ooxmlMacroParts ∨ hasBasicPrefix f.name = true := hmacroPart
      have hcounted : isCounted f := .inl hmacroPart
      rw [if_pos hmacroPart', if_pos hcounted]
      simp [hmacroPart]
    · have hmacroPart' : ¬ (f.name ∈ ooxmlMacroParts ∨ hasBasicPrefix f.name = true) := hmacroPart
      have hcounted : ¬ isCounted f := by
        rintro (h | h)
        · exact hmacroPart h
        · exact h hroot
      rw [if_neg hmacroPart', if_neg hcounted]
      simp [hmacroPart]

/-! ## The whole pass -/

/-- The counters after these names. -/
def tally (names : List Bytes) : List (Bytes × Nat) :=
  names.foldl (fun counts name => increment name counts) []

/-- A counter holds how often its name was counted. -/
theorem mem_tally {names : List Bytes} {name : Bytes} {c : Nat} :
    (name, c) ∈ tally names ↔ name ∈ names ∧ c = names.count name := by
  induction names using List.reverseRecOn generalizing name c with
  | nil => simp [tally]
  | append_singleton names x ih =>
    have hkey : (∃ y ∈ tally names, y.1 = x) ↔ x ∈ names := by
      constructor
      · rintro ⟨⟨n, k⟩, hmem, rfl⟩
        exact (ih.mp hmem).1
      · intro hx
        exact ⟨(x, names.count x), ih.mpr ⟨hx, rfl⟩, rfl⟩
    have hstep : tally (names ++ [x]) = increment x (tally names) := by
      unfold tally
      rw [List.foldl_append]
      rfl
    rw [hstep, increment, List.count_append, List.mem_append, List.mem_singleton]
    by_cases hx : x ∈ names
    · rw [if_pos (hkey.mpr hx), List.mem_map]
      constructor
      · rintro ⟨⟨n, k⟩, hmem, heq⟩
        obtain ⟨hn, rfl⟩ := ih.mp hmem
        by_cases hnx : n = x
        · simp only [hnx, if_true, Prod.mk.injEq] at heq
          obtain ⟨rfl, rfl⟩ := heq
          exact ⟨.inl hx, by simp⟩
        · simp only [hnx, if_false, Prod.mk.injEq] at heq
          obtain ⟨rfl, rfl⟩ := heq
          exact ⟨.inl hn, by simp [Ne.symm hnx]⟩
      · rintro ⟨hmem, rfl⟩
        have hname : name ∈ names := by
          rcases hmem with h | rfl
          · exact h
          · exact hx
        refine ⟨(name, names.count name), ih.mpr ⟨hname, rfl⟩, ?_⟩
        by_cases hnx : name = x
        · simp [hnx]
        · simp [hnx, Ne.symm hnx]
    · rw [if_neg (fun h => hx (hkey.mp h)), List.mem_append, List.mem_singleton, ih, Prod.mk.injEq]
      constructor
      · rintro (⟨hn, rfl⟩ | ⟨rfl, rfl⟩)
        · have hne : x ≠ name := by
            rintro rfl
            exact hx hn
          exact ⟨.inl hn, by simp [hne]⟩
        · refine ⟨.inr rfl, ?_⟩
          rw [List.count_eq_zero_of_not_mem hx]
          simp
      · rintro ⟨hn | rfl, rfl⟩
        · have hne : x ≠ name := by
            rintro rfl
            exact hx hn
          exact .inl ⟨hn, by simp [hne]⟩
        · right
          rw [List.count_eq_zero_of_not_mem hx]
          simp

/-- The pass over the entries behind the first one. -/
theorem sniffFrom_eq (i : Nat) (files : List ZipFile) (s : SniffPass) :
    sniffFrom (i + 1) files s =
      { format := (files.filterMap rootFormat).getLastD s.format
        totalUncompressed := s.totalUncompressed + (files.map ZipFile.uncompressedSize64).sum
        hasMacro := s.hasMacro || files.any (isMacroPart ·)
        nameCount := (countedNames files).foldl (fun counts name => increment name counts)
          s.nameCount } := by
  induction files generalizing i s with
  | nil => simp [sniffFrom, countedNames]
  | cons f files ih =>
    rw [sniffFrom, ih, sniffEntry_eq]
    have hformat : (List.filterMap rootFormat files).getLastD
        (((rootFormat f).or (if i + 1 = 0 then odfFormat f else none)).getD s.format) =
        (List.filterMap rootFormat (f :: files)).getLastD s.format := by
      rw [if_neg (Nat.succ_ne_zero i), Option.or_none, List.filterMap_cons]
      cases rootFormat f with
      | none => rfl
      | some fmt => rw [List.getLastD_cons, Option.getD_some]
    have hnames : countedNames (f :: files) =
        if isCounted f then f.name :: countedNames files else countedNames files := by
      unfold countedNames
      rw [List.filter_cons]
      split
      · rename_i h
        rw [if_pos (by simpa using h)]
        rfl
      · rename_i h
        rw [if_neg (by simpa using h)]
    rw [hformat, hnames]
    congr 1
    · rw [List.map_cons, List.sum_cons, UInt64.add_assoc]
    · rw [List.any_cons, Bool.or_assoc]
    · dsimp only
      by_cases hcounted : isCounted f
      · rw [if_pos hcounted, if_pos hcounted]
        rfl
      · rw [if_neg hcounted, if_neg hcounted]

/-- The result of the pass. -/
theorem sniffContainer_eq (files : List ZipFile) :
    sniffContainer (some files) = some
      { format := (declaredFormats files).getLastD ""
        totalUncompressed := (files.map ZipFile.uncompressedSize64).sum
        hasMacro := files.any (isMacroPart ·)
        duplicateRootPart := (tally (countedNames files)).any fun c => 1 < c.2 } := by
  cases files with
  | nil => rfl
  | cons f files =>
    unfold sniffContainer
    rw [Option.map_some, sniffFrom, sniffFrom_eq, sniffEntry_eq]
    have hformat : (List.filterMap rootFormat files).getLastD
        (((rootFormat f).or (if 0 = 0 then odfFormat f else none)).getD "") =
        (declaredFormats (f :: files)).getLastD "" := by
      rw [if_pos rfl, declaredFormats]
      cases (rootFormat f).or (odfFormat f) with
      | none => rfl
      | some fmt => rw [Option.getD_some, Option.toList_some, List.singleton_append, List.getLastD_cons]
    have hnames : (countedNames files).foldl (fun counts name => increment name counts)
        (if isCounted f then increment f.name [] else []) = tally (countedNames (f :: files)) := by
      unfold tally countedNames
      by_cases hcounted : isCounted f
      · rw [if_pos hcounted, List.filter_cons_of_pos (by simpa using hcounted)]
        rfl
      · rw [if_neg hcounted, List.filter_cons_of_neg (by simpa using hcounted)]
    dsimp only
    rw [hformat, hnames, List.map_cons, List.sum_cons, List.any_cons, UInt64.zero_add, Bool.false_or]

/-! ## The verdict -/

/-- A declared format has a name. -/
theorem declaredFormats_ne_empty {files : List ZipFile} {fmt : String}
    (h : fmt ∈ declaredFormats files) : fmt ≠ "" := by
  cases files with
  | nil => exact absurd h List.not_mem_nil
  | cons f files =>
    unfold declaredFormats at h
    rcases List.mem_append.mp h with hfirst | hrest
    · rw [Option.mem_toList] at hfirst
      rcases Option.or_eq_some_iff.mp hfirst with hroot | ⟨-, hodf⟩
      · exact (rootPart_exclusive hroot).2.2
      · exact odfFormat_ne_empty hodf
    · obtain ⟨g, -, hroot⟩ := List.mem_filterMap.mp hrest
      exact (rootPart_exclusive hroot).2.2

/-- Nothing was declared exactly if the last declaration is none. -/
theorem getLastD_eq_empty_iff (files : List ZipFile) :
    (declaredFormats files).getLastD "" = "" ↔ declaredFormats files = [] := by
  constructor
  · intro h
    by_contra hne
    rw [List.getLastD_eq_getLast?, List.getLast?_eq_some_getLast hne, Option.getD_some] at h
    exact declaredFormats_ne_empty (List.getLast_mem hne) h
  · intro h
    rw [h]
    rfl

/-- A name was counted twice exactly if it has a twin. -/
theorem any_tally_iff (files : List ZipFile) :
    ((tally (countedNames files)).any fun c => 1 < c.2) = true ↔ HasTwins files := by
  rw [List.any_eq_true]
  constructor
  · rintro ⟨⟨name, c⟩, hmem, hc⟩
    obtain ⟨hname, rfl⟩ := mem_tally.mp hmem
    exact ⟨name, hname, by simpa using hc⟩
  · rintro ⟨name, hname, hc⟩
    exact ⟨(name, _), mem_tally.mpr ⟨hname, rfl⟩, by simpa using hc⟩

/-- The sum that the pass computes wraps around. -/
theorem toNat_sum (files : List ZipFile) :
    (files.map ZipFile.uncompressedSize64).sum.toNat = declaredSize files % 2 ^ 64 := by
  unfold declaredSize
  induction files with
  | nil => rfl
  | cons f files ih =>
    rw [List.map_cons, List.sum_cons, UInt64.toNat_add, ih, List.map_cons, List.sum_cons]
    omega

/-- The verdict in terms of the entries. -/
theorem zipVerdict_eq (max : UInt64) (files : List ZipFile) :
    zipVerdict max (sniffContainer (some files)) =
      if declaredFormats files = [] ∨ HasTwins files then .unrecognised
      else if max.toNat < declaredSize files % 2 ^ 64 then .zipBomb
      else if HasMacros files then .macros
      else .accepted ((declaredFormats files).getLastD "") := by
  rw [sniffContainer_eq]
  unfold zipVerdict
  dsimp only
  have hformat := getLastD_eq_empty_iff files
  have htwins := any_tally_iff files
  have hmacroPart : (files.any (isMacroPart ·)) = true ↔ HasMacros files := by
    simp [HasMacros]
  have hsum : (max < (files.map ZipFile.uncompressedSize64).sum) ↔
      max.toNat < declaredSize files % 2 ^ 64 := by
    rw [← toNat_sum]
    exact UInt64.lt_iff_toNat_lt
  by_cases hrefused : declaredFormats files = [] ∨ HasTwins files
  · rw [if_pos hrefused, if_neg]
    rintro ⟨hne, hfalse⟩
    rcases hrefused with hnil | htwin
    · exact hne (hformat.mpr hnil)
    · rw [htwins.mpr htwin] at hfalse
      exact absurd hfalse (by decide)
  · rw [if_neg hrefused, if_pos]
    · simp only [hsum, hmacroPart]
    · refine ⟨fun h => hrefused (.inl (hformat.mp h)), ?_⟩
      rw [Bool.eq_false_iff]
      exact fun h => hrefused (.inr (htwins.mp h))

/-- Which archives are accepted. -/
theorem zipVerdict_accepted_iff (max : UInt64) (files : List ZipFile) :
    (∃ fmt, zipVerdict max (sniffContainer (some files)) = .accepted fmt) ↔
      declaredFormats files ≠ [] ∧ ¬ HasTwins files ∧ declaredSize files % 2 ^ 64 ≤ max.toNat ∧
        ¬ HasMacros files := by
  rw [zipVerdict_eq]
  constructor
  · rintro ⟨fmt, h⟩
    split at h
    · exact absurd h (by simp)
    rename_i hrefused
    split at h
    · exact absurd h (by simp)
    rename_i hsize
    split at h
    · exact absurd h (by simp)
    rename_i hmacroPart
    exact ⟨fun hnil => hrefused (.inl hnil), fun htwins => hrefused (.inr htwins), by omega, hmacroPart⟩
  · rintro ⟨hne, htwins, hsize, hmacroPart⟩
    refine ⟨(declaredFormats files).getLastD "", ?_⟩
    rw [if_neg (by rintro (h | h); exact hne h; exact htwins h), if_neg (by omega), if_neg hmacroPart]

/-! ## The size guard -/

/-- An archive whose declared sizes exceed the limit is not accepted. -/
def SizeGuarded (max : UInt64) (files : List ZipFile) : Prop :=
  max.toNat < declaredSize files → ∀ fmt, zipVerdict max (sniffContainer (some files)) ≠ .accepted fmt

/-- The size guard holds exactly if the declared sizes do not exceed the limit, or their sum does
not wrap around to within it, or the archive is refused for another reason: it declares no format, a
root or macro part occurs twice, or it has a macro part.

Source: `docsniff.go` SniffContainer, `handlers.go` handleCreateJob -/
theorem zipVerdict_bounded_iff (max : UInt64) (files : List ZipFile) :
    SizeGuarded max files ↔
      declaredSize files ≤ max.toNat ∨ max.toNat < declaredSize files % 2 ^ 64 ∨
        declaredFormats files = [] ∨ HasTwins files ∨ HasMacros files := by
  have haccepted := zipVerdict_accepted_iff max files
  unfold SizeGuarded
  constructor
  · intro h
    by_contra hc
    push Not at hc
    obtain ⟨hexceeds, hwrapped, hne, htwins, hmacroPart⟩ := hc
    obtain ⟨fmt, hfmt⟩ := haccepted.mpr ⟨hne, htwins, hwrapped, hmacroPart⟩
    exact h hexceeds fmt hfmt
  · intro h hexceeds fmt hfmt
    obtain ⟨hne, htwins, hwrapped, hmacroPart⟩ := haccepted.mp ⟨fmt, hfmt⟩
    rcases h with h | h | h | h | h
    · omega
    · omega
    · exact hne h
    · exact htwins h
    · exact hmacroPart h

/-- An entry with a declared size and no content. -/
def bareEntry (name : String) (size : UInt64) : ZipFile where
  name := Bytes.ascii name
  method := 8
  uncompressedSize64 := size
  content := fun _ => none

/-- Two entries that declare 2⁶³ bytes each: the sum is 0, and the archive is accepted. -/
theorem zipVerdict_wraps : ¬ ∀ max files, SizeGuarded max files := by
  intro h
  have hnot := h 524288000
    [bareEntry "word/document.xml" 0x8000000000000000, bareEntry "padding" 0x8000000000000000]
    (by decide) "docx"
  exact hnot (by decide)

/-! ## The order of the entries -/

/-- The verdict does not depend on the order of the entries behind the first one, and an archive that
declares two formats is not accepted. -/
def OrderFree (max : UInt64) (files : List ZipFile) : Prop :=
  (∀ f tail tail', files = f :: tail → tail.Perm tail' →
    zipVerdict max (sniffContainer (some (f :: tail'))) =
      zipVerdict max (sniffContainer (some (f :: tail)))) ∧
  (Ambiguous files → ∀ fmt, zipVerdict max (sniffContainer (some files)) ≠ .accepted fmt)

/-- The declared formats do not depend on the order behind the first entry. -/
theorem declaredFormats_perm {f : ZipFile} {tail tail' : List ZipFile} (h : tail.Perm tail') :
    (declaredFormats (f :: tail)).Perm (declaredFormats (f :: tail')) :=
  (h.filterMap rootFormat).append_left _

/-- Neither do twins. -/
theorem hasTwins_perm {files files' : List ZipFile} (h : files.Perm files') :
    HasTwins files ↔ HasTwins files' := by
  have hnames : (countedNames files).Perm (countedNames files') := (h.filter _).map _
  unfold HasTwins
  constructor
  · rintro ⟨name, hmem, hcount⟩
    exact ⟨name, hnames.mem_iff.mp hmem, hnames.count_eq name ▸ hcount⟩
  · rintro ⟨name, hmem, hcount⟩
    exact ⟨name, hnames.mem_iff.mpr hmem, (hnames.count_eq name).symm ▸ hcount⟩

/-- Formats that are all the same have the same last one in every order. -/
theorem getLastD_perm {xs ys : List String} (h : xs.Perm ys)
    (hsame : ¬ ∃ a ∈ xs, ∃ b ∈ xs, a ≠ b) : xs.getLastD "" = ys.getLastD "" := by
  by_cases hnil : xs = []
  · subst hnil
    rw [h.nil_eq]
  · have hnil' : ys ≠ [] := by
      rintro rfl
      exact hnil h.eq_nil
    rw [List.getLastD_eq_getLast?, List.getLastD_eq_getLast?, List.getLast?_eq_some_getLast hnil,
      List.getLast?_eq_some_getLast hnil', Option.getD_some, Option.getD_some]
    by_contra hne
    exact hsame ⟨_, List.getLast_mem hnil, _, h.mem_iff.mpr (List.getLast_mem hnil'), hne⟩

/-- The verdict is free of the order exactly if the archive does not declare two formats, or is refused
anyway: a root or macro part occurs twice, the computed sum exceeds the limit, or there is a macro part.

Source: `docsniff.go` SniffContainer, `handlers.go` handleCreateJob -/
theorem zipVerdict_orderFree_iff (max : UInt64) (files : List ZipFile) :
    OrderFree max files ↔
      ¬ Ambiguous files ∨ HasTwins files ∨ max.toNat < declaredSize files % 2 ^ 64 ∨
        HasMacros files := by
  have haccepted := zipVerdict_accepted_iff max files
  constructor
  · rintro ⟨-, hambiguous⟩
    by_contra hc
    push Not at hc
    obtain ⟨htwo, htwins, hsize, hmacroPart⟩ := hc
    have hne : declaredFormats files ≠ [] := by
      obtain ⟨a, ha, -⟩ := htwo
      exact List.ne_nil_of_mem ha
    obtain ⟨fmt, hfmt⟩ := haccepted.mpr ⟨hne, htwins, hsize, hmacroPart⟩
    exact hambiguous htwo fmt hfmt
  · intro h
    constructor
    · rintro f tail tail' rfl hperm
      have hcons : (f :: tail).Perm (f :: tail') := hperm.cons f
      have hformats := declaredFormats_perm (f := f) hperm
      have hnil : declaredFormats (f :: tail') = [] ↔ declaredFormats (f :: tail) = [] := by
        constructor
        · intro hnil
          exact (hnil ▸ hformats).eq_nil
        · intro hnil
          exact (hnil ▸ hformats.symm).eq_nil
      have hsize : declaredSize (f :: tail') = declaredSize (f :: tail) := (hcons.symm.map _).sum_eq
      have hmacroPart : HasMacros (f :: tail') ↔ HasMacros (f :: tail) := by
        unfold HasMacros
        simp only [hcons.mem_iff]
      rw [zipVerdict_eq, zipVerdict_eq]
      simp only [hnil, (hasTwins_perm hcons).symm, hsize, hmacroPart]
      rcases h with hsame | htwins | hbomb | hmacros
      · rw [getLastD_perm hformats hsame]
      · simp only [htwins, or_true, if_true]
      · simp only [hbomb, if_true]
      · simp only [hmacros, if_true]
    · intro htwo fmt hfmt
      obtain ⟨-, htwins, hsize, hmacroPart⟩ := haccepted.mp ⟨fmt, hfmt⟩
      rcases h with h | h | h | h
      · exact h htwo
      · exact htwins h
      · omega
      · exact hmacroPart h

/-- An archive with the root parts of docx and xlsx: the last one decides. -/
theorem zipVerdict_lastWins : ¬ ∀ max files, OrderFree max files := by
  intro h
  have hnot := (h 524288000 [bareEntry "[Content_Types].xml" 0, bareEntry "word/document.xml" 0,
    bareEntry "xl/workbook.xml" 0]).1 _ _
    [bareEntry "xl/workbook.xml" 0, bareEntry "word/document.xml" 0] rfl (List.Perm.swap _ _ _)
  exact absurd hnot (by decide)

end OctoConv
