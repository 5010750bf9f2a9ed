import OctoConv.Lib.Unicode
import Mathlib.Data.List.DropRight

/-!
# Cleaning of strings

The string functions that a parser of short keys needs: trimming white space, removing one
occurrence of a prefix, and lower case. A string is a sequence of Unicode characters.

Main results:

* `trimSpace_eq_self` : a string with no white space at its ends is its own trim;
* `trimPrefix_suffix`, `getLast?_trimSpace` : what trimming leaves at the end of a string.
-/

namespace Strings

/-- A string without its leading and trailing white space. -/
def trimSpace (s : String) : String :=
  String.ofList ((s.toList.dropWhile Unicode.isSpace).rdropWhile Unicode.isSpace)

/-- A string without one occurrence of a prefix, or the string itself when it does not begin with
the prefix. -/
def trimPrefix (s pre : String) : String :=
  if pre.toList.isPrefixOf s.toList then String.ofList (s.toList.drop pre.toList.length) else s

/-- A string without one occurrence of a suffix, or the string itself when it does not end in the
suffix. -/
def trimSuffix (s suf : String) : String :=
  if suf.toList.isSuffixOf s.toList then
    String.ofList (s.toList.take (s.toList.length - suf.toList.length))
  else s

/-- A string without the leading characters that are in a set. -/
def trimLeft (s cutset : String) : String :=
  String.ofList (s.toList.dropWhile fun c => decide (c ∈ cutset.toList))

/-- A string without the trailing characters that are in a set. -/
def trimRight (s cutset : String) : String :=
  String.ofList (s.toList.rdropWhile fun c => decide (c ∈ cutset.toList))

/-- A string with every character in its simple lower case. -/
def toLower (s : String) : String := String.ofList (s.toList.map Unicode.toLower)

/-- The words of a string, between white space. -/
def fields (s : String) : List String :=
  ((s.toList.splitOnP Unicode.isSpace).filter (· ≠ [])).map String.ofList

/-- Two strings are equal up to the case of their letters. The simple fold leaves `İ` alone, which has
no lower case of its own length. -/
def equalFold (s t : String) : Bool :=
  let fold := fun c : Char => if c = '\u0130' then c else Unicode.toLower c
  s.toList.map fold = t.toList.map fold

/-- A string whose first and last characters are not white space. -/
def Tight (s : String) : Prop :=
  (∀ c ∈ s.toList.head?, Unicode.isSpace c = false) ∧
    ∀ c ∈ s.toList.getLast?, Unicode.isSpace c = false

/-- A text is put into lower case character by character. -/
@[simp] theorem toList_toLower (s : String) :
    (toLower s).toList = s.toList.map Unicode.toLower := by
  simp [toLower]

/-- A lower case is its own lower case. -/
@[simp] theorem toLower_toLower (s : String) : toLower (toLower s) = toLower s := by
  apply String.toList_inj.1
  simp

/-- A text without blanks around it is left as it is. -/
theorem trimSpace_eq_self {s : String} (h : Tight s) : trimSpace s = s := by
  apply String.toList_inj.1
  obtain ⟨hhead, hlast⟩ := h
  have hd : s.toList.dropWhile Unicode.isSpace = s.toList := by
    rw [List.dropWhile_eq_self_iff]
    intro hl
    have hc := hhead (s.toList.get ⟨0, hl⟩) (by simp [List.head?_eq_getElem?, hl])
    simpa using hc
  have hr : s.toList.rdropWhile Unicode.isSpace = s.toList := by
    rw [List.rdropWhile_eq_self_iff]
    intro hl
    have hc := hlast (s.toList.getLast hl) (by simp [List.getLast?_eq_getLast_of_ne_nil hl])
    simpa using hc
  simp only [trimSpace, String.toList_ofList, hd, hr]

/-- What trimming leaves does not end in white space. -/
theorem getLast?_trimSpace (s : String) :
    ∀ c ∈ (trimSpace s).toList.getLast?, Unicode.isSpace c = false := by
  intro c hc
  simp only [trimSpace, String.toList_ofList] at hc
  obtain ⟨hne, rfl⟩ := List.mem_getLast?_eq_getLast hc
  have hn := List.rdropWhile_last_not _ _ hne
  simpa using hn

/-- Trimming makes no text longer. -/
theorem length_trimSpace_le (s : String) : (trimSpace s).toList.length ≤ s.toList.length := by
  simp only [trimSpace, String.toList_ofList]
  have hr := (List.rdropWhile_prefix Unicode.isSpace
    (l := s.toList.dropWhile Unicode.isSpace)).length_le
  have hd := (List.dropWhile_suffix Unicode.isSpace (l := s.toList)).length_le
  omega

/-- A string that begins with white space gets shorter. -/
theorem length_trimSpace_lt {s : String} {c : Char} {l : List Char} (hs : s.toList = c :: l)
    (hc : Unicode.isSpace c) : (trimSpace s).toList.length < s.toList.length := by
  simp only [trimSpace, String.toList_ofList]
  have hr := (List.rdropWhile_prefix Unicode.isSpace
    (l := s.toList.dropWhile Unicode.isSpace)).length_le
  have hd := (List.dropWhile_suffix Unicode.isSpace (l := l)).length_le
  rw [hs, List.dropWhile_cons_of_pos hc] at hr ⊢
  rw [List.length_cons]
  omega

/-- Trimming keeps a first character that is not white space. -/
theorem head_trimSpace {s : String} {c : Char} {l : List Char} (hs : s.toList = c :: l)
    (hc : Unicode.isSpace c = false) : ∃ l', (trimSpace s).toList = c :: l' := by
  simp only [trimSpace, String.toList_ofList]
  rw [hs, List.dropWhile_cons_of_neg (by simp [hc])]
  obtain ⟨t, ht⟩ := List.rdropWhile_prefix Unicode.isSpace (l := c :: l)
  cases hr : (c :: l).rdropWhile Unicode.isSpace with
  | nil =>
    have ha := List.rdropWhile_eq_nil_iff.1 hr c List.mem_cons_self
    rw [hc] at ha
    cases ha
  | cons d l' =>
    rw [hr, List.cons_append] at ht
    injection ht with hd
    exact ⟨l', by rw [hd]⟩

/-- Trimming keeps every character that is not white space. -/
theorem mem_trimSpace {s : String} {c : Char} (h : c ∈ s.toList)
    (hc : Unicode.isSpace c = false) : c ∈ (trimSpace s).toList := by
  have hdrop : ∀ l : List Char, c ∈ l → c ∈ l.dropWhile Unicode.isSpace := by
    intro l hl
    rw [← List.takeWhile_append_dropWhile (p := Unicode.isSpace) (l := l), List.mem_append] at hl
    refine hl.resolve_left fun ht => ?_
    rw [List.mem_takeWhile_imp ht] at hc
    cases hc
  simp only [trimSpace, String.toList_ofList, List.rdropWhile, List.mem_reverse]
  exact hdrop _ (List.mem_reverse.2 (hdrop _ h))

/-- Removing a prefix keeps every character that is not in it. -/
theorem mem_trimPrefix {s pre : String} {c : Char} (h : c ∈ s.toList) (hc : c ∉ pre.toList) :
    c ∈ (trimPrefix s pre).toList := by
  unfold trimPrefix
  split
  · rename_i hp
    obtain ⟨l, hl⟩ := List.isPrefixOf_iff_prefix.1 hp
    rw [String.toList_ofList, ← hl, List.drop_left]
    rw [← hl, List.mem_append] at h
    exact h.resolve_left hc
  · exact h

/-- What is left after a prefix is the end of the text. -/
theorem trimPrefix_suffix (s pre : String) : (trimPrefix s pre).toList <:+ s.toList := by
  unfold trimPrefix
  split
  · rw [String.toList_ofList]
    exact List.drop_suffix _ _
  · exact List.suffix_rfl

/-- Lower case puts no blanks around a text. -/
theorem tight_toLower {s : String} (h : Tight s) : Tight (toLower s) := by
  obtain ⟨hhead, hlast⟩ := h
  constructor
  · intro c hc
    rw [toList_toLower, List.head?_map] at hc
    obtain ⟨d, hd, rfl⟩ := Option.map_eq_some_iff.1 hc
    rw [Unicode.isSpace_toLower]
    exact hhead d hd
  · intro c hc
    rw [toList_toLower, List.getLast?_map] at hc
    obtain ⟨d, hd, rfl⟩ := Option.map_eq_some_iff.1 hc
    rw [Unicode.isSpace_toLower]
    exact hlast d hd

end Strings
