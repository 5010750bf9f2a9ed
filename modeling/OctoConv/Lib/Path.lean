import Mathlib.Data.List.Basic

/-!
# Slash-separated paths

The lexical functions on file paths: the extension, the shortest equivalent path, and joining a
directory with a name. A path is a string whose elements are separated by slashes.

Main results:

* `toList_join_plain` : a plain name is joined to a directory by appending it to a prefix that
  depends on the directory only;
* `join_plain_injective` : two plain names are joined to one directory as different paths;
* `ext_append` : the extension of a name that ends in a dot and a plain suffix.
-/

namespace UnixPath

/-! ## Extensions -/

/-- The extension of a reversed path, in front of the characters already passed: the rest of the
last element from its last dot on. -/
def extFrom : List Char → List Char → List Char
  | [], _ => []
  | c :: rest, passed =>
    if c = '/' then []
    else if c = '.' then c :: passed
    else extFrom rest (c :: passed)

/-- The suffix of the last element of a path from its last dot on; empty when it has no dot. -/
def ext (path : String) : String := String.ofList (extFrom path.toList.reverse [])

/-- The extension begins at the last dot. -/
theorem extFrom_append {l : List Char} (hs : '/' ∉ l) (hd : '.' ∉ l) (rest passed : List Char) :
    extFrom (l ++ '.' :: rest) passed = '.' :: (l.reverse ++ passed) := by
  induction l generalizing passed with
  | nil => simp [extFrom]
  | cons c l ih =>
    simp only [List.mem_cons, not_or] at hs hd
    rw [List.cons_append, extFrom, if_neg (Ne.symm hs.1), if_neg (Ne.symm hd.1), ih hs.2 hd.2]
    simp

/-- The extension of a path that ends in a dot and a suffix without dots and slashes. -/
theorem ext_append {path : String} {pre suffix : List Char}
    (hp : path.toList = pre ++ '.' :: suffix) (hs : '/' ∉ suffix) (hd : '.' ∉ suffix) :
    (ext path).toList = '.' :: suffix := by
  have hr : path.toList.reverse = suffix.reverse ++ '.' :: pre.reverse := by
    rw [hp]
    simp
  rw [ext, String.toList_ofList, hr, extFrom_append (by simpa using hs) (by simpa using hd)]
  simp

/-! ## The shortest equivalent path -/

/-- The elements of a cleaned path after one more element: an empty element and a dot are dropped,
two dots remove the element before them. At the front, two dots are dropped from a rooted path and
kept in another. -/
def cleanElem (rooted : Bool) (out : List (List Char)) (elem : List Char) : List (List Char) :=
  if elem = [] ∨ elem = ['.'] then out
  else if elem = ['.', '.'] then
    if out = [] ∨ out.getLast? = some ['.', '.'] then
      if rooted then out else out ++ [elem]
    else out.dropLast
  else out ++ [elem]

/-- Whether a path starts at the root. -/
def rooted (path : List Char) : Bool := path.head? = some '/'

/-- The elements of the cleaned path. -/
def cleanElems (path : List Char) : List (List Char) :=
  (path.splitOn '/').foldl (cleanElem (rooted path)) []

/-- The root of a path: a slash or nothing. -/
def root (path : List Char) : List Char := if rooted path then ['/'] else []

/-- The shortest path equivalent to a path by lexical processing alone. -/
def clean (path : String) : String :=
  let text := root path.toList ++ ['/'].intercalate (cleanElems path.toList)
  if text = [] then "." else String.ofList text

/-- The path of the directory of the last element. -/
def dir (path : String) : String :=
  clean (String.ofList (path.toList.reverse.dropWhile (· ≠ '/')).reverse)

example : dir "/tmp/job/in.mkv" = "/tmp/job" := by decide +kernel

/-- The elements joined into one path, the empty ones in front dropped, and cleaned. -/
def join : List String → String
  | [] => ""
  | e :: es =>
    if e = "" then join es
    else clean (String.ofList (['/'].intercalate ((e :: es).map String.toList)))

/-! ## Joining a plain name -/

/-- A name that is one element of a path and stays so when the path is cleaned. -/
structure Plain (name : List Char) : Prop where
  /-- It is one element. -/
  slash : '/' ∉ name
  /-- It is not empty. -/
  nonempty : name ≠ []
  /-- It is not the directory itself. -/
  ne_dot : name ≠ ['.']
  /-- It is not the parent directory. -/
  ne_dotdot : name ≠ ['.', '.']

/-- A name of more than two characters without a slash is plain. -/
theorem Plain.of_length {name : List Char} (hs : '/' ∉ name) (hl : 2 < name.length) :
    Plain name where
  slash := hs
  nonempty h := by simp [h] at hl
  ne_dot h := by simp [h] at hl
  ne_dotdot h := by simp [h] at hl

/-- What stands before a plain name joined to a directory. -/
def dirPrefix (dir : String) : List Char :=
  if dir = "" then []
  else root dir.toList ++ (cleanElems dir.toList).flatMap fun e => e ++ ['/']

section Plain

variable {name : List Char}

/-- A plain name is an element of its own. -/
theorem cleanElem_plain (h : Plain name) (r : Bool) (out : List (List Char)) :
    cleanElem r out name = out ++ [name] := by
  rw [cleanElem, if_neg (by simp [h.nonempty, h.ne_dot]), if_neg h.ne_dotdot]

/-- A plain name behind a directory is its last element. -/
theorem cleanElems_append (h : Plain name) {dir : List Char} (hd : dir ≠ []) :
    cleanElems (dir ++ '/' :: name) = cleanElems dir ++ [name] := by
  have hr : rooted (dir ++ '/' :: name) = rooted dir := by
    cases dir with
    | nil => exact absurd rfl hd
    | cons c dir => rfl
  rw [cleanElems, hr, List.splitOn_append_cons_self, List.splitOn_eq_singleton h.slash,
    List.foldl_append, List.foldl_cons, List.foldl_nil, cleanElem_plain h, cleanElems]

/-- The last element of a path stands behind the others. -/
theorem intercalate_concat (es : List (List Char)) (e : List Char) :
    ['/'].intercalate (es ++ [e]) = (es.flatMap fun x => x ++ ['/']) ++ e := by
  induction es with
  | nil => simp
  | cons x es ih =>
    cases es with
    | nil => simp [List.intercalate_cons_cons]
    | cons y es => simp_all [List.intercalate_cons_cons]

/-- Cleaning a path keeps the plain name at its end. -/
theorem toList_clean_append (h : Plain name) {dir : String} (hd : dir ≠ "") {path : String}
    (hp : path.toList = dir.toList ++ '/' :: name) :
    (clean path).toList = dirPrefix dir ++ name := by
  have hne : dir.toList ≠ [] := by simpa using hd
  have hr : root (dir.toList ++ '/' :: name) = root dir.toList := by
    cases hl : dir.toList with
    | nil => exact absurd hl hne
    | cons c l => rfl
  simp only [clean, hp, hr, cleanElems_append h hne, intercalate_concat]
  rw [if_neg (by simp [h.nonempty]), String.toList_ofList, dirPrefix, if_neg hd,
    List.append_assoc]

/-- A plain name is clean. -/
theorem toList_clean_plain {name : String} (h : Plain name.toList) :
    (clean name).toList = name.toList := by
  have hr : rooted name.toList = false := by
    cases hl : name.toList with
    | nil => rfl
    | cons c l =>
      have hs := h.slash
      rw [hl, List.mem_cons, not_or] at hs
      simp [rooted, Ne.symm hs.1]
  have he : cleanElems name.toList = [name.toList] := by
    rw [cleanElems, List.splitOn_eq_singleton h.slash, List.foldl_cons, List.foldl_nil,
      cleanElem_plain h, List.nil_append]
  simp only [clean, he, root, hr, List.intercalate_singleton]
  rw [if_neg (by simpa using h.nonempty), String.toList_ofList]
  rfl

/-- A plain name is joined to a directory by appending it to a prefix that depends on the directory
only. -/
theorem toList_join_plain {name : String} (h : Plain name.toList) (dir : String) :
    (join [dir, name]).toList = dirPrefix dir ++ name.toList := by
  have hn : name ≠ "" := by simpa using h.nonempty
  by_cases hd : dir = ""
  · rw [join, if_pos hd, join, if_neg hn, dirPrefix, if_pos hd]
    simpa using toList_clean_plain h
  · rw [join, if_neg hd]
    exact toList_clean_append h hd (by simp [List.intercalate_cons_cons])

/-- In one directory, plain names are told apart by their paths. -/
theorem join_plain_injective {n m : String} (hn : Plain n.toList) (hm : Plain m.toList)
    {dir : String} (h : join [dir, n] = join [dir, m]) : n = m := by
  have hl := congrArg String.toList h
  rw [toList_join_plain hn, toList_join_plain hm] at hl
  exact String.toList_inj.1 (List.append_cancel_left hl)

end Plain

example : join ["/srv//out/./", "a.pdf"] = "/srv/out/a.pdf" := by decide +kernel

end UnixPath
