import Mathlib.Data.List.Basic

/-!
# Identifiers and object keys

`uuid.UUID` is 128 bits, printed in the usual 8-4-4-4-12 form. An object key of the bucket embeds
the job id, an ordinal and the base name of a file.

Source: `internal/storage/keys.go`.
-/

namespace OctoConv

/-- `uuid.UUID` -/
abbrev UUID := BitVec 128

namespace UUID

/-- The hexadecimal digit of a number below 16. -/
def hexDigit (n : Nat) : Char := Nat.digitChar (n % 16)

/-- The 32 hexadecimal digits of an id, most significant first. -/
def hexDigits (id : UUID) : List Char :=
  (List.range 32).map fun i => hexDigit (id.toNat >>> (4 * (31 - i)))

/-- `UUID.String()` -/
def text (id : UUID) : String :=
  let d := id.hexDigits
  String.ofList (d.take 8 ++ '-' :: (d.drop 8).take 4 ++ '-' :: (d.drop 12).take 4 ++
    '-' :: (d.drop 16).take 4 ++ '-' :: d.drop 20)

end UUID

/-- `path.Base`: the last element of a path, after its trailing slashes are removed; `"."` for the
empty path and `"/"` for a path of slashes only. -/
def pathBase (path : String) : String :=
  let chars := path.toList
  if chars = [] then "."
  else
    let trimmed := (chars.reverse.dropWhile (· = '/')).reverse
    let base := (trimmed.reverse.takeWhile (· ≠ '/')).reverse
    if base = [] then "/" else String.ofList base

/-- The base of a path is its last element. -/
theorem pathBase_eq {path : String} {dir name : List Char} (hp : path.toList = dir ++ name)
    (hd : dir.getLast?.getD '/' = '/') (hn : name ≠ []) (hs : '/' ∉ name) :
    pathBase path = String.ofList name := by
  have hne : path.toList ≠ [] := by simp [hp, hn]
  have hl : ∀ c ∈ name.getLast?, ¬ c = '/' := by
    rintro c hc rfl
    exact hs (List.mem_of_getLast? hc)
  have htrim : (path.toList.reverse.dropWhile fun c => decide (c = '/')).reverse =
      path.toList := by
    rw [hp, List.reverse_append]
    cases hr : name.reverse with
    | nil => exact absurd (List.reverse_eq_nil_iff.1 hr) hn
    | cons c l =>
      have hc : ¬ c = '/' := hl c (by rw [List.getLast?_eq_head?_reverse, hr]; rfl)
      rw [List.cons_append, List.dropWhile_cons_of_neg (by simpa using hc), ← List.cons_append,
        ← hr, ← List.reverse_append, List.reverse_reverse]
  have htake : (path.toList.reverse.takeWhile fun c => decide (c ≠ '/')) = name.reverse := by
    rw [hp, List.reverse_append, List.takeWhile_append_of_pos]
    · cases hr : dir.reverse with
      | nil => simp
      | cons c l =>
        have hc : c = '/' := by
          rw [List.getLast?_eq_head?_reverse, hr] at hd
          exact hd
        simp [hc]
    · intro c hc
      have hm := List.mem_reverse.1 hc
      simpa using fun h : c = '/' => hs (h ▸ hm)
  unfold pathBase
  rw [if_neg hne]
  dsimp only
  rw [htrim, htake, List.reverse_reverse, if_neg hn]

/-- The key of an uploaded input of a job.

Source: `keys.go` InputKey -/
def inputKey (jobID : UUID) (ordinal : Int) (filename : String) : String :=
  "uploads/" ++ jobID.text ++ "/" ++ toString ordinal ++ "-" ++ pathBase filename

/-- The key of a converted output of a job.

Source: `keys.go` OutputKey -/
def outputKey (jobID : UUID) (ordinal : Int) (filename : String) : String :=
  "results/" ++ jobID.text ++ "/" ++ toString ordinal ++ "-" ++ pathBase filename

example : outputKey 0x0123456789abcdef0123456789abcdef#128 0 "../out.webp" =
    "results/01234567-89ab-cdef-0123-456789abcdef/0-out.webp" := by decide +kernel

end OctoConv
