import OctoConv.Base.Environ
import OctoConv.Jobs.Model
import OctoConv.Lib.JsonText
import Mathlib.Data.List.Sort

/-!
# `encoding/json` on maps

`json.Unmarshal` into a `map[string]any` and `json.Marshal` of one. A number becomes a `float64`, whose
reading and writing is a parameter; a map is written with its keys in order.

## Main results

* `marshal_unmarshal` — members whose values `encoding/json` writes itself come back from a map in
  the order of their keys.
-/

namespace OctoConv

open Conc.JsonText (Value parse print isNumber)

/-- A `float64` as `encoding/json` reads and writes it. -/
structure FloatCodec where
  /-- `strconv.ParseFloat` of a number: the nearest `float64`, none beyond the range. -/
  parse : String → Option Rat
  /-- The shortest number that is read as this `float64`. -/
  format : Rat → String
  /-- What is written is a number of the JSON grammar. -/
  format_number : ∀ s x, parse s = some x → isNumber (format x).toList = true
  /-- What is written is read as the same `float64`. -/
  parse_format : ∀ s x, parse s = some x → parse (format x) = some x
  /-- Whole numbers of 53 bits are exact. -/
  parse_natural : ∀ n : Nat, n < 2 ^ 53 → parse (toString n) = some n
  /-- Whole numbers of 53 bits are written with their digits. -/
  format_natural : ∀ n : Nat, n < 2 ^ 53 → format n = toString n

/-! ## Maps -/

/-- Assign to a key of a map. -/
def setKey (m : Opts) (key : String) (j : Json) : Opts := m.filter (fun e => e.1 ≠ key) ++ [(key, j)]

/-- A new key is put at the end. -/
theorem setKey_of_notMem {m : Opts} {key : String} (h : key ∉ m.map Prod.fst) (j : Json) :
    setKey m key j = m ++ [(key, j)] := by
  have hkeep : m.filter (fun e => e.1 ≠ key) = m := by
    rw [List.filter_eq_self]
    intro e he
    simp only [ne_eq, decide_not, Bool.not_eq_eq_eq_not, Bool.not_true, decide_eq_false_iff_not]
    rintro rfl
    exact h (List.mem_map_of_mem he)
  rw [setKey, hkeep]

section

variable (codec : FloatCodec)

mutual

/-- A JSON value as an `any`; fails on a number beyond the range. -/
def ofValue : Value → Option Json
  | .null => some .null
  | .bool b => some (.bool b)
  | .number text => (codec.parse text).map .number
  | .string s => some (.string s)
  | .array vs => (ofElements vs).map .array
  | .object ms => (ofMembers [] ms).map .object

/-- `ofValue` of the elements of an array. -/
def ofElements : List Value → Option (List Json)
  | [] => some []
  | v :: vs =>
    match ofValue v, ofElements vs with
    | some j, some js => some (j :: js)
    | _, _ => none

/-- Assign the members of an object to a map, one after the other. -/
def ofMembers (m : Opts) : List (String × Value) → Option Opts
  | [] => some m
  | (k, v) :: ms =>
    match ofValue v with
    | some j => ofMembers (setKey m k j) ms
    | none => none

end

/-- Members in the order of their keys. -/
def sortMembers (ms : List (String × Value)) : List (String × Value) :=
  ms.insertionSort fun a b => a.1 ≤ b.1

mutual

/-- The JSON value that an `any` is written as. -/
def toValue : Json → Value
  | .null => .null
  | .bool b => .bool b
  | .number x => .number (codec.format x)
  | .string s => .string s
  | .array js => .array (toElements js)
  | .object m => .object (sortMembers (toMembers m))

/-- `toValue` of the elements of a slice. -/
def toElements : List Json → List Value
  | [] => []
  | j :: js => toValue j :: toElements js

/-- `toValue` of the entries of a map. -/
def toMembers : Opts → List (String × Value)
  | [] => []
  | (k, j) :: m => (k, toValue j) :: toMembers m

end

/-- `json.Marshal` of a map. -/
def marshalMap (m : Opts) : String := print (toValue codec (.object m))

/-- `json.Unmarshal` into a map; `null` leaves it nil. -/
def unmarshalMap (s : String) : Except GoError Opts :=
  match parse s with
  | none => .error (.new "invalid JSON")
  | some .null => .ok []
  | some (.object ms) =>
    match ofMembers codec [] ms with
    | some m => .ok m
    | none => .error (.new "json: cannot unmarshal number into Go value of type float64")
  | some _ => .error (.new "json: cannot unmarshal value into Go value of type map[string]interface {}")

/-! ## What comes back -/

/-- A value that reading it as an `any` and writing it again does not change. -/
def Lasting (v : Value) : Prop := v.Valid ∧ ∃ j, ofValue codec v = some j ∧ toValue codec j = v

variable {codec}

/-- A text lasts. -/
theorem lasting_string (s : String) : Lasting codec (.string s) := by
  refine ⟨?_, .string s, ?_, ?_⟩
  · simp [Value.Valid]
  · simp [ofValue]
  · simp [toValue]

/-- A truth value lasts. -/
theorem lasting_bool (b : Bool) : Lasting codec (.bool b) := by
  refine ⟨?_, .bool b, ?_, ?_⟩
  · simp [Value.Valid]
  · simp [ofValue]
  · simp [toValue]

/-- What is written for a `float64` that was read lasts. -/
theorem lasting_format {s : String} {x : Rat} (h : codec.parse s = some x) :
    Lasting codec (.number (codec.format x)) := by
  refine ⟨?_, .number x, ?_, ?_⟩
  · simpa [Value.Valid] using codec.format_number s x h
  · simp [ofValue, codec.parse_format s x h]
  · simp [toValue]

/-- A natural number that a float holds exactly lasts. -/
theorem lasting_natural {n : Nat} (h : n < 2 ^ 53) : Lasting codec (.number (toString n)) := by
  rw [← codec.format_natural n h]
  exact lasting_format (codec.parse_natural n h)

/-- The members of two maps. -/
theorem toMembers_append (m m' : Opts) :
    toMembers codec (m ++ m') = toMembers codec m ++ toMembers codec m' := by
  induction m with
  | nil => simp [toMembers]
  | cons e m ih =>
    obtain ⟨k, j⟩ := e
    simp [toMembers, ih]

variable (codec) in

/-- The members have the keys of the map. -/
theorem keys_toMembers (m : Opts) : (toMembers codec m).map Prod.fst = m.map Prod.fst := by
  induction m with
  | nil => simp [toMembers]
  | cons e m ih =>
    obtain ⟨k, j⟩ := e
    simp [toMembers, ih]

/-- Lasting members under different keys become the entries of the map. -/
theorem ofMembers_lasting {ms : List (String × Value)} (hs : ∀ e ∈ ms, Lasting codec e.2)
    (m₀ : Opts) (hkeys : (m₀.map Prod.fst ++ ms.map Prod.fst).Nodup) :
    ∃ m, ofMembers codec m₀ ms = some m ∧ toMembers codec m = toMembers codec m₀ ++ ms := by
  induction ms generalizing m₀ with
  | nil => exact ⟨m₀, by simp [ofMembers], by simp⟩
  | cons e ms ih =>
    obtain ⟨k, v⟩ := e
    obtain ⟨-, j, hj, hv⟩ := hs (k, v) (by simp)
    have hk : k ∉ m₀.map Prod.fst := by
      intro hmem
      rw [List.nodup_append] at hkeys
      exact hkeys.2.2 k hmem k (by simp) rfl
    obtain ⟨m, hm, hto⟩ := ih (fun e he => hs e (by simp [he])) (m₀ ++ [(k, j)])
      (by simpa using hkeys)
    refine ⟨m, ?_, ?_⟩
    · rw [ofMembers, hj]
      simp only
      rw [setKey_of_notMem hk, hm]
    · rw [hto, toMembers_append]
      simp [toMembers, hv]

theorem toMembers_nil : toMembers codec [] = [] := by
  simp [toMembers]

variable (codec) in
/-- Lasting members under different keys, written by a struct, are read as a map that is written with
the same members in the order of their keys. -/
theorem marshal_unmarshal {ms : List (String × Value)} (hs : ∀ e ∈ ms, Lasting codec e.2)
    (hkeys : (ms.map Prod.fst).Nodup) :
    ∃ m, unmarshalMap codec (print (.object ms)) = .ok m ∧ m.map Prod.fst = ms.map Prod.fst ∧
      marshalMap codec m = print (.object (sortMembers ms)) := by
  have hvalid : Value.Valid (.object ms) := by
    rw [Value.Valid, Conc.JsonText.membersValid_iff]
    intro e he
    exact (hs e he).1
  obtain ⟨m, hm, hto⟩ := ofMembers_lasting hs [] (by simpa using hkeys)
  rw [toMembers_nil, List.nil_append] at hto
  refine ⟨m, ?_, ?_, ?_⟩
  · rw [unmarshalMap, Conc.JsonText.parse_print hvalid]
    simp only
    rw [hm]
  · rw [← keys_toMembers codec, hto]
  · rw [marshalMap, toValue, hto]

end

/-! ## Whole numbers -/

/-- The digits of a number are read back. -/
theorem ofDigits_toDigits (n : Nat) : ofDigits (Nat.toDigits 10 n) = n := by
  have h : Nat.ofDigitChars 10 (Nat.toDigits 10 n) 0 = n :=
    Nat.ofDigitChars_toDigits (by decide) (by decide)
  rw [Nat.ofDigitChars_eq_foldl] at h
  rw [ofDigits]
  simpa [Nat.mul_comm] using h

/-- `strconv.Atoi` reads the digits of a number. -/
theorem atoi_toString {n : Nat} (h : n < 2 ^ 63) : atoi (toString n) = some (n : Int) := by
  have hdigit : ∀ c ∈ Nat.toDigits 10 n, c.isDigit = true := fun c hc =>
    Nat.isDigit_of_mem_toDigits (by decide) (by decide) hc
  have hsign : splitSign (Nat.toDigits 10 n) = (false, Nat.toDigits 10 n) := by
    unfold splitSign
    split
    · rename_i l heq
      exact absurd (hdigit '-' (by simp [heq])) (by decide)
    · rename_i l heq
      exact absurd (hdigit '+' (by simp [heq])) (by decide)
    · rfl
  rw [atoi, Nat.toString_eq_ofList_toDigits, String.toList_ofList, hsign]
  simp only [ofDigits_toDigits]
  rw [if_neg, if_neg (by decide), if_pos h]
  rintro (hnil | hall)
  · exact Nat.toDigits_ne_nil hnil
  · exact hall (by simpa using hdigit)

end OctoConv
