import OctoConv.Base.Encoding
import OctoConv.Convert.Formats
import OctoConv.Worker.Handlers

/-!
# Conversion options

The options of a job are a small closed struct for each engine class. The same strict parser reads
them from the text that a client sends and from the map that the database keeps.

Source: `internal/convert/opts.go`, `internal/convert/htmlopts.go`, `internal/convert/audioopts.go`,
`internal/convert/avopts.go`.

## Main results

* `Schema.Writes.comes_back` — options that their schema writes faithfully come back from the map.
* `writes_doc`, `writes_html`, `writes_audio`, `writes_av` — every struct that is parsed is written
  faithfully.
-/

namespace OctoConv

open Conc.JsonText (Value parse print)

/-! ## Strict decoding -/

/-- The first key that has occurred before. -/
def firstDuplicate (seen : List String) : List String → Option String
  | [] => none
  | k :: ks => if k ∈ seen then some k else firstDuplicate (k :: seen) ks

/-- Keys without repetition have no duplicate. -/
theorem firstDuplicate_of_nodup {seen keys : List String} (h : (seen ++ keys).Nodup) :
    firstDuplicate seen keys = none := by
  induction keys generalizing seen with
  | nil => rfl
  | cons k keys ih =>
    have hk : k ∉ seen := by
      intro hmem
      rw [List.nodup_append] at h
      exact h.2.2 k hmem k (by simp) rfl
    rw [firstDuplicate, if_neg hk]
    apply ih
    have hperm : (seen ++ k :: keys).Perm (k :: (seen ++ keys)) := List.perm_middle
    exact hperm.nodup_iff.mp h

/-- The error for a repeated key. -/
def duplicateKey (ms : List (String × Value)) : Option GoError :=
  (firstDuplicate [] (ms.map Prod.fst)).map fun k =>
    .new ("parse opts: duplicate key " ++ goQuote k)

/-- The members of a text that is one object. -/
def objectOf (raw : List Char) : Option (List (String × Value)) :=
  match parse (String.ofList raw) with
  | some (.object ms) => some ms
  | _ => none

/-- The text is one object with different keys and nothing behind it. Which syntax error
`encoding/json` reports is left out.

Source: `opts.go` checkStrictObject -/
def checkStrictObject (raw : String) : Except GoError Unit :=
  match parse raw with
  | some (.object ms) =>
    match duplicateKey ms with
    | some err => .error err
    | none => .ok ()
  | some _ => .error (.new "parse opts: top-level value must be a JSON object")
  | none =>
    match raw.toList.inits.findSome? objectOf with
    | some ms =>
      .error ((duplicateKey ms).getD (.new "parse opts: trailing data after JSON object"))
    | none => .error (.new "parse opts: invalid JSON")

/-- A field of a struct, as `encoding/json` decodes into it. -/
structure Field (α : Type) where
  name : String
  /-- The Go type, for the error. -/
  goType : String
  /-- Store a value, or say what it is. -/
  assign : Value → α → Except String α

/-- What `json.UnmarshalTypeError` calls a value. -/
def describe : Value → String
  | .null => "null"
  | .bool _ => "bool"
  | .number _ => "number"
  | .string _ => "string"
  | .array _ => "array"
  | .object _ => "object"

/-- A `string` field. -/
def stringField {α : Type} (name : String) (set : String → α → α) : Field α where
  name := name
  goType := "string"
  assign v o :=
    match v with
    | .null => .ok o
    | .string s => .ok (set s o)
    | v => .error (describe v)

/-- A `bool` field. -/
def boolField {α : Type} (name : String) (set : Bool → α → α) : Field α where
  name := name
  goType := "bool"
  assign v o :=
    match v with
    | .null => .ok o
    | .bool b => .ok (set b o)
    | v => .error (describe v)

/-- An `int` field. -/
def intField {α : Type} (name : String) (set : Int → α → α) : Field α where
  name := name
  goType := "int"
  assign v o :=
    match v with
    | .null => .ok o
    | .number t =>
      match atoi t with
      | some n => .ok (set n o)
      | none => .error ("number " ++ t)
    | v => .error (describe v)

/-- A `*int` field. -/
def intPtrField {α : Type} (name : String) (set : Option Int → α → α) : Field α where
  name := name
  goType := "int"
  assign v o :=
    match v with
    | .null => .ok (set none o)
    | .number t =>
      match atoi t with
      | some n => .ok (set (some n) o)
      | none => .error ("number " ++ t)
    | v => .error (describe v)

/-- A `*float64` field. -/
def floatPtrField {α : Type} (codec : FloatCodec) (name : String) (set : Option Rat → α → α) :
    Field α where
  name := name
  goType := "float64"
  assign v o :=
    match v with
    | .null => .ok (set none o)
    | .number t =>
      match codec.parse t with
      | some x => .ok (set (some x) o)
      | none => .error ("number " ++ t)
    | v => .error (describe v)

/-- The folding under which `encoding/json` compares a key with an ASCII field name. Two characters
outside ASCII fold into it: the long s and the Kelvin sign. -/
def foldName (s : String) : String :=
  String.ofList (s.toList.map fun c =>
    if c = '\u017f' then 'S' else if c = '\u212a' then 'K' else c.toUpper)

/-- The field of a key: by its name, else by its folded name. -/
def findField {α : Type} (fields : List (Field α)) (key : String) : Option (Field α) :=
  (fields.find? fun f => f.name = key).or (fields.find? fun f => foldName f.name = foldName key)

/-- A key folds to the name of its field. -/
theorem foldName_of_findField {α : Type} {fields : List (Field α)} {key : String} {f : Field α}
    (h : findField fields key = some f) : foldName f.name = foldName key := by
  unfold findField at h
  rcases Option.or_eq_some_iff.mp h with h | ⟨-, h⟩
  · have hname := List.find?_some h
    rw [of_decide_eq_true hname]
  · have hname := List.find?_some h
    exact of_decide_eq_true hname

/-- Decode one member of an object into a struct; an unknown key is an error. -/
def decodeMember {α : Type} (struct : String) (fields : List (Field α)) (o : α)
    (m : String × Value) : Except GoError α :=
  match findField fields m.1 with
  | none => .error (.new ("json: unknown field " ++ goQuote m.1))
  | some f =>
    match f.assign m.2 o with
    | .ok o' => .ok o'
    | .error v =>
      .error (.new ("json: cannot unmarshal " ++ v ++ " into Go struct field " ++ struct ++ "." ++
        f.name ++ " of type " ++ f.goType))

/-- `Decode` of a text that is one value, with DisallowUnknownFields. -/
def decodeStruct {α : Type} (struct : String) (fields : List (Field α)) (zero : α) (raw : String) :
    Except GoError α :=
  match parse raw with
  | none => .error (.new "invalid JSON")
  | some .null => .ok zero
  | some (.object ms) => ms.foldlM (decodeMember struct fields) zero
  | some v =>
    .error (.new ("json: cannot unmarshal " ++ describe v ++ " into Go value of type convert." ++
      struct))

/-! ## Schemas -/

/-- An options struct: how it is decoded, checked and written. -/
structure Schema (α : Type) where
  struct : String
  fields : List (Field α)
  zero : α
  /-- The check against the allow-lists and ranges. -/
  check : α → Option GoError
  /-- The members that `json.Marshal` writes, in the order of the fields. -/
  members : α → List (String × Value)

namespace Schema

variable {α : Type} (s : Schema α)

/-- Decode and check a text, strictly.

Source: ParseDocOpts, ParseHTMLOpts, ParseAudioOpts, ParseAVOpts -/
def parseOpts (raw : String) : Except GoError α :=
  match checkStrictObject raw with
  | .error err => .error err
  | .ok () =>
    match decodeStruct s.struct s.fields s.zero raw with
    | .error err => .error (err.wrap "parse opts")
    | .ok o =>
      match s.check o with
      | some err => .error err
      | none => .ok o

/-- `json.Marshal` of the struct. -/
def marshal (o : α) : String := print (.object (s.members o))

/-- Read the stored map through the parser.

Source: DocOptsFromMap, HTMLOptsFromMap, AudioOptsFromMap, AVOptsFromMap -/
def optsFromMap (codec : FloatCodec) (m : Opts) : Except GoError α :=
  if m.length = 0 then .ok s.zero else s.parseOpts (marshalMap codec m)

end Schema

/-- A member that is left out when its value is the zero value (`omitempty`). -/
def omitempty (name : String) (v : Option Value) : List (String × Value) :=
  match v with
  | some v => [(name, v)]
  | none => []

/-- The value of a `string` field, unless it is empty. -/
def stringValue (s : String) : Option Value := if s = "" then none else some (.string s)

/-- The value of a `bool` field, unless it is false. -/
def boolValue (b : Bool) : Option Value := if b then some (.bool true) else none

/-- The value of an `int` field, unless it is zero. -/
def intValue (n : Int) : Option Value := if n = 0 then none else some (.number (toString n))

/-- The value of a `*int` field, unless it is nil. -/
def intPtrValue (n : Option Int) : Option Value := n.map fun n => .number (toString n)

/-! ### Documents -/

/-- Source: `opts.go` pdfProfileA2b -/
def pdfProfileA2b : String := "pdf/a-2b"

/-- Source: `opts.go` DocOpts -/
structure DocOpts where
  pdfProfile : String
deriving DecidableEq

/-- The struct DocOpts and the check of ParseDocOpts. -/
def docSchema : Schema DocOpts where
  struct := "DocOpts"
  fields := [stringField "pdf_profile" fun s o => { o with pdfProfile := s }]
  zero := ⟨""⟩
  check o :=
    if o.pdfProfile ≠ "" ∧ o.pdfProfile ≠ pdfProfileA2b then
      some (.new ("unsupported pdf_profile " ++ goQuote o.pdfProfile))
    else none
  members o := omitempty "pdf_profile" (stringValue o.pdfProfile)

/-- Source: `opts.go` ParseDocOpts -/
def parseDocOpts (raw : String) : Except GoError DocOpts := docSchema.parseOpts raw

/-- Source: `opts.go` DocOptsFromMap -/
def docOptsFromMap (codec : FloatCodec) (m : Opts) : Except GoError DocOpts :=
  docSchema.optsFromMap codec m

/-- Source: `opts.go` ValidateApplicability -/
def validateApplicability (engine : Engine) (_source target : String) (o : DocOpts) :
    Option GoError :=
  if o.pdfProfile = "" then none
  else if engine ≠ .document ∨ normalizeFormat target ≠ "pdf" then
    some (.new "pdf_profile is only valid for document -> pdf conversions")
  else none

/-! ### HTML -/

/-- Source: `htmlopts.go` htmlPageSizeCSS (its keys) -/
def htmlPageSizes : List String := ["a4", "letter", "legal", "a3", "a5"]

/-- Source: `htmlopts.go` htmlMarginMMMin -/
def htmlMarginMMMin : Int := 0

/-- Source: `htmlopts.go` htmlMarginMMMax -/
def htmlMarginMMMax : Int := 50

/-- Source: `htmlopts.go` HTMLOpts -/
structure HTMLOpts where
  pageSize : String
  /-- None when the client asked for no margin. -/
  marginMM : Option Int
  landscape : Bool
  printBackground : Bool
deriving DecidableEq

/-- The struct HTMLOpts and the check of ParseHTMLOpts. -/
def htmlSchema : Schema HTMLOpts where
  struct := "HTMLOpts"
  fields := [
    stringField "page_size" fun s o => { o with pageSize := s },
    intPtrField "margin_mm" fun n o => { o with marginMM := n },
    boolField "landscape" fun b o => { o with landscape := b },
    boolField "print_background" fun b o => { o with printBackground := b }]
  zero := ⟨"", none, false, false⟩
  check o :=
    if o.pageSize ≠ "" ∧ o.pageSize ∉ htmlPageSizes then
      some (.new ("unsupported page_size " ++ goQuote o.pageSize))
    else
      match o.marginMM with
      | none => none
      | some n =>
        if n < htmlMarginMMMin ∨ htmlMarginMMMax < n then
          some (.new ("margin_mm " ++ toString n ++ " out of range [" ++ toString htmlMarginMMMin ++
            "," ++ toString htmlMarginMMMax ++ "]"))
        else none
  members o :=
    omitempty "page_size" (stringValue o.pageSize) ++
      (omitempty "margin_mm" (intPtrValue o.marginMM) ++
        (omitempty "landscape" (boolValue o.landscape) ++
          omitempty "print_background" (boolValue o.printBackground)))

/-- Source: `htmlopts.go` ParseHTMLOpts -/
def parseHTMLOpts (raw : String) : Except GoError HTMLOpts := htmlSchema.parseOpts raw

/-- Source: `htmlopts.go` HTMLOptsFromMap -/
def htmlOptsFromMap (codec : FloatCodec) (m : Opts) : Except GoError HTMLOpts :=
  htmlSchema.optsFromMap codec m

/-- Source: `htmlopts.go` isZeroHTMLOpts -/
def isZeroHTMLOpts (o : HTMLOpts) : Bool := o = htmlSchema.zero

/-- Source: `htmlopts.go` ValidateHTMLApplicability -/
def validateHTMLApplicability (engine : Engine) (_source target : String) (o : HTMLOpts) :
    Option GoError :=
  if isZeroHTMLOpts o then none
  else if engine ≠ .html ∨ normalizeFormat target ≠ "pdf" then
    some (.new "html print options are only valid for html -> pdf conversions")
  else none

/-! ### Audio -/

/-- Source: `audioopts.go` audioLanguageAllowlist -/
def audioLanguageAllowlist : List String := ["auto", "en", "ru", "es", "fr", "de"]

/-- Source: `audioopts.go` AudioOpts -/
structure AudioOpts where
  language : String
  translate : Bool
deriving DecidableEq

/-- The struct AudioOpts and the check of ParseAudioOpts. -/
def audioSchema : Schema AudioOpts where
  struct := "AudioOpts"
  fields := [
    stringField "language" fun s o => { o with language := s },
    boolField "translate" fun b o => { o with translate := b }]
  zero := ⟨"", false⟩
  check o :=
    if o.language ≠ "" ∧ o.language ∉ audioLanguageAllowlist then
      some (.new ("unsupported language " ++ goQuote o.language))
    else none
  members o :=
    omitempty "language" (stringValue o.language) ++ omitempty "translate" (boolValue o.translate)

/-- Source: `audioopts.go` ParseAudioOpts -/
def parseAudioOpts (raw : String) : Except GoError AudioOpts := audioSchema.parseOpts raw

/-- Source: `audioopts.go` AudioOptsFromMap -/
def audioOptsFromMap (codec : FloatCodec) (m : Opts) : Except GoError AudioOpts :=
  audioSchema.optsFromMap codec m

/-- Source: `audioopts.go` isZeroAudioOpts -/
def isZeroAudioOpts (o : AudioOpts) : Bool := o = audioSchema.zero

/-- Source: `audioopts.go` ValidateAudioApplicability -/
def validateAudioApplicability (engine : Engine) (_source _target : String) (o : AudioOpts) :
    Option GoError :=
  if isZeroAudioOpts o then none
  else if engine ≠ .audio then
    some (.new "audio transcription options are only valid for audio-engine conversions")
  else none

/-! ### Video -/

/-- Source: `avopts.go` avResolutionHeights -/
def avResolutionHeights : List Int := [480, 720, 1080]

/-- Source: `avopts.go` avCodecAllowlist -/
def avCodecAllowlist : List String := ["h264", "hevc"]

/-- Source: `avopts.go` avThumbnailTargets -/
def avThumbnailTargets : List String := ["jpg", "png", "webp"]

/-- Source: `avopts.go` avTranscodeTargets -/
def avTranscodeTargets : List String := ["mp4", "webm"]

/-- Source: `avopts.go` AVOpts -/
structure AVOpts where
  /-- None when the client gave no seek point. -/
  timecode : Option Rat
  resolutionHeight : Int
  codec : String
deriving DecidableEq

/-- The struct AVOpts and the check of ParseAVOpts. A `float64` that was read from JSON is neither
infinite nor a NaN. -/
def avSchema (codec : FloatCodec) : Schema AVOpts where
  struct := "AVOpts"
  fields := [
    floatPtrField codec "timecode" fun x o => { o with timecode := x },
    intField "resolution_height" fun n o => { o with resolutionHeight := n },
    stringField "codec" fun s o => { o with codec := s }]
  zero := ⟨none, 0, ""⟩
  check o :=
    if o.timecode.any (· < 0) then
      some (.new ("timecode out of range " ++ codec.format (o.timecode.getD 0)))
    else if o.resolutionHeight ≠ 0 ∧ o.resolutionHeight ∉ avResolutionHeights then
      some (.new ("unsupported resolution_height " ++ toString o.resolutionHeight))
    else if o.codec ≠ "" ∧ o.codec ∉ avCodecAllowlist then
      some (.new ("unsupported codec " ++ goQuote o.codec))
    else none
  members o :=
    omitempty "timecode" (o.timecode.map fun x => .number (codec.format x)) ++
      (omitempty "resolution_height" (intValue o.resolutionHeight) ++
        omitempty "codec" (stringValue o.codec))

/-- Source: `avopts.go` ParseAVOpts -/
def parseAVOpts (codec : FloatCodec) (raw : String) : Except GoError AVOpts :=
  (avSchema codec).parseOpts raw

/-- Source: `avopts.go` AVOptsFromMap -/
def avOptsFromMap (codec : FloatCodec) (m : Opts) : Except GoError AVOpts :=
  (avSchema codec).optsFromMap codec m

/-- Source: `avopts.go` isZeroAVOpts -/
def isZeroAVOpts (o : AVOpts) : Bool :=
  o.timecode = none && o.resolutionHeight = 0 && o.codec = ""

/-- Source: `avopts.go` ValidateAVApplicability -/
def validateAVApplicability (engine : Engine) (_source target : String) (o : AVOpts) :
    Option GoError :=
  if isZeroAVOpts o then none
  else if engine ≠ .av then some (.new "av options are only valid for av-engine conversions")
  else
    let normTarget := normalizeFormat target
    if o.timecode ≠ none ∧ normTarget ∉ avThumbnailTargets then
      some (.new "timecode is only valid for thumbnail targets")
    else if o.resolutionHeight ≠ 0 ∧ normTarget ∉ avTranscodeTargets then
      some (.new "resolution_height is only valid for transcode targets")
    else if o.codec = "hevc" ∧ normTarget ≠ "mp4" then
      some (.new "codec hevc is only valid for mp4 targets")
    else none

/-! ## Decoding members -/

section

variable {α : Type} {struct : String} {fields : List (Field α)}

/-- Decoding the members into `o` gives `o'`. -/
def Decodes (struct : String) (fields : List (Field α)) (o : α) (ms : List (String × Value))
    (o' : α) : Prop :=
  List.foldlM (decodeMember struct fields) o ms = .ok o'

/-- A field that was found is one of the struct. -/
theorem findField_mem {key : String} {f : Field α} (h : findField fields key = some f) :
    f ∈ fields := by
  unfold findField at h
  rcases Option.or_eq_some_iff.mp h with h | ⟨-, h⟩
  · exact List.mem_of_find?_eq_some h
  · exact List.mem_of_find?_eq_some h

/-- What a decoded member did. -/
theorem decodeMember_ok {o o' : α} {m : String × Value}
    (h : decodeMember struct fields o m = .ok o') :
    ∃ f, findField fields m.1 = some f ∧ f.assign m.2 o = .ok o' := by
  unfold decodeMember at h
  split at h
  · exact absurd h (by simp)
  rename_i f hf
  split at h
  · rename_i o'' ha
    obtain rfl : o'' = o' := by simpa using h
    exact ⟨f, hf, ha⟩
  · exact absurd h (by simp)

/-- A member that its field takes is decoded. -/
theorem decodeMember_of_assign {o o' : α} {m : String × Value} {f : Field α}
    (hf : findField fields m.1 = some f) (ha : f.assign m.2 o = .ok o') :
    decodeMember struct fields o m = .ok o' := by
  rw [decodeMember, hf]
  simp only
  rw [ha]

/-- Members are decoded one after the other. -/
theorem decodes_cons {o o' : α} {m : String × Value} {ms : List (String × Value)} :
    Decodes struct fields o (m :: ms) o' ↔
      ∃ o₁, decodeMember struct fields o m = .ok o₁ ∧ Decodes struct fields o₁ ms o' := by
  unfold Decodes
  rw [List.foldlM_cons]
  rcases decodeMember struct fields o m with e | o₁
  · constructor
    · intro h
      exact absurd h (by simp [bind, Except.bind])
    · rintro ⟨o₁, h, -⟩
      exact absurd h (by simp)
  · constructor
    · intro h
      exact ⟨o₁, rfl, h⟩
    · rintro ⟨o₂, h, h'⟩
      obtain rfl : o₁ = o₂ := by simpa using h
      exact h'

end

/-! ## What the parser accepts -/

namespace Schema

variable {α : Type} {s : Schema α}

/-- Parsed options are one object with different keys that decodes to a struct that passes the check. -/
theorem parseOpts_object {raw : String} {o : α} (h : s.parseOpts raw = .ok o) :
    ∃ ms, parse raw = some (.object ms) ∧ firstDuplicate [] (ms.map Prod.fst) = none ∧
      Decodes s.struct s.fields s.zero ms o ∧ s.check o = none := by
  unfold parseOpts at h
  split at h
  · exact absurd h (by simp)
  rename_i hstrict
  split at h
  · exact absurd h (by simp)
  rename_i o' hdecode
  split at h
  · exact absurd h (by simp)
  rename_i hcheck
  obtain rfl : o' = o := by simpa using h
  unfold checkStrictObject at hstrict
  unfold decodeStruct at hdecode
  rcases hparse : parse raw with _ | v
  · rw [hparse] at hdecode
    exact absurd hdecode (by simp)
  rw [hparse] at hstrict hdecode
  cases v with
  | object ms =>
    refine ⟨ms, rfl, ?_, hdecode, hcheck⟩
    simp only [duplicateKey] at hstrict
    rcases hdup : firstDuplicate [] (ms.map Prod.fst) with _ | k
    · rfl
    · rw [hdup] at hstrict
      exact absurd hstrict (by simp)
  | _ => exact absurd hstrict (by simp)

/-- Options that are parsed have passed the check. -/
theorem parseOpts_check {raw : String} {o : α} (h : s.parseOpts raw = .ok o) : s.check o = none := by
  obtain ⟨-, -, -, -, hcheck⟩ := parseOpts_object h
  exact hcheck

/-- One object with different keys that decode to a struct that passes the check. -/
theorem parseOpts_of_object {raw : String} {ms : List (String × Value)} {o : α}
    (hparse : parse raw = some (.object ms)) (hkeys : firstDuplicate [] (ms.map Prod.fst) = none)
    (hdecode : Decodes s.struct s.fields s.zero ms o) (hcheck : s.check o = none) :
    s.parseOpts raw = .ok o := by
  have hstrict : checkStrictObject raw = .ok () := by
    rw [checkStrictObject, hparse]
    simp only [duplicateKey, hkeys, Option.map_none]
  have hstruct : decodeStruct s.struct s.fields s.zero raw = .ok o := by
    rw [decodeStruct, hparse]
    exact hdecode
  rw [parseOpts, hstrict]
  simp only
  rw [hstruct]
  simp only
  rw [hcheck]

/-- A property of the decoded struct that every field keeps holds of parsed options. -/
theorem parseOpts_inv {raw : String} {o : α} (h : s.parseOpts raw = .ok o) {P : α → Prop}
    (hzero : P s.zero)
    (hstep : ∀ f ∈ s.fields, ∀ v o o', P o → f.assign v o = .ok o' → P o') : P o := by
  obtain ⟨ms, -, -, hdecode, -⟩ := parseOpts_object h
  have hfold : ∀ (ms : List (String × Value)) (o₁ o₂ : α), P o₁ →
      Decodes s.struct s.fields o₁ ms o₂ → P o₂ := by
    intro ms
    induction ms with
    | nil =>
      intro o₁ o₂ h₁ hd
      obtain rfl : o₁ = o₂ := by simpa [Decodes, pure, Except.pure] using hd
      exact h₁
    | cons m ms ih =>
      intro o₁ o₂ h₁ hd
      obtain ⟨o', hm, hrest⟩ := decodes_cons.mp hd
      obtain ⟨f, hf, ha⟩ := decodeMember_ok hm
      exact ih o' o₂ (hstep f (findField_mem hf) _ _ _ h₁ ha) hrest
  exact hfold ms s.zero o hzero hdecode

/-- A printed object with different keys is parsed by decoding its members. -/
theorem parseOpts_print {ms : List (String × Value)} (hvalid : ∀ e ∈ ms, e.2.Valid)
    (hkeys : (ms.map Prod.fst).Nodup) {o : α} (hdecode : Decodes s.struct s.fields s.zero ms o)
    (hcheck : s.check o = none) : s.parseOpts (print (.object ms)) = .ok o := by
  refine parseOpts_of_object ?_ (firstDuplicate_of_nodup (by simpa using hkeys)) hdecode hcheck
  apply Conc.JsonText.parse_print
  rw [Value.Valid, Conc.JsonText.membersValid_iff]
  exact hvalid

/-! ## What a struct is written as -/

/-- The members of `o` keep their values in a map and decode to `o` in the order of their keys. -/
structure Writes (codec : FloatCodec) (s : Schema α) (o : α) : Prop where
  lasting : ∀ e ∈ s.members o, Lasting codec e.2
  keys : ((s.members o).map Prod.fst).Nodup
  decodes : List.foldlM (decodeMember s.struct s.fields) s.zero (sortMembers (s.members o)) = .ok o

end Schema

instance : Std.Total fun a b : String × Value => a.1 ≤ b.1 := ⟨fun a b => String.le_total a.1 b.1⟩

instance : IsTrans (String × Value) fun a b => a.1 ≤ b.1 := ⟨fun _ _ _ => String.le_trans⟩

/-- Sorting members twice is sorting them once. -/
theorem sortMembers_sortMembers (ms : List (String × Value)) :
    sortMembers (sortMembers ms) = sortMembers ms :=
  (List.pairwise_insertionSort _ ms).insertionSort_eq

/-- Sorting members loses none. -/
theorem sortMembers_perm (ms : List (String × Value)) : (sortMembers ms).Perm ms :=
  List.perm_insertionSort _ ms

namespace Schema

variable {α : Type} {s : Schema α} {codec : FloatCodec}

/-- A map that is written as the sorted members of `o` reads as `o`. -/
theorem Writes.optsFromMap {o : α} (h : Writes codec s o) (hcheck : s.check o = none) {m : Opts}
    (hlen : m.length = (s.members o).length)
    (hm : marshalMap codec m = print (.object (sortMembers (s.members o)))) :
    s.optsFromMap codec m = .ok o := by
  have hperm := sortMembers_perm (s.members o)
  unfold Schema.optsFromMap
  by_cases hzero : m.length = 0
  · have hnil : s.members o = [] := List.length_eq_zero_iff.mp (hlen ▸ hzero)
    have hdec := h.decodes
    rw [hnil] at hdec
    rw [if_pos hzero]
    exact hdec
  · rw [if_neg hzero, hm]
    refine parseOpts_print ?_ ?_ h.decodes hcheck
    · intro e he
      exact (h.lasting e (hperm.mem_iff.mp he)).1
    · exact (hperm.map Prod.fst).nodup_iff.mpr h.keys

/-- Options that are written faithfully come back from the map they are stored as: from the map that
the marshalled struct is read as, and from that map after another round through the database. -/
theorem Writes.comes_back {o : α} (h : Writes codec s o) (hcheck : s.check o = none) :
    ∃ m m', unmarshalMap codec (s.marshal o) = .ok m ∧
      unmarshalMap codec (marshalMap codec m) = .ok m' ∧
      s.optsFromMap codec m = .ok o ∧ s.optsFromMap codec m' = .ok o := by
  have hperm := sortMembers_perm (s.members o)
  obtain ⟨m, hm, hkeys, hmar⟩ := marshal_unmarshal codec h.lasting h.keys
  obtain ⟨m', hm', hkeys', hmar'⟩ := marshal_unmarshal codec
    (fun e he => h.lasting e (hperm.mem_iff.mp he)) ((hperm.map Prod.fst).nodup_iff.mpr h.keys)
  have hlen : m.length = (s.members o).length := by
    simpa using congrArg List.length hkeys
  have hlen' : m'.length = (s.members o).length := by
    rw [← hperm.length_eq]
    simpa using congrArg List.length hkeys'
  rw [sortMembers_sortMembers] at hmar'
  refine ⟨m, m', hm, ?_, h.optsFromMap hcheck hlen hmar, h.optsFromMap hcheck hlen' hmar'⟩
  rw [hmar, hm']

end Schema

/-! ## Single fields -/

section

variable {codec : FloatCodec}

/-- A member lasts if its value does. -/
theorem lasting_omitempty {name : String} {v : Option Value} (h : ∀ w, v = some w → Lasting codec w) :
    ∀ e ∈ omitempty name v, Lasting codec e.2 := by
  intro e he
  rcases v with _ | w
  · simp [omitempty] at he
  · obtain rfl : e = (name, w) := by simpa [omitempty] using he
    exact h w rfl

/-- A text lasts. -/
theorem lasting_stringValue (s : String) : ∀ w, stringValue s = some w → Lasting codec w := by
  intro w hw
  unfold stringValue at hw
  split at hw
  · exact absurd hw (by simp)
  · obtain rfl : Value.string s = w := by simpa using hw
    exact lasting_string s

/-- A flag lasts. -/
theorem lasting_boolValue (b : Bool) : ∀ w, boolValue b = some w → Lasting codec w := by
  intro w hw
  unfold boolValue at hw
  split at hw
  · obtain rfl : Value.bool true = w := by simpa using hw
    exact lasting_bool true
  · exact absurd hw (by simp)

/-- The digits of a small whole number last. -/
theorem lasting_int {n : Int} (h0 : 0 ≤ n) (h : n < 2 ^ 53) :
    Lasting codec (.number (toString n)) := by
  obtain ⟨k, rfl⟩ := Int.eq_ofNat_of_zero_le h0
  exact lasting_natural (n := k) (by omega)

/-- `strconv.Atoi` reads the digits of a small whole number. -/
theorem atoi_toString_int {n : Int} (h0 : 0 ≤ n) (h : n < 2 ^ 53) : atoi (toString n) = some n := by
  obtain ⟨k, rfl⟩ := Int.eq_ofNat_of_zero_le h0
  exact atoi_toString (n := k) (by omega)

/-- A member that may be omitted has its own key at most. -/
theorem keys_omitempty (name : String) (v : Option Value) :
    ((omitempty name v).map Prod.fst).Sublist [name] := by
  cases v with
  | none => simp [omitempty]
  | some w => simp [omitempty]

variable {α : Type} {struct : String} {fields : List (Field α)}

/-- Two lists of members are decoded one after the other. -/
theorem Decodes.append (o₂ : α) {o₁ o₃ : α} {ms ms' : List (String × Value)}
    (h₁ : Decodes struct fields o₁ ms o₂) (h₂ : Decodes struct fields o₂ ms' o₃) :
    Decodes struct fields o₁ (ms ++ ms') o₃ := by
  unfold Decodes at *
  rw [List.foldlM_append, h₁]
  exact h₂

/-- A member that may be left out: leaving it out has to mean the struct as it is. -/
theorem decodes_omitempty {name : String} {v : Option Value} {o o' : α}
    (hnone : v = none → o = o')
    (hsome : ∀ w, v = some w → decodeMember struct fields o (name, w) = .ok o') :
    Decodes struct fields o (omitempty name v) o' := by
  rcases v with _ | w
  · rw [hnone rfl]
    rfl
  · unfold Decodes
    rw [omitempty, List.foldlM_cons, hsome w rfl]
    rfl

/-- A text member is decoded, or omitted where it is empty. -/
theorem decodes_string {name s : String} {o o' : α} (hnone : s = "" → o = o')
    (hsome : decodeMember struct fields o (name, .string s) = .ok o') :
    Decodes struct fields o (omitempty name (stringValue s)) o' := by
  unfold stringValue
  split
  · rename_i hs
    exact decodes_omitempty (fun _ => hnone hs) (by simp)
  · exact decodes_omitempty (by simp) (by simpa using hsome)

/-- A flag is decoded, or omitted where it is false. -/
theorem decodes_bool {name : String} {b : Bool} {o o' : α} (hnone : b = false → o = o')
    (hsome : b = true → decodeMember struct fields o (name, .bool true) = .ok o') :
    Decodes struct fields o (omitempty name (boolValue b)) o' := by
  unfold boolValue
  split
  · rename_i hb
    exact decodes_omitempty (by simp) (by simpa using hsome hb)
  · rename_i hb
    exact decodes_omitempty (fun _ => hnone (by simpa using hb)) (by simp)

end

/-! ## The four schemas -/

section

variable {codec : FloatCodec}

/-- The members of the document options, in their order. -/
theorem sortMembers_doc (profile : Option Value) :
    sortMembers (omitempty "pdf_profile" profile) = omitempty "pdf_profile" profile := by
  cases profile with
  | none => rfl
  | some v => rfl

variable (codec) in
/-- Document options are written faithfully. -/
theorem writes_doc (o : DocOpts) : docSchema.Writes codec o := by
  constructor
  · exact lasting_omitempty (lasting_stringValue _)
  · exact (keys_omitempty _ _).nodup (by decide)
  · rw [show sortMembers (docSchema.members o) = docSchema.members o from sortMembers_doc _]
    apply decodes_string
    · intro hs
      change DocOpts.mk "" = o
      rw [← hs]
    · rfl

/-- The members of the html options, in their order. -/
theorem sortMembers_html (page margin landscape background : Option Value) :
    sortMembers (omitempty "page_size" page ++ (omitempty "margin_mm" margin ++
      (omitempty "landscape" landscape ++ omitempty "print_background" background))) =
    omitempty "landscape" landscape ++ (omitempty "margin_mm" margin ++
      (omitempty "page_size" page ++ omitempty "print_background" background)) := by
  rcases page with _ | page <;> rcases margin with _ | margin <;>
    rcases landscape with _ | landscape <;> rcases background with _ | background <;>
    simp [sortMembers, omitempty, List.insertionSort, List.orderedInsert]

/-- The margin of HTML options that pass the check. -/
theorem margin_of_check {o : HTMLOpts} (h : htmlSchema.check o = none) {n : Int}
    (hn : o.marginMM = some n) : 0 ≤ n ∧ n ≤ 50 := by
  simp only [htmlSchema, hn] at h
  split at h
  · exact absurd h (by simp)
  split at h
  · exact absurd h (by simp)
  · rename_i hrange
    simp only [htmlMarginMMMin, htmlMarginMMMax] at hrange
    omega

/-- HTML options that pass the check are written faithfully. -/
theorem writes_html {o : HTMLOpts} (h : htmlSchema.check o = none) :
    htmlSchema.Writes codec o := by
  obtain ⟨page, margin, landscape, background⟩ := o
  have hmargin : ∀ n, margin = some n → 0 ≤ n ∧ n < 2 ^ 53 := by
    intro n hn
    have := margin_of_check h hn
    omega
  constructor
  · intro e he
    simp only [htmlSchema, List.mem_append] at he
    rcases he with he | he | he | he
    · exact lasting_omitempty (lasting_stringValue _) e he
    · refine lasting_omitempty ?_ e he
      intro w hw
      obtain ⟨n, hn, rfl⟩ := Option.map_eq_some_iff.mp hw
      exact lasting_int (hmargin n hn).1 (hmargin n hn).2
    · exact lasting_omitempty (lasting_boolValue _) e he
    · exact lasting_omitempty (lasting_boolValue _) e he
  · simp only [htmlSchema, List.map_append]
    refine List.Nodup.sublist ?_
      (show ["page_size", "margin_mm", "landscape", "print_background"].Nodup by decide)
    exact (keys_omitempty _ _).append ((keys_omitempty _ _).append
      ((keys_omitempty _ _).append (keys_omitempty _ _)))
  · have hsort := sortMembers_html (stringValue page) (intPtrValue margin) (boolValue landscape)
      (boolValue background)
    change Decodes _ _ _ (sortMembers (omitempty "page_size" (stringValue page) ++ _)) _
    rw [hsort]
    -- landscape, margin_mm, page_size, print_background
    apply Decodes.append ⟨"", none, landscape, false⟩
    · apply decodes_bool
      · rintro rfl
        rfl
      · rintro rfl
        rfl
    apply Decodes.append ⟨"", margin, landscape, false⟩
    · apply decodes_omitempty
      · intro hnone
        obtain rfl : margin = none := by simpa [intPtrValue] using hnone
        rfl
      · intro w hw
        obtain ⟨n, rfl, rfl⟩ := Option.map_eq_some_iff.mp hw
        have hread := atoi_toString_int (hmargin n rfl).1 (hmargin n rfl).2
        change decodeMember "HTMLOpts" htmlSchema.fields _ _ = _
        rw [decodeMember, show findField htmlSchema.fields "margin_mm" =
          some (intPtrField "margin_mm" fun n o => { o with marginMM := n }) from rfl]
        simp only [intPtrField, hread]
    apply Decodes.append ⟨page, margin, landscape, false⟩
    · apply decodes_string
      · rintro rfl
        rfl
      · rfl
    · apply decodes_bool
      · rintro rfl
        rfl
      · rintro rfl
        rfl

/-- The members of the audio options, in their order. -/
theorem sortMembers_audio (language translate : Option Value) :
    sortMembers (omitempty "language" language ++ omitempty "translate" translate) =
      omitempty "language" language ++ omitempty "translate" translate := by
  rcases language with _ | language <;> rcases translate with _ | translate <;>
    simp [sortMembers, omitempty, List.insertionSort]

/-- Audio options are written faithfully. -/
theorem writes_audio (o : AudioOpts) : audioSchema.Writes codec o := by
  obtain ⟨language, translate⟩ := o
  constructor
  · intro e he
    rcases List.mem_append.mp he with he | he
    · exact lasting_omitempty (lasting_stringValue _) e he
    · exact lasting_omitempty (lasting_boolValue _) e he
  · simp only [audioSchema, List.map_append]
    refine List.Nodup.sublist ?_ (show ["language", "translate"].Nodup by decide)
    exact (keys_omitempty _ _).append (keys_omitempty _ _)
  · have hsort := sortMembers_audio (stringValue language) (boolValue translate)
    change Decodes _ _ _ (sortMembers (omitempty "language" (stringValue language) ++ _)) _
    rw [hsort]
    apply Decodes.append ⟨language, false⟩
    · apply decodes_string
      · rintro rfl
        rfl
      · rfl
    · apply decodes_bool
      · rintro rfl
        rfl
      · rintro rfl
        rfl

/-- The members of the av options, in their order. -/
theorem sortMembers_av (timecode height name : Option Value) :
    sortMembers (omitempty "timecode" timecode ++ (omitempty "resolution_height" height ++
      omitempty "codec" name)) =
    omitempty "codec" name ++ (omitempty "resolution_height" height ++
      omitempty "timecode" timecode) := by
  rcases timecode with _ | timecode <;> rcases height with _ | height <;>
    rcases name with _ | name <;>
    simp [sortMembers, omitempty, List.insertionSort, List.orderedInsert]

/-- The seek point was read from a number. -/
def Read (codec : FloatCodec) (o : AVOpts) : Prop :=
  ∀ x, o.timecode = some x → ∃ t, codec.parse t = some x

/-- What was parsed can be read. -/
theorem read_of_parse {raw : String} {o : AVOpts} (h : (avSchema codec).parseOpts raw = .ok o) :
    Read codec o := by
  refine Schema.parseOpts_inv h (P := Read codec) ?_ ?_
  · intro x hx
    exact absurd hx (by simp [avSchema])
  · intro f hf v o o' ho ha
    simp only [avSchema, List.mem_cons, List.not_mem_nil, or_false] at hf
    rcases hf with rfl | rfl | rfl
    · cases v with
      | null =>
        obtain rfl : { o with timecode := none } = o' := by simpa [floatPtrField] using ha
        intro x hx
        exact absurd hx (by simp)
      | number t =>
        rcases ht : codec.parse t with _ | y
        · simp [floatPtrField, ht] at ha
        · obtain rfl : { o with timecode := some y } = o' := by simpa [floatPtrField, ht] using ha
          intro x hx
          obtain rfl : y = x := by simpa using hx
          exact ⟨t, ht⟩
      | _ => simp [floatPtrField] at ha
    · cases v with
      | null =>
        obtain rfl : o = o' := by simpa [intField] using ha
        exact ho
      | number t =>
        rcases ht : atoi t with _ | n
        · simp [intField, ht] at ha
        · obtain rfl : { o with resolutionHeight := n } = o' := by simpa [intField, ht] using ha
          exact ho
      | _ => simp [intField] at ha
    · cases v with
      | null =>
        obtain rfl : o = o' := by simpa [stringField] using ha
        exact ho
      | string s =>
        obtain rfl : { o with codec := s } = o' := by simpa [stringField] using ha
        exact ho
      | _ => simp [stringField] at ha

/-- The resolution height of AV options that pass the check. -/
theorem height_of_check {o : AVOpts} (h : (avSchema codec).check o = none)
    (hn : o.resolutionHeight ≠ 0) : 0 ≤ o.resolutionHeight ∧ o.resolutionHeight < 2 ^ 53 := by
  simp only [avSchema] at h
  split at h
  · exact absurd h (by simp)
  split at h
  · exact absurd h (by simp)
  · rename_i hno
    have hmem : o.resolutionHeight ∈ avResolutionHeights := by
      by_contra hnot
      exact hno ⟨hn, hnot⟩
    simp only [avResolutionHeights, List.mem_cons, List.not_mem_nil, or_false] at hmem
    omega

/-- AV options that were parsed are written faithfully. -/
theorem writes_av {o : AVOpts} (h : (avSchema codec).check o = none) (hread : Read codec o) :
    (avSchema codec).Writes codec o := by
  have hheight := height_of_check h
  obtain ⟨timecode, height, name⟩ := o
  constructor
  · intro e he
    simp only [avSchema, List.mem_append] at he
    rcases he with he | he | he
    · refine lasting_omitempty ?_ e he
      intro w hw
      obtain ⟨x, hx, rfl⟩ := Option.map_eq_some_iff.mp hw
      obtain ⟨t, ht⟩ := hread x hx
      exact lasting_format ht
    · refine lasting_omitempty ?_ e he
      intro w hw
      unfold intValue at hw
      split at hw
      · exact absurd hw (by simp)
      · rename_i hne
        obtain rfl : Value.number (toString height) = w := by simpa using hw
        exact lasting_int (hheight hne).1 (hheight hne).2
    · exact lasting_omitempty (lasting_stringValue _) e he
  · simp only [avSchema, List.map_append]
    refine List.Nodup.sublist ?_ (show ["timecode", "resolution_height", "codec"].Nodup by decide)
    exact (keys_omitempty _ _).append ((keys_omitempty _ _).append (keys_omitempty _ _))
  · have hsort := sortMembers_av (timecode.map fun x => .number (codec.format x)) (intValue height)
      (stringValue name)
    change Decodes _ _ _ (sortMembers (omitempty "timecode" (timecode.map _) ++ _)) _
    rw [hsort]
    -- codec, resolution_height, timecode
    apply Decodes.append ⟨none, 0, name⟩
    · apply decodes_string
      · rintro rfl
        rfl
      · rfl
    apply Decodes.append ⟨none, height, name⟩
    · unfold intValue
      split
      · rename_i hzero
        subst hzero
        exact decodes_omitempty (by simp) (by simp)
      · rename_i hne
        apply decodes_omitempty (by simp)
        intro w hw
        obtain rfl : Value.number (toString height) = w := by simpa using hw
        have hatoi : atoi (toString height) = some height :=
          atoi_toString_int (hheight hne).1 (hheight hne).2
        rw [decodeMember, show findField (avSchema codec).fields "resolution_height" =
          some (intField "resolution_height" fun n o => { o with resolutionHeight := n }) from rfl]
        simp only [intField, hatoi]
    · apply decodes_omitempty
      · intro hnone
        obtain rfl : timecode = none := by simpa using hnone
        rfl
      · intro w hw
        obtain ⟨x, rfl, rfl⟩ := Option.map_eq_some_iff.mp hw
        obtain ⟨t, ht⟩ := hread x rfl
        rw [decodeMember, show findField (avSchema codec).fields "timecode" =
          some (floatPtrField codec "timecode" fun x o => { o with timecode := x }) from rfl]
        simp only [floatPtrField, codec.parse_format t x ht]

end

end OctoConv
