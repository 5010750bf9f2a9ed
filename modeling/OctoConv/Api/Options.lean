import OctoConv.Convert.Opts

/-!
# The options of a create request

A create request parses the options with the parser of its engine class, checks that they apply to
the conversion, and keeps the parsed struct as a map. The worker reads that map with the same parser.

Source: `internal/api/handlers.go` handleCreateJob, `internal/worker/worker.go`.

## Main results

* `accepted_opts` — what the worker reads from the map of an accepted request is the struct that was
  parsed, and its options check passes.
-/

namespace OctoConv.Api

/-- An error answer: the status and the message of `writeError`. -/
structure Rejection where
  status : Nat
  message : String
deriving DecidableEq

/-- Source: `handlers.go` maxOptsBytes -/
def maxOptsBytes : Nat := 4096

/-- Parse, check and normalize the options with one schema. `json.Marshal` does not fail on these
structs.

Source: `handlers.go` handleCreateJob (a case of the switch on the engine) -/
def normalizeWith {α : Type} (codec : FloatCodec) (s : Schema α) (applies : α → Option GoError)
    (rawOpts : String) : Except Rejection Opts :=
  match s.parseOpts rawOpts with
  | .error _ => .error ⟨422, "invalid opts"⟩
  | .ok o =>
    match applies o with
    | some _ => .error ⟨422, "opts not applicable to this conversion"⟩
    | none =>
      match unmarshalMap codec (s.marshal o) with
      | .error _ => .error ⟨500, "failed to normalize opts"⟩
      | .ok m => .ok m

/-- The map that a request keeps of its options; nil when there are none.

Source: `handlers.go` handleCreateJob -/
def normalizeOpts (codec : FloatCodec) (engine : Engine) (source target rawOpts : String) :
    Except Rejection Opts :=
  if rawOpts = "" ∨ rawOpts = "{}" then .ok []
  else if maxOptsBytes < rawOpts.utf8ByteSize then .error ⟨422, "opts field too large"⟩
  else
    match engine with
    | .audio =>
      normalizeWith codec audioSchema (validateAudioApplicability engine source target) rawOpts
    | .av => normalizeWith codec (avSchema codec) (validateAVApplicability engine source target) rawOpts
    | .html => normalizeWith codec htmlSchema (validateHTMLApplicability engine source target) rawOpts
    | _ => normalizeWith codec docSchema (validateApplicability engine source target) rawOpts

/-! ## The struct of an engine class -/

/-- The options struct of some engine class. -/
inductive EngineOpts
  | doc (o : DocOpts)
  | html (o : HTMLOpts)
  | audio (o : AudioOpts)
  | av (o : AVOpts)
deriving DecidableEq

/-- The struct without options. -/
def EngineOpts.zero (codec : FloatCodec) : Engine → EngineOpts
  | .audio => .audio audioSchema.zero
  | .av => .av (avSchema codec).zero
  | .html => .html htmlSchema.zero
  | _ => .doc docSchema.zero

/-- The struct that a client's text stands for; an empty text asks for nothing. -/
def EngineOpts.parse (codec : FloatCodec) (engine : Engine) (rawOpts : String) :
    Except GoError EngineOpts :=
  if rawOpts = "" then .ok (.zero codec engine)
  else
    match engine with
    | .audio => (parseAudioOpts rawOpts).map .audio
    | .av => (parseAVOpts codec rawOpts).map .av
    | .html => (parseHTMLOpts rawOpts).map .html
    | _ => (parseDocOpts rawOpts).map .doc

/-- What the worker of the class reads from the stored map.

Source: `worker.go` HandleDocumentConvert, HandleHTMLConvert, HandleAudioConvert, HandleAVConvert -/
def EngineOpts.fromMap (codec : FloatCodec) (engine : Engine) (m : Opts) :
    Except GoError EngineOpts :=
  match engine with
  | .audio => (audioOptsFromMap codec m).map .audio
  | .av => (avOptsFromMap codec m).map .av
  | .html => (htmlOptsFromMap codec m).map .html
  | _ => (docOptsFromMap codec m).map .doc

/-- The options check of a convert handler; when it fails, the job ends with `invalid_options`. -/
def optsError (codec : FloatCodec) (engine : Engine) (m : Opts) : Option GoError :=
  match EngineOpts.fromMap codec engine m with
  | .error err => some err
  | .ok _ => none

/-! ## Accepted options come back -/

/-- `o` is read from the map, and again from what the database makes of the map. -/
def Returns {α : Type} (codec : FloatCodec) (fromMap : Opts → Except GoError α) (m : Opts) (o : α) :
    Prop :=
  fromMap m = .ok o ∧
    ∃ m', unmarshalMap codec (marshalMap codec m) = .ok m' ∧ fromMap m' = .ok o

/-- What a reader returns can be mapped. -/
theorem Returns.map {α β : Type} {codec : FloatCodec} {fromMap : Opts → Except GoError α} {m : Opts}
    {o : α} (h : Returns codec fromMap m o) (f : α → β) :
    Returns codec (fun m => (fromMap m).map f) m (f o) := by
  obtain ⟨h₁, m', hm', h₂⟩ := h
  refine ⟨?_, m', hm', ?_⟩
  · simp only [h₁, Except.map]
  · simp only [h₂, Except.map]

/-- What one schema accepts comes back, if the schema writes what it parses faithfully. -/
theorem normalizeWith_returns {α : Type} {codec : FloatCodec} {s : Schema α}
    {applies : α → Option GoError} {rawOpts : String} {m : Opts}
    (hwrites : ∀ o, s.parseOpts rawOpts = .ok o → s.Writes codec o)
    (h : normalizeWith codec s applies rawOpts = .ok m) :
    ∃ o, s.parseOpts rawOpts = .ok o ∧ Returns codec (s.optsFromMap codec) m o := by
  unfold normalizeWith at h
  rcases hparse : s.parseOpts rawOpts with _ | o
  · rw [hparse] at h
    exact absurd h (by simp)
  rw [hparse] at h
  simp only at h
  split at h
  · exact absurd h (by simp)
  obtain ⟨m₁, m', hm₁, hm', hback, hback'⟩ :=
    (hwrites o hparse).comes_back (Schema.parseOpts_check hparse)
  rw [hm₁] at h
  obtain rfl : m₁ = m := by simpa using h
  exact ⟨o, rfl, hback, m', hm', hback'⟩

/-- An object without members is the defaults. -/
theorem parseOpts_braces {α : Type} {s : Schema α} (h : s.check s.zero = none) :
    s.parseOpts "{}" = .ok s.zero :=
  @s.parseOpts_print _ [] (by simp) (by simp) _ rfl h

/-- The empty map comes back empty. -/
theorem unmarshal_marshal_nil (codec : FloatCodec) :
    unmarshalMap codec (marshalMap codec []) = .ok [] := by
  obtain ⟨m, hm, hkeys, hmar⟩ := @marshal_unmarshal codec [] (by simp) (by simp)
  obtain rfl : m = [] := by simpa using hkeys
  rw [hmar]
  exact hm

/-- Without options the class reads its zero struct, from an empty text and from `{}` alike. -/
theorem returns_zero (codec : FloatCodec) (engine : Engine) {rawOpts : String}
    (h : rawOpts = "" ∨ rawOpts = "{}") :
    EngineOpts.parse codec engine rawOpts = .ok (.zero codec engine) ∧
      Returns codec (EngineOpts.fromMap codec engine) [] (.zero codec engine) := by
  have hdoc : parseDocOpts "{}" = .ok docSchema.zero := parseOpts_braces rfl
  have hhtml : parseHTMLOpts "{}" = .ok htmlSchema.zero := parseOpts_braces rfl
  have haudio : parseAudioOpts "{}" = .ok audioSchema.zero := parseOpts_braces rfl
  have hav : parseAVOpts codec "{}" = .ok (avSchema codec).zero := parseOpts_braces rfl
  have hfrom : EngineOpts.fromMap codec engine [] = .ok (.zero codec engine) := by
    cases engine <;> rfl
  constructor
  · rcases h with rfl | rfl
    · rfl
    · unfold EngineOpts.parse
      rw [if_neg (by decide), hdoc, hhtml, haudio, hav]
      cases engine <;> rfl
  · exact ⟨hfrom, [], unmarshal_marshal_nil codec, hfrom⟩

/-- Whatever options text a request is accepted with, the worker of its engine class reads exactly the
struct that was parsed: from the map that the request keeps and from what the database returns of it.
So its options check passes. -/
theorem accepted_opts {codec : FloatCodec} {engine : Engine} {source target rawOpts : String}
    {m : Opts} (h : normalizeOpts codec engine source target rawOpts = .ok m) :
    ∃ o m', EngineOpts.parse codec engine rawOpts = .ok o ∧
      unmarshalMap codec (marshalMap codec m) = .ok m' ∧
      EngineOpts.fromMap codec engine m = .ok o ∧ EngineOpts.fromMap codec engine m' = .ok o ∧
      optsError codec engine m = none ∧ optsError codec engine m' = none := by
  have hreturns : ∃ o, EngineOpts.parse codec engine rawOpts = .ok o ∧
      Returns codec (EngineOpts.fromMap codec engine) m o := by
    unfold normalizeOpts at h
    split at h
    · rename_i hnone
      obtain rfl : [] = m := by simpa using h
      exact ⟨_, returns_zero codec engine hnone⟩
    rename_i hsome
    split at h
    · exact absurd h (by simp)
    have hne : rawOpts ≠ "" := fun heq => hsome (.inl heq)
    have hdoc := fun o (_ : docSchema.parseOpts rawOpts = .ok o) => writes_doc codec o
    unfold EngineOpts.parse
    rw [if_neg hne]
    cases engine
    case audio =>
      obtain ⟨o, ho, hr⟩ := normalizeWith_returns (fun o _ => writes_audio o) h
      exact ⟨.audio o, by rw [parseAudioOpts, ho]; rfl, hr.map EngineOpts.audio⟩
    case av =>
      obtain ⟨o, ho, hr⟩ := normalizeWith_returns
        (fun o ho => writes_av (Schema.parseOpts_check ho) (read_of_parse ho)) h
      exact ⟨.av o, by rw [parseAVOpts, ho]; rfl, hr.map EngineOpts.av⟩
    case html =>
      obtain ⟨o, ho, hr⟩ := normalizeWith_returns
        (fun o ho => writes_html (Schema.parseOpts_check ho)) h
      exact ⟨.html o, by rw [parseHTMLOpts, ho]; rfl, hr.map EngineOpts.html⟩
    all_goals
      obtain ⟨o, ho, hr⟩ := normalizeWith_returns hdoc h
      exact ⟨.doc o, by rw [parseDocOpts, ho]; rfl, hr.map EngineOpts.doc⟩
  obtain ⟨o, hparse, hfrom, m', hm', hfrom'⟩ := hreturns
  have hcheck : ∀ m, EngineOpts.fromMap codec engine m = .ok o → optsError codec engine m = none := by
    intro m hm
    rw [optsError, hm]
  exact ⟨o, m', hparse, hm', hfrom, hfrom', hcheck m hfrom, hcheck m' hfrom'⟩

/-! ## A seek point and a number -/

/-- The digits of a number are a JSON number. -/
theorem isNumber_toDigits (n : Nat) : Conc.JsonText.isNumber (Nat.toDigits 10 n) = true := by
  have hfold : ∀ n, 0 < n →
      (Nat.toDigits 10 n).foldlM Conc.JsonText.NumState.next .start = some .int := by
    intro n
    induction n using Nat.strongRecOn with
    | _ n ih =>
      intro hpos
      have hlast : ∀ d < 10, Conc.JsonText.NumState.next .int d.digitChar = some .int := by decide
      by_cases hn : n < 10
      · have hfirst : ∀ d < 10, 0 < d →
            Conc.JsonText.NumState.next .start d.digitChar = some .int := by decide
        rw [Nat.toDigits_of_lt_base hn, List.foldlM_cons, hfirst n hn hpos]
        rfl
      · rw [Nat.toDigits_of_base_le (by decide) (by omega), List.foldlM_append,
          ih (n / 10) (by omega) (by omega)]
        simp only [Option.bind_eq_bind, Option.bind_some, List.foldlM_cons, List.foldlM_nil]
        rw [hlast _ (Nat.mod_lt _ (by decide))]
        rfl
  unfold Conc.JsonText.isNumber
  rcases Nat.eq_zero_or_pos n with rfl | hpos
  · rfl
  · rw [hfold n hpos]
    rfl

/-- The number of 53 bits that a text writes in the usual way. -/
def naturalOf (s : String) : Option Nat :=
  match atoi s with
  | some n => if s = toString n.toNat ∧ n.toNat < 2 ^ 53 then some n.toNat else none
  | none => none

/-- A natural number that a float holds exactly is read back. -/
theorem naturalOf_toString {n : Nat} (h : n < 2 ^ 53) : naturalOf (toString n) = some n := by
  rw [naturalOf, atoi_toString (by omega)]
  exact if_pos ⟨rfl, h⟩

/-- What is read as a natural number is held exactly. -/
theorem lt_of_naturalOf {s : String} {n : Nat} (h : naturalOf s = some n) : n < 2 ^ 53 := by
  unfold naturalOf at h
  split at h
  · split at h
    · rename_i hn
      obtain rfl : _ = n := by simpa using h
      exact hn.2
    · exact absurd h (by simp)
  · exact absurd h (by simp)

/-- 12.5 -/
def twelveAndHalf : Rat := ⟨25, 2, by decide, by decide⟩

/-- No natural number is 12.5. -/
theorem natCast_ne_twelveAndHalf (n : Nat) : (n : Rat) ≠ twelveAndHalf := by
  intro h
  have hden : (n : Rat).den = twelveAndHalf.den := by rw [h]
  rw [Rat.den_natCast] at hden
  exact absurd hden (by decide)

/-- Nor is its text. -/
theorem toString_ne_fraction {n : Nat} (h : n < 2 ^ 53) : toString n ≠ "12.5" := by
  intro heq
  have hread := naturalOf_toString h
  rw [heq, show naturalOf "12.5" = none by decide] at hread
  exact absurd hread (by simp)

/-- A codec for whole numbers and one fraction, which `float64` represents exactly. -/
def exampleCodec : FloatCodec where
  parse s := if s = "12.5" then some twelveAndHalf else (naturalOf s).map fun n : Nat => (n : Rat)
  format x := if x = twelveAndHalf then "12.5" else toString x.num.toNat
  format_number s x h := by
    split
    · decide
    · rw [Nat.toString_eq_ofList_toDigits, String.toList_ofList]
      exact isNumber_toDigits _
  parse_format s x h := by
    have hx : x = twelveAndHalf ∨ ∃ n : Nat, n < 2 ^ 53 ∧ x = n := by
      split at h
      · exact .inl (by simpa using h.symm)
      · obtain ⟨n, hn, rfl⟩ := Option.map_eq_some_iff.mp h
        exact .inr ⟨n, lt_of_naturalOf hn, rfl⟩
    rcases hx with rfl | ⟨n, hn, rfl⟩
    · rfl
    · rw [if_neg (natCast_ne_twelveAndHalf n), Rat.num_natCast, Int.toNat_natCast,
        if_neg (toString_ne_fraction hn), naturalOf_toString hn]
      rfl
  parse_natural n h := by
    rw [if_neg (toString_ne_fraction h), naturalOf_toString h]
    rfl
  format_natural n h := by
    rw [if_neg (natCast_ne_twelveAndHalf n), Rat.num_natCast, Int.toNat_natCast]

/-- A thumbnail of the frame at 12.5 seconds. -/
theorem accepted_opts_timecode :
    normalizeOpts exampleCodec .av "mp4" "jpg" "\x7b\"timecode\": 12.5\x7d" =
        .ok [("timecode", .number twelveAndHalf)] ∧
      ∃ o m', EngineOpts.parse exampleCodec .av "\x7b\"timecode\": 12.5\x7d" = .ok o ∧
        unmarshalMap exampleCodec (marshalMap exampleCodec [("timecode", .number twelveAndHalf)]) =
          .ok m' ∧
        EngineOpts.fromMap exampleCodec .av [("timecode", .number twelveAndHalf)] = .ok o ∧
        EngineOpts.fromMap exampleCodec .av m' = .ok o ∧
        optsError exampleCodec .av [("timecode", .number twelveAndHalf)] = none ∧
        optsError exampleCodec .av m' = none := by
  have h : normalizeOpts exampleCodec .av "mp4" "jpg" "\x7b\"timecode\": 12.5\x7d" =
      .ok [("timecode", .number twelveAndHalf)] := by
    have hparse : (avSchema exampleCodec).parseOpts "\x7b\"timecode\": 12.5\x7d" =
        .ok ⟨some twelveAndHalf, 0, ""⟩ := by decide +kernel
    have happlies : validateAVApplicability .av "mp4" "jpg" ⟨some twelveAndHalf, 0, ""⟩ = none := by
      decide +kernel
    have hvalid : Conc.JsonText.Value.Valid (.object [("timecode", .number "12.5")]) :=
      ⟨show Conc.JsonText.isNumber _ = true by decide, trivial⟩
    have hmap : unmarshalMap exampleCodec
        ((avSchema exampleCodec).marshal ⟨some twelveAndHalf, 0, ""⟩) =
          .ok [("timecode", .number twelveAndHalf)] := by
      change unmarshalMap exampleCodec
        (Conc.JsonText.print (.object [("timecode", .number "12.5")])) = _
      rw [unmarshalMap, Conc.JsonText.parse_print hvalid]
      rfl
    rw [normalizeOpts, if_neg (by decide), if_neg (by decide)]
    change normalizeWith _ _ _ _ = _
    rw [normalizeWith, hparse]
    dsimp only
    rw [happlies]
    dsimp only
    rw [hmap]
  exact ⟨h, accepted_opts h⟩

end OctoConv.Api
