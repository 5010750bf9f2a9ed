import OctoConv.Api.Options

/-!
# The options of a preset

The options of a preset are checked when it is written, before it is known which engine class they
will be used with: some parser must accept them. A job checks them again with the parser of its
class. The two checks agree except on options that only the parser of audio or of video accepts,
which no preset can store.

Source: `internal/presets/optscheck.go`, `internal/api/handlers.go`.

## Main results

* `schemas_disjoint` — options that are not empty belong to one schema.
* `validateOptsJSON_iff` — when the two checks agree.
-/

namespace OctoConv.Presets

open Conc.JsonText (Value parse print)

variable {codec : FloatCodec}

/-- Source: `optscheck.go` ValidateOptsJSON -/
def validateOptsJSON (codec : FloatCodec) (options : Opts) : Option GoError :=
  if options.length = 0 then none
  else
    let raw := marshalMap codec options
    match parseDocOpts raw with
    | .ok _ => none
    | .error _ =>
      match parseHTMLOpts raw with
      | .ok _ => none
      | .error _ => some (.new "opts match no known schema (document or html print options)")

/-- The parser that the options of a job of this class are given to accepts the map.

Source: `handlers.go` handleCreateJob -/
def Accepts (codec : FloatCodec) (engine : Engine) (options : Opts) : Prop :=
  ∃ o, Api.EngineOpts.parse codec engine (marshalMap codec options) = .ok o

/-- A map of options as JSON has it: with different keys, and with numbers that are written as
numbers. -/
structure OptionsMap (codec : FloatCodec) where
  entries : Opts
  keys : (entries.map Prod.fst).Nodup
  written : (toValue codec (.object entries)).Valid

/-- Options of a transcript. -/
def transcriptOptions : OptionsMap Api.exampleCodec where
  entries := [("language", .string "ru"), ("translate", .bool true)]
  keys := by decide
  written := ⟨trivial, trivial, trivial⟩

/-- Options of a printed page. -/
def pageOptions : OptionsMap Api.exampleCodec where
  entries := [("page_size", .string "a3"), ("margin_mm", .number 5), ("landscape", .bool true)]
  keys := by decide
  written := ⟨trivial, show Conc.JsonText.isNumber _ = true by decide +kernel, trivial, trivial⟩

/-! ## What a parser accepts -/

/-- What was marshalled is parsed as its members, by their names. -/
theorem parse_marshalMap (m : OptionsMap codec) :
    parse (marshalMap codec m.entries) = some (.object (sortMembers (toMembers codec m.entries))) := by
  have hvalid := m.written
  rw [marshalMap, Conc.JsonText.parse_print hvalid]
  simp only [toValue]

/-- The key of a decoded member is one of a field. -/
theorem findField_of_decodes {α : Type} {struct : String} {fields : List (Field α)}
    {ms : List (String × Value)} {o o' : α} (h : Decodes struct fields o ms o') :
    ∀ m ∈ ms, ∃ f, findField fields m.1 = some f := by
  induction ms generalizing o with
  | nil => simp
  | cons m ms ih =>
    obtain ⟨o₁, hm, hrest⟩ := decodes_cons.mp h
    intro m' hm'
    rcases List.mem_cons.mp hm' with rfl | hm'
    · obtain ⟨f, hf, -⟩ := decodeMember_ok hm
      exact ⟨f, hf⟩
    · exact ih hrest m' hm'

/-- Options that are not empty belong to one schema: of two schemas without a common name, one at most
accepts them. -/
theorem schemas_disjoint {α β : Type} {s : Schema α} {s' : Schema β}
    (hnames : ∀ f ∈ s.fields, ∀ f' ∈ s'.fields, foldName f.name ≠ foldName f'.name)
    (m : OptionsMap codec)
    (hne : m.entries ≠ []) {o : α} {o' : β} (h : s.parseOpts (marshalMap codec m.entries) = .ok o) :
    s'.parseOpts (marshalMap codec m.entries) ≠ .ok o' := by
  intro h'
  obtain ⟨ms, hms, -, hdecodes, -⟩ := Schema.parseOpts_object h
  obtain ⟨ms', hms', -, hdecodes', -⟩ := Schema.parseOpts_object h'
  obtain rfl : ms = ms' := by
    rw [hms] at hms'
    exact Value.object.inj (Option.some.inj hms')
  rw [parse_marshalMap] at hms
  obtain rfl := Value.object.inj (Option.some.inj hms)
  have hkey : ∃ e, e ∈ sortMembers (toMembers codec m.entries) := by
    obtain ⟨e, he⟩ := List.exists_mem_of_ne_nil _ hne
    have hmem : e.1 ∈ (toMembers codec m.entries).map Prod.fst := by
      rw [keys_toMembers]
      exact List.mem_map_of_mem he
    obtain ⟨e', he', -⟩ := List.mem_map.mp hmem
    exact ⟨e', (sortMembers_perm _).mem_iff.mpr he'⟩
  obtain ⟨e, he⟩ := hkey
  obtain ⟨f, hf⟩ := findField_of_decodes hdecodes e he
  obtain ⟨f', hf'⟩ := findField_of_decodes hdecodes' e he
  exact hnames f (findField_mem hf) f' (findField_mem hf')
    ((foldName_of_findField hf).trans (foldName_of_findField hf').symm)

/-! ## The two checks -/

/-- What was marshalled is not empty. -/
theorem marshalMap_ne_empty (m : OptionsMap codec) : marshalMap codec m.entries ≠ "" := by
  intro h
  have hparse := parse_marshalMap m
  rw [h] at hparse
  exact absurd hparse (by rw [show parse "" = none by decide]; simp)

/-- What a parser makes of a text, as options of its class. -/
theorem map_ok_iff {α β : Type} {r : Except GoError α} {f : α → β} :
    (∃ o, r.map f = .ok o) ↔ ∃ o, r = .ok o := by
  rcases r with e | a
  · exact ⟨fun ⟨_, h⟩ => absurd h (by simp [Except.map]), fun ⟨_, h⟩ => absurd h (by simp)⟩
  · exact ⟨fun _ => ⟨a, rfl⟩, fun _ => ⟨f a, rfl⟩⟩

/-- Some class accepts the map exactly if one of the four parsers does. -/
theorem exists_accepts_iff (m : OptionsMap codec) :
    (∃ engine, Accepts codec engine m.entries) ↔
      (∃ o, parseDocOpts (marshalMap codec m.entries) = .ok o) ∨
        (∃ o, parseHTMLOpts (marshalMap codec m.entries) = .ok o) ∨
          Accepts codec .audio m.entries ∨ Accepts codec .av m.entries := by
  have hne := marshalMap_ne_empty m
  have hdoc : ∀ engine, engine ≠ .audio → engine ≠ .av → engine ≠ .html →
      (Accepts codec engine m.entries ↔ ∃ o, parseDocOpts (marshalMap codec m.entries) = .ok o) := by
    intro engine haudio hav hhtml
    unfold Accepts Api.EngineOpts.parse
    rw [if_neg hne]
    rcases engine <;> first | exact map_ok_iff | contradiction
  have hhtml : Accepts codec .html m.entries ↔
      ∃ o, parseHTMLOpts (marshalMap codec m.entries) = .ok o := by
    unfold Accepts Api.EngineOpts.parse
    rw [if_neg hne]
    exact map_ok_iff
  constructor
  · rintro ⟨engine, h⟩
    by_cases haudio : engine = .audio
    · subst haudio
      exact .inr (.inr (.inl h))
    by_cases hav : engine = .av
    · subst hav
      exact .inr (.inr (.inr h))
    by_cases hh : engine = .html
    · subst hh
      exact .inr (.inl (hhtml.mp h))
    · exact .inl ((hdoc engine haudio hav hh).mp h)
  · rintro (h | h | h | h)
    · exact ⟨.document, (hdoc .document (by decide) (by decide) (by decide)).mpr h⟩
    · exact ⟨.html, hhtml.mpr h⟩
    · exact ⟨.audio, h⟩
    · exact ⟨.av, h⟩

/-- The options of audio and video. -/
def mediaNames : List String := ["language", "translate", "timecode", "resolution_height", "codec"]

/-- The options of documents and pages. -/
def printNames : List String :=
  ["pdf_profile", "page_size", "margin_mm", "landscape", "print_background"]

/-- Fields of the two groups have names that do not fold alike. -/
theorem names_apart {α β : Type} {s : Schema α} {s' : Schema β}
    (hs : ∀ name ∈ s.fields.map Field.name, name ∈ mediaNames)
    (hs' : ∀ name ∈ s'.fields.map Field.name, name ∈ printNames) :
    ∀ f ∈ s.fields, ∀ f' ∈ s'.fields, foldName f.name ≠ foldName f'.name := by
  have hapart : ∀ name ∈ mediaNames, ∀ name' ∈ printNames, foldName name ≠ foldName name' := by
    decide +kernel
  intro f hf f' hf'
  exact hapart _ (hs _ (List.mem_map_of_mem hf)) _ (hs' _ (List.mem_map_of_mem hf'))

/-- What a schema of audio or video accepts, the other two do not, unless it is empty. -/
theorem not_printed {α : Type} {s : Schema α} (hs : ∀ name ∈ s.fields.map Field.name, name ∈ mediaNames)
    (m : OptionsMap codec) (hne : m.entries ≠ []) {o : α}
    (h : s.parseOpts (marshalMap codec m.entries) = .ok o) :
    ¬ ((∃ o, parseDocOpts (marshalMap codec m.entries) = .ok o) ∨
      ∃ o, parseHTMLOpts (marshalMap codec m.entries) = .ok o) := by
  have hdoc : ∀ name ∈ docSchema.fields.map Field.name, name ∈ printNames := by
    simp [docSchema, printNames, stringField]
  have hhtml : ∀ name ∈ htmlSchema.fields.map Field.name, name ∈ printNames := by
    simp [htmlSchema, printNames, stringField, boolField, intPtrField]
  rintro (⟨d, hd⟩ | ⟨d, hd⟩)
  · exact schemas_disjoint (names_apart hs hdoc) m hne h hd
  · exact schemas_disjoint (names_apart hs hhtml) m hne h hd

/-- Options that the parser of audio or of video accepts are not accepted by another parser, unless they
are empty. -/
theorem not_accepted_of_media (m : OptionsMap codec) (hne : m.entries ≠ [])
    (h : Accepts codec .audio m.entries ∨ Accepts codec .av m.entries) :
    ¬ ((∃ o, parseDocOpts (marshalMap codec m.entries) = .ok o) ∨
      ∃ o, parseHTMLOpts (marshalMap codec m.entries) = .ok o) := by
  have hraw := marshalMap_ne_empty m
  have haudio : ∀ name ∈ audioSchema.fields.map Field.name, name ∈ mediaNames := by
    simp [audioSchema, mediaNames, stringField, boolField]
  have hav : ∀ name ∈ (avSchema codec).fields.map Field.name, name ∈ mediaNames := by
    simp [avSchema, mediaNames, stringField, intField, floatPtrField]
  rcases h with ⟨o, h⟩ | ⟨o, h⟩
  · unfold Api.EngineOpts.parse at h
    rw [if_neg hraw] at h
    obtain ⟨o', ho'⟩ := map_ok_iff.mp ⟨o, h⟩
    exact not_printed haudio m hne ho'
  · unfold Api.EngineOpts.parse at h
    rw [if_neg hraw] at h
    obtain ⟨o', ho'⟩ := map_ok_iff.mp ⟨o, h⟩
    exact not_printed hav m hne ho'

/-- What the check of a preset accepts. -/
theorem validateOptsJSON_eq_none (options : Opts) :
    validateOptsJSON codec options = none ↔
      options = [] ∨ (∃ o, parseDocOpts (marshalMap codec options) = .ok o) ∨
        ∃ o, parseHTMLOpts (marshalMap codec options) = .ok o := by
  unfold validateOptsJSON
  by_cases hnil : options = []
  · subst hnil
    exact iff_of_true rfl (.inl rfl)
  rw [if_neg (by rwa [List.length_eq_zero_iff])]
  rcases hdoc : parseDocOpts (marshalMap codec options) with e | o
  · rcases hhtml : parseHTMLOpts (marshalMap codec options) with e' | o'
    · simp [hdoc, hhtml, hnil]
    · simp [hdoc, hhtml]
  · simp [hdoc]

/-- **The check of a preset agrees with the checks of the jobs** exactly on the maps that are empty or
that neither the parser of audio nor the one of video accepts. -/
theorem validateOptsJSON_iff (m : OptionsMap codec) :
    (validateOptsJSON codec m.entries = none ↔ ∃ engine, Accepts codec engine m.entries) ↔
      m.entries = [] ∨ ¬ Accepts codec .audio m.entries ∧ ¬ Accepts codec .av m.entries := by
  rw [exists_accepts_iff, validateOptsJSON_eq_none]
  by_cases hnil : m.entries = []
  · have hdoc : ∃ o, parseDocOpts (marshalMap codec m.entries) = .ok o := by
      rw [hnil]
      exact ⟨_, Api.parseOpts_braces rfl⟩
    exact iff_of_true (iff_of_true (.inl hnil) (.inl hdoc)) (.inl hnil)
  simp only [hnil, false_or]
  constructor
  · intro h
    have hmedia : ¬ (Accepts codec .audio m.entries ∨ Accepts codec .av m.entries) := by
      intro hacc
      apply not_accepted_of_media m hnil hacc
      exact h.mpr (.inr (.inr hacc))
    exact not_or.mp hmedia
  · rintro ⟨haudio, hav⟩
    simp only [haudio, hav, or_false]

/-- The checks differ on the options of a transcript, and agree on those of a printed page. -/
theorem validateOptsJSON_iff_examples :
    ¬ (validateOptsJSON Api.exampleCodec transcriptOptions.entries = none ↔
        ∃ engine, Accepts Api.exampleCodec engine transcriptOptions.entries) ∧
      (validateOptsJSON Api.exampleCodec pageOptions.entries = none ↔
        ∃ engine, Accepts Api.exampleCodec engine pageOptions.entries) := by
  constructor
  · rw [validateOptsJSON_iff transcriptOptions]
    have haudio : Api.EngineOpts.parse Api.exampleCodec .audio
        (marshalMap Api.exampleCodec transcriptOptions.entries) = .ok (.audio ⟨"ru", true⟩) := by
      decide +kernel
    rintro (hnil | ⟨hnone, -⟩)
    · exact absurd hnil (by decide)
    · exact hnone ⟨_, haudio⟩
  · rw [validateOptsJSON_iff pageOptions]
    have hnone : ∀ engine ∈ [Engine.audio, .av], (Api.EngineOpts.parse Api.exampleCodec engine
        (marshalMap Api.exampleCodec pageOptions.entries)).isOk = false := by
      decide +kernel
    have hrefused (engine : Engine) (hmem : engine ∈ [Engine.audio, .av]) :
        ¬ Accepts Api.exampleCodec engine pageOptions.entries := by
      rintro ⟨o, ho⟩
      have hno := hnone engine hmem
      rw [ho] at hno
      cases hno
    exact .inr ⟨hrefused .audio (by simp), hrefused .av (by simp)⟩

/-- The language of an audio job cannot be stored. -/
theorem language_not_stored :
    validateOptsJSON Api.exampleCodec [("language", .string "ru")] ≠ none ∧
      Accepts Api.exampleCodec .audio [("language", .string "ru")] := by
  constructor
  · decide +kernel
  · have hparse : Api.EngineOpts.parse Api.exampleCodec .audio
        (marshalMap Api.exampleCodec [("language", .string "ru")]) = .ok (.audio ⟨"ru", false⟩) := by
      decide +kernel
    exact ⟨_, hparse⟩

end OctoConv.Presets
