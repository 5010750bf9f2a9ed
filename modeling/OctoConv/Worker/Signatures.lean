import OctoConv.Lib.Scan
import OctoConv.Worker.Terminal

/-!
# What the classifiers look for

The classifiers of the workers ask for sentinels in the chain of an error, and search its text for
signatures in lower case. Here each is reduced to one search for a list of signatures, and what a search
finds in a text that was put together from parts is found in the parts.

Source: `internal/worker/worker.go`.

## Main results

* `isTerminal_iff`, `isAudioTerminal_iff` — the classifiers that search the text.
* `Classifier.verdict_of_recognises`, `Classifier.verdict_of_not_recognises` — a sentinel decides, and
  without one the text does.
* `mentions_append` — a context in which no signature begins adds nothing to what is found.
* `mentions_colon` — a report in a context is searched in two parts.
-/

namespace OctoConv.Worker

open Scan

/-- `strings.ToLower`, as far as it is needed. -/
def lower (text : String) : List Char := text.toList.map lowerChar

/-- The signatures that every classifier looks for. -/
def sharedSignatures : List String :=
  "no converter for" :: (terminalVipsSignatures ++ (terminalLibreOfficeSignatures ++
    (terminalChromiumSignatures ++ terminalVeraPDFSignatures)))

/-- The signatures that the classifier of the audio engine looks for. -/
def audioSignatures : List String :=
  ["audio: ffmpeg:", "ffprobe: unparseable duration", "ffprobe: implausible duration",
    "ffprobe failed:"] ++ (terminalAudioSignatures ++ sharedSignatures)

/-- One of the signatures occurs in the text. -/
def Mentions (signatures : List String) (text : String) : Prop :=
  Scans (signatures.map String.toList) (lower text)

instance (signatures : List String) (text : String) : Decidable (Mentions signatures text) :=
  inferInstanceAs (Decidable (Scans _ _))

/-! ## The signatures as characters

A literal is decoded once here, and not in every question that is decided about the signatures. -/

/-- The characters of the shared signatures. -/
def sharedPatterns : {ps : List (List Char) // sharedSignatures.map String.toList = ps} := by
  refine ⟨?patterns, ?_⟩
  rotate_left
  · simp only [sharedSignatures, terminalVipsSignatures, terminalLibreOfficeSignatures,
      terminalChromiumSignatures, terminalVeraPDFSignatures, List.map_cons, List.map_nil,
      List.cons_append, List.nil_append]
    repeat rewrite [String.toList_ofList]
    rfl

/-- The characters of the signatures for the audio engine. -/
def audioPatterns : {ps : List (List Char) // audioSignatures.map String.toList = ps} := by
  refine ⟨?patterns, ?_⟩
  rotate_left
  · simp only [audioSignatures, terminalAudioSignatures, List.map_cons, List.map_append, List.map_nil,
      sharedPatterns.2]
    repeat rewrite [String.toList_ofList]
    rfl

instance {P : List Char → Prop} [DecidablePred P] :
    Decidable (∀ p ∈ sharedSignatures.map String.toList, P p) :=
  decidable_of_iff (∀ p ∈ sharedPatterns.1, P p) (by rw [← sharedPatterns.2])

instance {P : List Char → Prop} [DecidablePred P] :
    Decidable (∀ p ∈ audioSignatures.map String.toList, P p) :=
  decidable_of_iff (∀ p ∈ audioPatterns.1, P p) (by rw [← audioPatterns.2])

instance (text : String) : Decidable (Mentions sharedSignatures text) :=
  decidable_of_iff (Scans sharedPatterns.1 (lower text)) (by rw [Mentions, ← sharedPatterns.2])

instance (text : String) : Decidable (Mentions audioSignatures text) :=
  decidable_of_iff (Scans audioPatterns.1 (lower text)) (by rw [Mentions, ← audioPatterns.2])

/-! ## The classifiers as searches -/

variable {sigs : List String} {text : String}

/-- A text mentions one signature or one of the others. -/
theorem mentions_cons {sig : String} :
    Mentions (sig :: sigs) text ↔ mentions text sig = true ∨ Mentions sigs text := by
  simp only [Mentions, Scans, List.map_cons, List.exists_mem_cons_iff, mentions, lower,
    decide_eq_true_eq]

/-- It mentions one of two lists. -/
theorem mentions_lists {more : List String} :
    Mentions (sigs ++ more) text ↔ Mentions sigs text ∨ Mentions more text := by
  simp only [Mentions, Scans, List.map_append, List.mem_append, or_and_right, exists_or]

/-- The search of the source, as a proposition. -/
theorem any_mentions : sigs.any (mentions text) = true ↔ Mentions sigs text := by
  simp only [Mentions, Scans, List.any_eq_true, List.mem_map, exists_exists_and_eq_and, mentions, lower,
    decide_eq_true_eq]

/-- **The shared classifier**: a missing object, or a signature. -/
theorem isTerminal_iff {err : GoError} :
    isTerminal err = true ↔ err.is .noSuchKey = true ∨ Mentions sharedSignatures err.text := by
  rw [isTerminal, sharedSignatures, mentions_cons, mentions_lists, mentions_lists, mentions_lists]
  simp only [Bool.or_eq_true, any_mentions, or_assoc]

/-- **The classifier of the audio engine**: a source that is too long, a missing object, or a
signature. -/
theorem isAudioTerminal_iff {err : GoError} :
    isAudioTerminal err = true ↔ err.is .audioDurationExceeded = true ∨ err.is .noSuchKey = true ∨
      Mentions audioSignatures err.text := by
  rw [isAudioTerminal, audioSignatures, mentions_lists, mentions_cons, mentions_cons, mentions_cons,
    mentions_cons, mentions_lists]
  have hnil : ¬ Mentions [] err.text := by
    rintro ⟨p, hp, -⟩
    exact absurd hp List.not_mem_nil
  simp only [Bool.or_eq_true, any_mentions, isTerminal_iff, hnil, or_false, or_assoc]
  -- the missing object is asked for after the signatures of the engine
  iterate 5 rw [or_left_comm (b := err.is .noSuchKey = true)]

/-! ## The five classifiers -/

/-- The classifiers of the convert handlers; the one of the image engine is the shared one. -/
inductive Classifier
  | image
  | document
  | html
  | audio
  | av

namespace Classifier

/-- Whether the error is given up at once. -/
def verdict : Classifier → GoError → Bool
  | image => isTerminal
  | document => isDocumentTerminal
  | html => isHTMLTerminal
  | audio => isAudioTerminal
  | av => isAVTerminal

/-- The sentinels it asks for. -/
def sentinels : Classifier → List Sentinel
  | image => [.noSuchKey]
  | document => [.deadlineExceeded, .noSuchKey]
  | html => [.deadlineExceeded, .noSuchKey]
  | audio => [.audioDurationExceeded, .noSuchKey]
  | av => [.avOutputMissingOrEmpty, .avTimecodeOutOfRange, .avResolutionExceeded,
      .avReencodeResolutionExceeded, .audioDurationExceeded, .avNoVideoStream, .avTranscodeFailed,
      .avAudioExtractFailed, .avThumbnailFailed, .noSuchKey]

/-- The signatures it searches the text for. -/
def signatures : Classifier → List String
  | audio => audioSignatures
  | _ => sharedSignatures

/-- A sentinel that the classifier asks for is in the chain. -/
def Recognises (k : Classifier) (err : GoError) : Prop := ∃ t ∈ k.sentinels, err.is t = true

instance (k : Classifier) (err : GoError) : Decidable (k.Recognises err) :=
  inferInstanceAs (Decidable (∃ t ∈ k.sentinels, err.is t = true))

variable {k : Classifier} {err err' : GoError}

/-- Below its sentinels, the classifier of the av engine is the shared one. -/
theorem isAVTerminal_congr (his : ∀ t, err.is t = err'.is t) (h : isTerminal err = isTerminal err') :
    isAVTerminal err = isAVTerminal err' := by
  unfold isAVTerminal
  simp only [his, h]

/-- A sentinel decides, whatever the text says. -/
theorem verdict_of_recognises (h : k.Recognises err) (hchain : err.chain = err'.chain) :
    k.verdict err = k.verdict err' := by
  have his : ∀ t, err.is t = err'.is t := by
    intro t
    rw [GoError.is, GoError.is, hchain]
  have hmissing : err.is .noSuchKey = true → isTerminal err = isTerminal err' := by
    intro hm
    rw [isTerminal_iff.mpr (.inl hm), isTerminal_iff.mpr (.inl ((his _).symm.trans hm))]
  have htimeout : err.is .deadlineExceeded = true ∨ err.is .noSuchKey = true →
      timeoutIsTerminal err = timeoutIsTerminal err' := by
    rintro (hd | hm)
    · rw [timeoutIsTerminal, timeoutIsTerminal, ← his, hd, Bool.true_or, Bool.true_or]
    · rw [timeoutIsTerminal, timeoutIsTerminal, ← his, hmissing hm]
  obtain ⟨t, ht, hin⟩ := h
  rcases k with _ | _ | _ | _ | _
  all_goals simp only [sentinels, List.mem_cons, List.not_mem_nil, or_false] at ht
  · obtain rfl := ht
    exact hmissing hin
  · rcases ht with rfl | rfl
    · exact htimeout (.inl hin)
    · exact htimeout (.inr hin)
  · rcases ht with rfl | rfl
    · exact htimeout (.inl hin)
    · exact htimeout (.inr hin)
  · have hboth : ∀ e : GoError, (e.is .audioDurationExceeded = true ∨ e.is .noSuchKey = true) →
        isAudioTerminal e = true := by
      rintro e (hd | hm)
      · exact isAudioTerminal_iff.mpr (.inl hd)
      · exact isAudioTerminal_iff.mpr (.inr (.inl hm))
    have hin' : err'.is t = true := (his t).symm.trans hin
    rw [verdict, hboth err, hboth err']
    · rcases ht with rfl | rfl
      · exact .inl hin'
      · exact .inr hin'
    · rcases ht with rfl | rfl
      · exact .inl hin
      · exact .inr hin
  · by_cases hm : err.is .noSuchKey = true
    · exact isAVTerminal_congr his (hmissing hm)
    · rw [verdict, isAVTerminal, isAVTerminal]
      simp only [← his]
      rcases ht with rfl | rfl | rfl | rfl | rfl | rfl | rfl | rfl | rfl | rfl
      all_goals first
        | exact absurd hin hm
        | simp only [hin, Bool.true_or, Bool.or_true, if_true]

/-- Without a sentinel the text decides. -/
theorem verdict_of_not_recognises (h : ¬ k.Recognises err) :
    k.verdict err = true ↔ Mentions k.signatures err.text := by
  have hnone : ∀ t ∈ k.sentinels, err.is t = false := by
    intro t ht
    exact Bool.eq_false_iff.mpr fun hin => h ⟨t, ht, hin⟩
  have hshared : err.is .noSuchKey = false →
      (isTerminal err = true ↔ Mentions sharedSignatures err.text) := by
    intro hm
    rw [isTerminal_iff, hm]
    simp only [Bool.false_eq_true, false_or]
  rcases k with _ | _ | _ | _ | _
  all_goals simp only [sentinels, List.forall_mem_cons, List.not_mem_nil, false_implies, implies_true,
    and_true] at hnone
  · exact hshared hnone
  · rw [verdict, isDocumentTerminal, timeoutIsTerminal, hnone.1, Bool.false_or]
    exact hshared hnone.2
  · rw [verdict, isHTMLTerminal, timeoutIsTerminal, hnone.1, Bool.false_or]
    exact hshared hnone.2
  · rw [verdict, isAudioTerminal_iff, hnone.1, hnone.2]
    simp only [Bool.false_eq_true, false_or]
    rfl
  · rw [verdict, isAVTerminal]
    simp only [hnone, Bool.or_self, Bool.false_eq_true, if_false]
    exact hshared (by simp only [hnone])

/-- An error without a sentinel is passing if its text mentions no signature. -/
theorem passing_iff (h : ¬ k.Recognises err) :
    k.verdict err = false ↔ ¬ Mentions k.signatures err.text := by
  rw [← verdict_of_not_recognises h, Bool.not_eq_true]

/-- An error that wraps nothing has no sentinel. -/
theorem not_recognises_of_plain (h : err.chain = []) : ¬ k.Recognises err := by
  rintro ⟨t, -, ht⟩
  rw [GoError.is, h] at ht
  exact absurd ht Bool.false_ne_true

end Classifier

/-! ## Texts that are put together -/

/-- Lower case goes text by text. -/
theorem lower_append (x y : String) : lower (x ++ y) = lower x ++ lower y := by
  rw [lower, String.toList_append, List.map_append]
  rfl

/-- A context in which no signature begins adds nothing to what is found. -/
theorem mentions_append {context : String}
    (h : ∀ p ∈ sigs.map String.toList, Detached p (lower context)) :
    Mentions sigs (context ++ text) ↔ Mentions sigs text := by
  rw [Mentions, lower_append]
  exact scans_append h

/-- What is found in a part is found in the whole. -/
theorem Mentions.append {x : String} (h : Mentions sigs x) (text : String) :
    Mentions sigs (x ++ text) := by
  apply h.mono
  rw [lower_append]
  exact List.infix_append_left

/-- What is mentioned at the end is mentioned. -/
theorem Mentions.prepend {x : String} (h : Mentions sigs x) (text : String) :
    Mentions sigs (text ++ x) := by
  apply h.mono
  rw [lower_append]
  exact List.infix_append_right

/-- Searches for one character that is in no signature. -/
theorem mentions_split {x y : String} {c : Char} (hc : lowerChar c = c)
    (h : ∀ p ∈ sigs.map String.toList, c ∉ p) :
    Mentions sigs (x ++ String.singleton c ++ y) ↔
      Mentions sigs x ∨ Mentions sigs y := by
  have hlower : lower (x ++ String.singleton c ++ y) = lower x ++ c :: lower y := by
    rw [lower_append, lower_append, List.append_assoc]
    simp only [lower, String.toList_singleton, List.map_cons, List.map_nil, hc, List.singleton_append]
  rw [Mentions, hlower]
  exact scans_split h

/-- Only a blank has a blank as its lower case. -/
theorem lowerChar_eq_blank {c : Char} (h : lowerChar c = ' ') : c = ' ' := by
  unfold lowerChar at h
  split_ifs at h with hi hk
  · exact absurd h (by decide)
  · exact absurd h (by decide)
  unfold Char.toLower at h
  split at h
  · rename_i hupper
    have hval := congrArg (fun c => c.val.toNat) h
    have hlow := UInt32.le_iff_toNat_le.mp hupper.1
    have hhigh := UInt32.le_iff_toNat_le.mp hupper.2
    simp only [UInt32.toNat_add] at hval
    have hdiff : ('a'.val - 'A'.val).toNat = 32 := by decide
    have ha : 'A'.val.toNat = 65 := by decide
    have hz : 'Z'.val.toNat = 90 := by decide
    have hblank : ' '.val.toNat = 32 := by decide
    rw [hdiff, hblank] at hval
    rw [ha] at hlow
    rw [hz] at hhigh
    omega
  · exact h

/-- Every signature has a blank, so none occurs in a text without one. -/
theorem not_mentions_of_blank (htext : ' ' ∉ text.toList)
    (h : ∀ p ∈ sigs.map String.toList, ' ' ∈ p) : ¬ Mentions sigs text := by
  apply not_scans_of_forall (P := fun c => c ≠ ' ')
  · intro c hc heq
    obtain ⟨d, hd, rfl⟩ := List.mem_map.mp hc
    rw [lowerChar_eq_blank heq] at hd
    exact htext hd
  · intro p hp
    exact ⟨' ', h p hp, fun hne => hne rfl⟩

/-! ## Searching for the shared signatures -/

/-- No shared signature has a colon, a quote or an equals sign, none begins with a blank, and every
one has a blank. -/
theorem sharedSignatures_shape : ∀ p ∈ sharedSignatures.map String.toList,
    ' ' ∈ p ∧ ':' ∉ p ∧ '"' ∉ p ∧ '=' ∉ p ∧ Detached p (lower " ") := by
  decide +kernel

/-- A text without a blank mentions nothing. -/
theorem not_mentions_shared {text : String} (h : ' ' ∉ text.toList) :
    ¬ Mentions sharedSignatures text :=
  not_mentions_of_blank h fun p hp => (sharedSignatures_shape p hp).1

/-- What is reported in a context mentions what the context and the report mention. -/
theorem mentions_colon {x y : String} : Mentions sharedSignatures (x ++ ": " ++ y) ↔
    Mentions sharedSignatures x ∨ Mentions sharedSignatures y := by
  have hcolon : x ++ ": " ++ y = x ++ String.singleton ':' ++ (" " ++ y) := by
    rw [String.append_assoc, String.append_assoc]
    rfl
  rw [hcolon, mentions_split (by decide) fun p hp => (sharedSignatures_shape p hp).2.1,
    mentions_append fun p hp => (sharedSignatures_shape p hp).2.2.2.2]

/-- A context without a signature leaves the text as it is. -/
theorem mentions_wrap {context : String} {e : GoError} (h : ¬ Mentions sharedSignatures context) :
    Mentions sharedSignatures (e.wrap context).text ↔ Mentions sharedSignatures e.text := by
  rw [GoError.wrap, mentions_colon]
  exact or_iff_right h

/-! ## Verdicts -/

/-- A verdict that should be final. -/
theorem verdict_final {verdict : Bool} {P : Prop} (h : verdict = true ↔ P) :
    (∀ v, some true = some v → verdict = v) ↔ P := by
  rw [← h]
  constructor
  · exact fun hv => hv true rfl
  · rintro htrue v ⟨⟩
    exact htrue

/-- A verdict that should be passing. -/
theorem verdict_passing {verdict : Bool} {P : Prop} (h : verdict = false ↔ P) :
    (∀ v, some false = some v → verdict = v) ↔ P := by
  rw [← h]
  constructor
  · exact fun hv => hv false rfl
  · rintro hfalse v ⟨⟩
    exact hfalse

end OctoConv.Worker
