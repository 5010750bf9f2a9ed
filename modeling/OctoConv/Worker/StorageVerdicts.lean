import OctoConv.Lib.Traces
import OctoConv.Worker.Handlers
import OctoConv.Worker.Signatures

/-!
# The verdict on a failed download

The key of an input ends in the name that the client gave the file. The storage client reports a
failure together with the quoted key, and the classifiers search the report, so a name can bring a
signature into the report of a failure that has none. The copy of the object into the file is
reported without the key.

Source: `internal/worker/worker.go`, `internal/storage/storage.go`, `internal/storage/keys.go`.

## Main results

* `process_reports` — an attempt that ends with the failure of the storage reports it with the key.
* `verdict_iff` — what a classifier finds in such a report is in the failure, or in the quoted key.
* `storage_verdict_of_names_iff` — whether two names of one file can be told apart by a verdict.
-/

namespace OctoConv.Worker

open Conc Scan

/-! ## What is reported -/

/-- A step of the download that asks the storage. -/
inductive DownloadStep
  | getObject
  | statObject
  | copyObject

namespace DownloadStep

/-- The step on the host. -/
def call (key path : String) : DownloadStep → HostStep
  | getObject => .getObject key
  | statObject => .statObject key
  | copyObject => .copyObject key path

/-- The context in which its failure is reported. -/
def context (key : String) : DownloadStep → String
  | getObject => "download " ++ goQuote key
  | statObject => "stat " ++ goQuote key
  | copyObject => "write input"

/-- The call of a step tells the step and the key. -/
theorem call_inj {step step' : DownloadStep} {key path key' path' : String}
    (h : step.call key path = step'.call key' path') : step = step' ∧ key = key' := by
  rcases step <;> rcases step' <;> simp only [call, reduceCtorEq, HostStep.getObject.injEq,
    HostStep.statObject.injEq, HostStep.copyObject.injEq] at h
  · exact ⟨rfl, h⟩
  · exact ⟨rfl, h⟩
  · exact ⟨rfl, h.1⟩

end DownloadStep

/-- The calls and their answers. -/
abbrev Trace : Type := List (Prog.Event Call Call.Result)

/-- The last answer is that this step of the download of this object failed. -/
def EndsWith (step : DownloadStep) (key path : String) (err : GoError) (tr : Trace) : Prop :=
  tr.getLast? = some ⟨.host (step.call key path), .error err⟩

/-- If the last answer is the failure of a step of the download, then it is reported in its context. -/
def Reports {α : Type} (tr : Trace) (r : Except GoError α) : Prop :=
  ∀ step key path err, EndsWith step key path err tr → r = .error (err.wrap (step.context key))

/-- A call that is not a step of the download. -/
def NoDownload : Call → Prop
  | .host (.getObject _) => False
  | .host (.statObject _) => False
  | .host (.copyObject _ _) => False
  | _ => True

/-- The call of a step is a download. -/
theorem not_noDownload (step : DownloadStep) (key path : String) :
    ¬ NoDownload (.host (step.call key path)) := by
  rcases step with _ | _ | _ <;> exact id

section Reports

variable {α β : Type} {p : P (Except GoError α)} {f : α → P (Except GoError β)} {job : Job} {env : Env}

/-- A program without downloads reports as it should. -/
theorem reports_of_calls (h : p.Calls NoDownload) : p.Always Reports := by
  rw [Prog.always_iff]
  intro tr r hrun step key path err hends
  have hmem := List.mem_of_getLast? hends
  exact absurd (hrun.mem_calls h _ hmem) (not_noDownload step key path)

/-- Behind a part that succeeds, only the rest can end with a failure. -/
theorem reports_andThen (hp : p.Always Reports) (hf : ∀ a, (f a).Always Reports) :
    (p.andThen f).Always Reports := by
  apply Prog.Always.andThen hp
  · intro tr e h step key path err hends
    rw [Except.error.inj (h step key path err hends)]
  · intro tr a h
    apply (hf a).mono
    intro tr' r h' step key path err hends
    rw [EndsWith, List.getLast?_append] at hends
    rcases hlast : tr'.getLast? with _ | last
    · rw [hlast, Option.none_or] at hends
      exact absurd (h step key path err hends) (by simp)
    · rw [hlast, Option.some_or] at hends
      exact h' step key path err (hlast.trans hends)

/-- A step of the download is reported in its context. -/
theorem reports_step (step : DownloadStep) (key path : String) :
    (host (step.context key) (step.call key path)).Always Reports := by
  apply Prog.Always.mapError (Q := fun tr r => tr = [⟨.host (step.call key path), r⟩])
  · exact fun r => rfl
  · rintro tr r rfl step' key' path' err hends
    have hevent := Option.some.inj hends
    have hcall := Call.host.inj (congrArg Sigma.fst hevent)
    obtain ⟨rfl, rfl⟩ := DownloadStep.call_inj hcall
    have hanswer : r = .error err := eq_of_heq (Sigma.mk.inj hevent).2
    rw [hanswer]
    rfl

/-- A download reports its step. -/
theorem downloadTo_reports (key path : String) : (downloadTo key path).Always Reports := by
  apply reports_andThen (reports_step .getObject key path)
  intro _
  apply reports_andThen (reports_step .statObject key path)
  intro _
  apply reports_andThen
  · apply reports_of_calls
    exact (ask_calls trivial).mapError
  · intro _
    exact reports_step .copyObject key path

/-- The guarded conversion downloads nothing. -/
theorem guardedConvert_noDownload (inPath outPath : String) :
    (guardedConvert env job inPath outPath).Calls NoDownload := by
  unfold guardedConvert
  split
  · apply (ask_calls trivial).andThen
    intro _
    exact (ask_calls trivial).mapError
  · exact (ask_calls trivial).mapError

/-- Storing downloads nothing. -/
theorem store_noDownload (outPath : String) : (store env job outPath).Calls NoDownload := by
  apply Prog.Calls.andThen
  · apply (ask_calls trivial).mapError.andThen
    intro _
    apply (ask_calls trivial).mapError.andThen
    intro _
    apply (ask_calls trivial).mapError.andThen
    exact fun _ => trivial
  · intro size
    apply (ask_calls trivial).andThen
    intro _
    exact ask_calls trivial

/-- **An attempt that ends with the failure of the storage reports it with the key.** -/
theorem process_reports (env : Env) (job : Job) : (process env job).Always Reports := by
  apply reports_andThen (reports_of_calls (inputKey_calls trivial))
  intro input
  split
  · apply reports_andThen
    · apply reports_of_calls
      exact (ask_calls trivial).mapError
    intro _
    apply reports_andThen (downloadTo_reports _ _)
    intro _
    apply reports_of_calls
    apply (guardedConvert_noDownload _ _).andThen
    intro _
    exact store_noDownload _
  · exact reports_of_calls trivial

end Reports

/-! ## Searching the report -/

/-- No signature is empty or has a quote, and none begins in what stands between a key and a failure. -/
theorem audioSignatures_shape : ∀ p ∈ audioSignatures.map String.toList,
    '"' ∉ p ∧ p ≠ [] ∧ Detached p (lower ": ") ∧ Detached p (lower "write input: ") := by
  decide +kernel

/-- The context of a download is no signature. -/
theorem not_mentions_download : ¬ Mentions audioSignatures "download " := by decide +kernel

/-- The context of a stat is no signature. -/
theorem not_mentions_stat : ¬ Mentions audioSignatures "stat " := by decide +kernel

/-- Every classifier knows only signatures of the audio one. -/
theorem Classifier.signatures_subset (k : Classifier) : k.signatures ⊆ audioSignatures := by
  intro sig hsig
  rcases k with _ | _ | _ | _ | _
  iterate 3 exact List.mem_append_right _ (List.mem_append_right _ hsig)
  · exact hsig
  · exact List.mem_append_right _ (List.mem_append_right _ hsig)

/-- No signature has a quote, is empty, or reaches across a colon. -/
theorem Classifier.signatures_shape {k : Classifier} : ∀ p ∈ k.signatures.map String.toList,
    '"' ∉ p ∧ p ≠ [] ∧ Detached p (lower ": ") ∧ Detached p (lower "write input: ") :=
  fun p hp => audioSignatures_shape p (List.map_subset _ k.signatures_subset hp)

/-- What a classifier finds, the audio one finds. -/
theorem Mentions.audio {k : Classifier} {text : String} (h : Mentions k.signatures text) :
    Mentions audioSignatures text := by
  obtain ⟨p, hp, hin⟩ := h
  exact ⟨p, List.map_subset _ k.signatures_subset hp, hin⟩

/-- A quoted text has a quote at each end. -/
theorem goQuote_eq (s : String) :
    ∃ inner, goQuote s = "" ++ String.singleton '"' ++ inner ++ String.singleton '"' ++ "" := by
  refine ⟨String.ofList (goQuote s).toList.tail.dropLast, ?_⟩
  apply String.toList_injective
  simp only [goQuote, String.toList_append, String.toList_singleton, String.toList_ofList,
    List.cons_append, List.tail_cons, List.dropLast_concat, List.nil_append, List.append_nil,
    String.toList_empty]

section Quoted

variable {k : Classifier}

/-- The empty text mentions nothing. -/
theorem not_mentions_empty : ¬ Mentions k.signatures "" := by
  rintro ⟨p, hp, hin⟩
  exact (Classifier.signatures_shape p hp).2.1 (List.infix_nil.mp hin)

/-- The quotes around a key keep what is in it apart from what is around it. -/
theorem mentions_quoted (x key y : String) : Mentions k.signatures (x ++ goQuote key ++ y) ↔
    Mentions k.signatures x ∨ Mentions k.signatures (goQuote key) ∨ Mentions k.signatures y := by
  have hsplit : ∀ x y : String, Mentions k.signatures (x ++ String.singleton '"' ++ y) ↔
      Mentions k.signatures x ∨ Mentions k.signatures y :=
    fun _ _ => mentions_split (by decide) fun p hp => (Classifier.signatures_shape p hp).1
  obtain ⟨inner, hinner⟩ := goQuote_eq key
  have hquoted : Mentions k.signatures (goQuote key) ↔ Mentions k.signatures inner := by
    rw [hinner, hsplit, hsplit]
    simp only [not_mentions_empty, false_or, or_false]
  have hwhole : x ++ goQuote key ++ y =
      x ++ String.singleton '"' ++ inner ++ String.singleton '"' ++ y := by
    rw [hinner]
    simp only [String.append_assoc, String.empty_append, String.append_empty]
  rw [hwhole, hsplit, hsplit, hquoted, or_assoc]

variable {step : DownloadStep} {key : String} {err : GoError}

/-- What is found in the report of a failure is in the failure, or in the quoted key. -/
theorem mentions_report : Mentions k.signatures (err.wrap (step.context key)).text ↔
    (step ≠ .copyObject ∧ Mentions k.signatures (goQuote key)) ∨ Mentions k.signatures err.text := by
  have hcolon : ∀ context, (¬ Mentions audioSignatures context) →
      (Mentions k.signatures (err.wrap (context ++ goQuote key)).text ↔
        Mentions k.signatures (goQuote key) ∨ Mentions k.signatures err.text) := by
    intro context hcontext
    have htext : (err.wrap (context ++ goQuote key)).text =
        context ++ goQuote key ++ (": " ++ err.text) := String.append_assoc
    rw [htext, mentions_quoted, mentions_append fun p hp => (Classifier.signatures_shape p hp).2.2.1]
    exact or_iff_right fun hin => hcontext hin.audio
  rcases step with _ | _ | _
  · rw [DownloadStep.context, hcolon _ not_mentions_download]
    simp only [ne_eq, reduceCtorEq, not_false_eq_true, true_and]
  · rw [DownloadStep.context, hcolon _ not_mentions_stat]
    simp only [ne_eq, reduceCtorEq, not_false_eq_true, true_and]
  · have htext : (err.wrap (DownloadStep.copyObject.context key)).text =
      "write input: " ++ err.text := rfl
    rw [htext, mentions_append fun p hp => (Classifier.signatures_shape p hp).2.2.2]
    simp only [ne_eq, not_true_eq_false, false_and, false_or]

/-- **The verdict on a report**, if the chain does not decide it. -/
theorem verdict_iff (h : ¬ k.Recognises err) : k.verdict (err.wrap (step.context key)) = true ↔
    (step ≠ .copyObject ∧ Mentions k.signatures (goQuote key)) ∨ Mentions k.signatures err.text := by
  have hwrap : ¬ k.Recognises (err.wrap (step.context key)) := h
  rw [Classifier.verdict_of_not_recognises hwrap, mentions_report]

/-- Two keys are told apart by the verdict only by what is in them. -/
theorem verdict_eq_iff {key' : String} :
    k.verdict (err.wrap (step.context key)) = k.verdict (err.wrap (step.context key')) ↔
      step = .copyObject ∨ k.Recognises err ∨ Mentions k.signatures err.text ∨
        (Mentions k.signatures (goQuote key) ↔ Mentions k.signatures (goQuote key')) := by
  by_cases hknown : k.Recognises err
  · apply iff_of_true
    · exact Classifier.verdict_of_recognises hknown rfl
    · exact .inr (.inl hknown)
  rw [Bool.eq_iff_iff, verdict_iff hknown, verdict_iff hknown]
  by_cases hstep : step = .copyObject
  · simp only [hstep, ne_eq, not_true_eq_false, false_and, true_or]
  by_cases hfound : Mentions k.signatures err.text
  · simp only [hfound, or_true, true_or]
  · simp only [hstep, hknown, hfound, ne_eq, not_false_eq_true, true_and, or_false, false_or]

end Quoted

/-! ## Two names -/

/-- **Two names of one file and one failure of the storage**: every classifier gives the two
attempts one verdict, unless the key is reported and only one of the two quoted keys has a
signature. -/
theorem storage_verdict_of_names_iff {env : Env} {job : Job} {ordinal : Int} {f₁ f₂ path : String}
    {step : DownloadStep} {err : GoError} {tr₁ tr₂ : Trace} {r₁ r₂ : Except GoError Unit}
    (hrun₁ : (process env job).Runs tr₁ r₁) (hrun₂ : (process env job).Runs tr₂ r₂)
    (hends₁ : EndsWith step (OctoConv.inputKey job.id ordinal f₁) path err tr₁)
    (hends₂ : EndsWith step (OctoConv.inputKey job.id ordinal f₂) path err tr₂) :
    ∃ e₁ e₂, r₁ = .error e₁ ∧ r₂ = .error e₂ ∧ ∀ k : Classifier,
      (k.verdict e₁ = k.verdict e₂ ↔
        step = .copyObject ∨ k.Recognises err ∨ Mentions k.signatures err.text ∨
          (Mentions k.signatures (goQuote (OctoConv.inputKey job.id ordinal f₁)) ↔
            Mentions k.signatures (goQuote (OctoConv.inputKey job.id ordinal f₂)))) := by
  have hreports := Prog.always_iff.mp (process_reports env job)
  refine ⟨_, _, hreports tr₁ r₁ hrun₁ _ _ _ _ hends₁, hreports tr₂ r₂ hrun₂ _ _ _ _ hends₂, ?_⟩
  intro k
  exact verdict_eq_iff

/-! ### An attempt whose download fails -/

/-- A deployment with a converter for everything. -/
def convertingEnv : Env := .default (fun _ _ => true) (fun _ _ => none) fun _ => "image/webp"

/-- An image under the name that the client gave it. -/
def namedInput (f : String) : Input := ⟨0, OctoConv.inputKey 7 0 f, f, "png", 1024, "image/png"⟩

/-- Its job. -/
def imageJob : Job :=
  DB.newJob 0 7 ⟨7, 3, "convert", .image, "png", "webp", "", [], "", 0, namedInput "photo.png"⟩

/-- The storage cannot be reached. -/
def connectionRefused : GoError := .new "dial tcp 10.0.0.7:9000: connect: connection refused"

/-- An attempt that cannot reach the storage. -/
def refusedTrace (f : String) : Trace :=
  [⟨.inputs 7, .ok [namedInput f]⟩, ⟨.host (.mkdirTemp ("octoconv-" ++ UUID.text 7 ++ "-")), .ok ()⟩,
    ⟨.host (.getObject (OctoConv.inputKey 7 0 f)), .ok ()⟩,
    ⟨.host (.statObject (OctoConv.inputKey 7 0 f)), .error connectionRefused⟩]

/-- The attempt whose stat is refused. -/
theorem refused_runs (f : String) : ∃ r, (process convertingEnv imageJob).Runs (refusedTrace f) r :=
  ⟨_, .call (.call (.call (.call (.ret _))))⟩

/-- It ends with that refusal. -/
theorem refused_ends (f : String) : EndsWith .statObject (OctoConv.inputKey 7 0 f) "in.png"
    connectionRefused (refusedTrace f) := rfl

/-- Two plain names. -/
theorem storage_verdict_of_plain_names :
    ∃ r₁ r₂, (process convertingEnv imageJob).Runs (refusedTrace "photo.png") r₁ ∧
      (process convertingEnv imageJob).Runs (refusedTrace "holiday.png") r₂ ∧
      ∃ e₁ e₂, r₁ = .error e₁ ∧ r₂ = .error e₂ ∧ ∀ k : Classifier,
        (k.verdict e₁ = k.verdict e₂ ↔
          DownloadStep.statObject = .copyObject ∨ k.Recognises connectionRefused ∨
            Mentions k.signatures connectionRefused.text ∨
            (Mentions k.signatures (goQuote (OctoConv.inputKey 7 0 "photo.png")) ↔
              Mentions k.signatures (goQuote (OctoConv.inputKey 7 0 "holiday.png")))) := by
  obtain ⟨r₁, hrun₁⟩ := refused_runs "photo.png"
  obtain ⟨r₂, hrun₂⟩ := refused_runs "holiday.png"
  refine ⟨r₁, r₂, hrun₁, hrun₂, ?_⟩
  exact @storage_verdict_of_names_iff convertingEnv imageJob 0 "photo.png" "holiday.png" "in.png"
    .statObject connectionRefused _ _ r₁ r₂ hrun₁ hrun₂ (refused_ends "photo.png")
    (refused_ends "holiday.png")

/-- A name with a signature in it: the storage cannot be reached, and the job is given up at once. -/
theorem storage_verdict_by_name :
    ¬ ∀ (env : Env) (job : Job) (ordinal : Int) (f₁ f₂ path : String) (step : DownloadStep)
        (err : GoError) (tr₁ tr₂ : Trace) (r₁ r₂ : Except GoError Unit),
      err.is .noSuchKey = false → (process env job).Runs tr₁ r₁ → (process env job).Runs tr₂ r₂ →
      EndsWith step (OctoConv.inputKey job.id ordinal f₁) path err tr₁ →
      EndsWith step (OctoConv.inputKey job.id ordinal f₂) path err tr₂ →
      ∃ e₁ e₂, r₁ = .error e₁ ∧ r₂ = .error e₂ ∧ ∀ k : Classifier, k.verdict e₁ = k.verdict e₂ := by
  intro hclaim
  obtain ⟨r₁, hrun₁⟩ := refused_runs "photo.png"
  obtain ⟨r₂, hrun₂⟩ := refused_runs "no converter for.png"
  obtain ⟨e₁, e₂, he₁, he₂, hsame⟩ := hclaim convertingEnv imageJob 0 "photo.png" "no converter for.png"
    "in.png" .statObject connectionRefused _ _ r₁ r₂ rfl hrun₁ hrun₂ (refused_ends _) (refused_ends _)
  have hreports := Prog.always_iff.mp (process_reports convertingEnv imageJob)
  obtain rfl := Except.error.inj (he₁.symm.trans (hreports _ _ hrun₁ _ _ _ _ (refused_ends _)))
  obtain rfl := Except.error.inj (he₂.symm.trans (hreports _ _ hrun₂ _ _ _ _ (refused_ends _)))
  have hplain : ¬ Mentions sharedSignatures (goQuote (OctoConv.inputKey 7 0 "photo.png")) := by
    decide +kernel
  have hnamed : Mentions sharedSignatures (goQuote (OctoConv.inputKey 7 0 "no converter for.png")) := by
    decide +kernel
  have hrefused : ¬ Mentions sharedSignatures connectionRefused.text := by decide +kernel
  have hknown : ¬ Classifier.image.Recognises connectionRefused := by
    rintro ⟨t, -, ht⟩
    exact absurd ht Bool.false_ne_true
  rcases verdict_eq_iff.mp (hsame .image) with h | h | h | h
  · exact absurd h (by simp)
  · exact hknown h
  · exact hrefused h
  · exact hplain (h.mpr hnamed)

end OctoConv.Worker
