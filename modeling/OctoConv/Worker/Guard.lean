import OctoConv.Convert.Av
import OctoConv.Convert.Whisper

/-!
# The engines behind their guard

What an attempt does between the download and the upload, down to the tools that are run. For the
audio engine the duration of the source is probed before the converter is called; the converter of
the av engine has a guard of its own.

Source: `internal/worker/worker.go`.

## Main results

* `enforceMaxDuration_always` — the guard lets a source through whose duration was probed and is
  allowed.
-/

namespace OctoConv.Worker

open Conc

/-- The error of the guard is returned as it is; the one of the converter is wrapped.

Source: `worker.go` enforceAudioGuardBeforeConvert, process -/
def enforceAudioGuardBeforeConvert (text : FloatText) (engine : Engine) (inPath : String)
    (audioMaxDuration : Int) (convert : Tool (Except GoError Unit)) : Tool (Except GoError Unit) :=
  let convert := Prog.mapError (GoError.wrap "convert") convert
  if engine = .audio then
    (enforceMaxDuration text inPath audioMaxDuration).andThen fun _ => convert
  else convert

/-- How the guard of the audio engine fails. -/
inductive GuardFailure
  | duration (f : DurationFailure)
  /-- The source is longer than the ceiling. -/
  | exceeded (d max : Int)

/-- The error that the failure is reported as. -/
def GuardFailure.err (text : FloatText) : GuardFailure → GoError
  | .duration f => f.err text
  | .exceeded d max => sourceTooLong d max

/-- The answer of ffprobe that the failure is seen from. -/
def GuardFailure.Shown (text : FloatText) (max : Int) (answer : Except RunFailure String) :
    GuardFailure → Prop
  | .duration f => f.Shown text answer
  | .exceeded d max' => max' = max ∧ max < d ∧
      ∃ raw, answer = .ok raw ∧ parseProbedDuration text raw = .ok d

/-- The guard runs ffprobe once: it fails as the answer shows, or the duration is allowed. -/
theorem enforceMaxDuration_always (text : FloatText) (path : String) (max : Int) :
    (enforceMaxDuration text path max).Always fun tr r =>
      ∃ answer : Except RunFailure String, tr = [⟨.run "ffprobe" (ffprobeDurationArgs path), answer⟩] ∧
        (∀ e, r = .error e → ∃ f : GuardFailure, f.Shown text max answer ∧ e = f.err text) ∧
        (r = .ok () → ∃ raw d, answer = .ok raw ∧ parseProbedDuration text raw = .ok d ∧ d ≤ max) := by
  apply (probeDuration_always text path).andThen
  · rintro tr e ⟨answer, rfl, herr, -⟩
    refine ⟨answer, rfl, ?_, by simp⟩
    intro e' he
    obtain ⟨f, hshown, rfl⟩ := herr e rfl
    exact ⟨.duration f, hshown, (Except.error.inj he).symm⟩
  · rintro tr d ⟨answer, rfl, -, hok⟩
    obtain ⟨raw, rfl, hparse⟩ := hok d rfl
    rw [Prog.always_ret, List.append_nil]
    refine ⟨.ok raw, rfl, ?_, ?_⟩
    · intro e he
      obtain ⟨hlt, rfl⟩ := enforceMaxDurationOf_error he
      exact ⟨.exceeded d max, ⟨rfl, hlt, raw, rfl, hparse⟩, rfl⟩
    · intro hallowed
      exact ⟨raw, d, rfl, hparse, enforceMaxDurationOf_ok hallowed⟩

end OctoConv.Worker
