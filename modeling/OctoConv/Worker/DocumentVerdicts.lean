import OctoConv.Convert.AvFailures
import OctoConv.Convert.Print
import OctoConv.Worker.Signatures

/-!
# The verdict on a failed attempt of the document and the html engine

These two engines share a classifier: running out of time is final, and everything else is left to a
search of the text. What the converter itself has found wrong is reported in words that the search
knows; what the system, the engine or the options said is searched as it is. A conversion that is
canceled while soffice or chromium runs is tried again, but one that is canceled while veraPDF runs is
given up: the words around that error are known to the search.

Source: `internal/worker/worker.go`, `internal/convert/libreoffice.go`, `internal/convert/chromium.go`.

## Main results

* `document_verdict` — the verdict on every conversion of the document engine that fails.
* `html_verdict` — the same for the html engine, whose panics get none.
-/

namespace OctoConv

open Conc Machine

namespace Worker

/-- What a foreign text says may be a signature. -/
def Says (text : String) : Prop := Mentions sharedSignatures text

/-- A command that fails is given up if it ran out of time, or if what was said is a signature. -/
def CommandFinal : RunFailure → Prop
  | .start why => Says why
  | .killed .deadlineExceeded => True
  | .killed .canceled => False
  | .exit status stderr => Says status ∨ Says stderr

/-- An output that is not what was asked for is given up, and so is one that is not there or about
which veraPDF has said nothing, for whatever reason, be it a cancellation. What goes wrong while it is
read is not held against it. -/
def OutputFinal : OutputFailure → Prop
  | .openFile why => Says why
  | .header why => Says why
  | .read why => Says why
  | _ => True

/-- The failures of a document that are given up. -/
def DocFinal : DocFailure → Prop
  | .mkdir why => Says why
  | .options err => Says err.text
  | .soffice f => CommandFinal f
  | .rename why => Says why
  | .output f => OutputFinal f
  | _ => True

/-- The failures of a page that are given up. -/
def PrintFinal : PrintFailure → Prop
  | .options err => Says err.text
  | .read why => Says why
  | .write why => Says why
  | .chromium f => CommandFinal f
  | .output f => OutputFinal f

/-! ## The shared classifier, and contexts -/

variable {e : GoError} {context text why : String}

/-- What the classifier asks of an error. -/
theorem timeoutIsTerminal_iff : timeoutIsTerminal e = true ↔
    e.is .deadlineExceeded = true ∨ e.is .noSuchKey = true ∨ Says e.text := by
  rw [timeoutIsTerminal, Bool.or_eq_true, isTerminal_iff]
  rfl

/-- A context that says nothing leaves the verdict as it is. -/
theorem timeout_wrap (h : ¬ Says context) :
    timeoutIsTerminal (e.wrap context) = true ↔ timeoutIsTerminal e = true := by
  rw [timeoutIsTerminal_iff, timeoutIsTerminal_iff, Says, mentions_wrap h]
  exact Iff.rfl

/-- A context that says something is enough. -/
theorem timeout_context (h : Says context) : timeoutIsTerminal (e.wrap context) = true := by
  refine timeoutIsTerminal_iff.mpr (.inr (.inr ?_))
  rw [GoError.wrap, Says, mentions_colon]
  exact .inl h

/-- Without a sentinel the text decides. -/
theorem timeout_plain (h : e.chain = []) : timeoutIsTerminal e = true ↔ Says e.text :=
  Classifier.verdict_of_not_recognises (k := .document) (Classifier.not_recognises_of_plain h)

/-- The text of a new error decides. -/
theorem timeout_new : timeoutIsTerminal (GoError.new text) = true ↔ Says text := timeout_plain rfl

/-- An error of the operating system. -/
theorem timeout_os (h : ¬ Says context) : timeoutIsTerminal (osError context why) = true ↔ Says why :=
  (timeout_wrap h).trans timeout_new

/-- A text that begins with something that says enough. -/
theorem says_append (h : Says text) (rest : String) : Says (text ++ rest) := Mentions.append h rest

/-- The contexts of the two converters that say nothing. -/
theorem not_says_contexts :
    ∀ context ∈ ["convert", "libreoffice", "chromium", "libreoffice: mkdir profile",
    "libreoffice: rename output", "libreoffice: open output", "libreoffice: read output header",
    "libreoffice: read output for PDF/A check", "chromium: read input",
    "chromium: write rendered html"], ¬ Says context := by
  unfold Says
  decide +kernel

/-- Neither does the name of an engine that has failed. -/
theorem not_says_engines : ∀ name ∈ ["soffice", "chromium-headless-shell"],
    ¬ Says ("start " ++ name) ∧ ¬ Says (name ++ " failed") ∧ ¬ Says (name ++ " killed") := by
  unfold Says
  decide +kernel

/-- What the converters say themselves. -/
theorem says_contexts : ∀ context ∈ ["libreoffice: stat output", "libreoffice: output is empty",
    "libreoffice: output missing %PDF- magic bytes",
    "libreoffice: output missing PDF/A OutputIntent marker",
    "libreoffice: output does not match expected container format ",
    "verapdf: pdf/a validation error", "verapdf: pdf/a non-compliant: ",
    "libreoffice: pdf_profile requested for non-pdf target ", "no export filter for ",
    "libreoffice: produced no output file for "], Says context := by
  unfold Says
  decide +kernel

/-! ## The verdicts -/

/-- The verdict on a command. -/
theorem command_verdict {name : String} (hname : name ∈ ["soffice", "chromium-headless-shell"])
    (f : RunFailure) : timeoutIsTerminal (f.err name) = true ↔ CommandFinal f := by
  obtain ⟨hstart, hfailed, hkilled⟩ := not_says_engines name hname
  rcases f with why | cause | ⟨status, stderr⟩
  · refine timeout_new.trans ?_
    rw [Says, mentions_colon]
    exact or_iff_right hstart
  · refine (timeout_wrap hkilled).trans ?_
    rcases cause with _ | _
    · exact iff_of_true (by decide +kernel) trivial
    · refine iff_of_false ?_ id
      rw [ContextEnd.err, timeout_plain rfl, Says]
      decide +kernel
  · have htext : name ++ " failed: " ++ status = name ++ " failed" ++ ": " ++ status := by
      rw [String.append_assoc, String.append_assoc, String.append_assoc]
      rfl
    refine timeout_new.trans ?_
    rw [Says, mentions_colon, htext, mentions_colon]
    exact or_congr_left (or_iff_right hfailed)

/-- The verdict on an output that is refused. -/
theorem output_verdict (f : OutputFailure) : timeoutIsTerminal f.err = true ↔ OutputFinal f := by
  have hnot : ∀ context ∈ _, ¬ Says context := not_says_contexts
  have htells : ∀ context ∈ _, Says context := says_contexts
  rcases f with why | _ | _ | why | why | why | _ | target | f | err | summary
  · exact iff_of_true (timeout_context (htells "libreoffice: stat output" (by simp))) trivial
  · exact iff_of_true (timeout_new.mpr (htells "libreoffice: output is empty" (by simp))) trivial
  · exact iff_of_true
      (timeout_new.mpr (htells "libreoffice: output missing %PDF- magic bytes" (by simp)))
      trivial
  · exact timeout_os (hnot "libreoffice: open output" (by simp))
  · exact timeout_os (hnot "libreoffice: read output header" (by simp))
  · exact timeout_os (hnot "libreoffice: read output for PDF/A check" (by simp))
  · refine iff_of_true (timeout_new.mpr ?_) trivial
    exact htells "libreoffice: output missing PDF/A OutputIntent marker" (by simp)
  · refine iff_of_true (timeout_new.mpr (says_append ?_ target)) trivial
    exact htells "libreoffice: output does not match expected container format " (by simp)
  · refine iff_of_true ((timeout_wrap (hnot "libreoffice" (by simp))).mpr (timeout_context ?_)) trivial
    exact htells "verapdf: pdf/a validation error" (by simp)
  · refine iff_of_true ((timeout_wrap (hnot "libreoffice" (by simp))).mpr (timeout_context ?_)) trivial
    exact htells "verapdf: pdf/a validation error" (by simp)
  · refine iff_of_true ((timeout_wrap (hnot "libreoffice" (by simp))).mpr (timeout_new.mpr ?_)) trivial
    exact says_append (htells "verapdf: pdf/a non-compliant: " (by simp)) _

/-- The verdict on a document. -/
theorem doc_verdict {host : DocHost} {inPath outPath : String} {opts : Opts} {d d' : Disk}
    {f : DocFailure} (h : f.Shown host inPath outPath opts d d') :
    timeoutIsTerminal f.err = true ↔ DocFinal f := by
  have hnot : ∀ context ∈ _, ¬ Says context := not_says_contexts
  have htells : ∀ context ∈ _, Says context := says_contexts
  rcases f with why | err | target | ⟨source, target⟩ | f | ⟨target, why⟩ | why | f
  · exact timeout_os (hnot "libreoffice: mkdir profile" (by simp))
  · apply (timeout_wrap (hnot "libreoffice" (by simp))).trans
    apply timeout_plain
    refine optsFromMap_plain ?_ h.2
    intro o e hc
    simp only [docSchema] at hc
    split_ifs at hc
    rw [← Option.some.inj hc]
    rfl
  · refine iff_of_true (timeout_new.mpr (says_append ?_ _)) trivial
    exact htells "libreoffice: pdf_profile requested for non-pdf target " (by simp)
  · refine iff_of_true ((timeout_wrap (hnot "libreoffice" (by simp))).mpr (timeout_new.mpr ?_)) trivial
    rw [String.append_assoc, String.append_assoc]
    exact says_append (htells "no export filter for " (by simp)) _
  · apply (timeout_wrap (hnot "libreoffice" (by simp))).trans
    exact command_verdict (by simp) f
  · refine iff_of_true (timeout_new.mpr ?_) trivial
    rw [String.append_assoc, String.append_assoc]
    exact says_append (htells "libreoffice: produced no output file for " (by simp)) _
  · exact timeout_os (hnot "libreoffice: rename output" (by simp))
  · exact output_verdict f

/-- The verdict on a page. -/
theorem print_verdict {host : DocHost} {inPath outPath : String} {opts : Opts} {d d' : Disk}
    {f : PrintFailure} (h : f.Shown host inPath outPath opts d d') :
    timeoutIsTerminal f.err = true ↔ PrintFinal f := by
  have hnot : ∀ context ∈ _, ¬ Says context := not_says_contexts
  rcases f with err | why | why | f | f
  · apply (timeout_wrap (hnot "chromium" (by simp))).trans
    apply timeout_plain
    refine optsFromMap_plain ?_ h.2
    intro o e hc
    simp only [htmlSchema] at hc
    split_ifs at hc
    · rw [← Option.some.inj hc]
      rfl
    · split at hc
      · cases hc
      · split_ifs at hc
        rw [← Option.some.inj hc]
        rfl
  · exact timeout_os (hnot "chromium: read input" (by simp))
  · exact timeout_os (hnot "chromium: write rendered html" (by simp))
  · apply (timeout_wrap (hnot "chromium" (by simp))).trans
    exact command_verdict (by simp) f
  · exact (timeout_wrap (hnot "chromium" (by simp))).trans (output_verdict f)

/-- **Which document conversions are given up.** Every conversion that fails, fails in one of the
ways of `DocFailure` and shows it, and it is given up exactly if that way is final. -/
theorem document_verdict (host : DocHost) (inPath outPath : String) (opts : Opts) (d : Disk) :
    (convertDocument host inPath outPath opts).Ends d fun r d' => ∀ e, r = .error e →
      ∃ f : DocFailure, f.Shown host inPath outPath opts d d' ∧ e = f.err ∧
        (isDocumentTerminal (e.wrap "convert") = true ↔ DocFinal f) := by
  apply (convertDocument_ends host inPath outPath opts d).mono
  rintro r d' h e rfl
  obtain ⟨f, hf, rfl⟩ := h
  exact ⟨f, hf, rfl, (timeout_wrap (not_says_contexts "convert" (by simp))).trans (doc_verdict hf)⟩

/-- The attempt has failed, and is not repeated. -/
def givenUp : Except GoError Unit → Bool
  | .ok _ => false
  | .error e => isDocumentTerminal (e.wrap "convert")

/-- A conversion that is canceled while veraPDF runs is given up. -/
theorem document_verdict_canceled :
    ∃ e d', diskMachine.replay (convertDocument exampleDocHost "/w/in.docx" "/w/out.pdf" archivalOpts)
        uploadDisk (archivalAnswers { calm with failure := some (.killed .canceled) }) =
          some (.error e, d') ∧
      isDocumentTerminal (e.wrap "convert") = true ∧
        ∃ f : DocFailure, f.Shown exampleDocHost "/w/in.docx" "/w/out.pdf" archivalOpts uploadDisk d' ∧
          e = f.err ∧ DocFinal f := by
  have hcanceled : ((diskMachine.replay
      (convertDocument exampleDocHost "/w/in.docx" "/w/out.pdf" archivalOpts) uploadDisk
      (archivalAnswers { calm with failure := some (.killed .canceled) })).map fun x =>
        givenUp x.1) = some true := by
    decide +kernel
  obtain ⟨⟨r, d'⟩, hrun, hfinal⟩ := Option.map_eq_some_iff.mp hcanceled
  rcases r with e | _
  swap
  · exact nomatch hfinal
  obtain ⟨f, hshown, herr, hiff⟩ := (document_verdict exampleDocHost "/w/in.docx" "/w/out.pdf"
    archivalOpts uploadDisk).of_replay (fun _ _ => trivial) hrun e rfl
  exact ⟨e, d', hrun, hfinal, f, hshown, herr, hiff.mp hfinal⟩

/-- **Which html conversions are given up.** A page on which the injection panics returns no error,
and gets no verdict here. -/
theorem html_verdict (host : DocHost) (inPath outPath : String) (opts : Opts) (d : Disk) :
    (printDocument host.codec inPath outPath opts).Ends d fun r d' => ∀ e, r = .error (.failed e) →
      ∃ f : PrintFailure, f.Shown host inPath outPath opts d d' ∧ e = f.err ∧
        (isHTMLTerminal (e.wrap "convert") = true ↔ PrintFinal f) := by
  apply (printDocument_ends host inPath outPath opts d).mono
  rintro r d' h e rfl
  obtain ⟨f, hf, rfl⟩ := h
  exact ⟨f, hf, rfl, (timeout_wrap (not_says_contexts "convert" (by simp))).trans (print_verdict hf)⟩

end Worker

end OctoConv
