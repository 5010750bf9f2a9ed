import OctoConv.Convert.Libreoffice
import OctoConv.Convert.Rendered

/-!
# The html converter

chromium prints a copy of the page, next to its output: the copy carries the policy that stops scripts
and the style of the options, and the network is closed to what is printed. The page itself is never
changed.

Source: `internal/convert/chromium.go` ChromiumConverter.Convert.

## Main results

* `printDocument_ends` — how a conversion ends, whatever chromium and the disk do.
* `html_printed` — whatever chromium is started on, is the rendered copy, without a network.
-/

namespace OctoConv

open Conc Machine

/-! ## Conversion -/

/-- Where the copy is written.

Source: `chromium.go` ChromiumConverter.Convert -/
def renderedPath (outPath : String) : String := UnixPath.join [UnixPath.dir outPath, "rendered.html"]

/-- Source: `chromium.go` ChromiumConverter.Convert -/
def chromiumArgs (outPath : String) : List String :=
  ["--headless", "--disable-gpu", "--no-sandbox", "--disable-dev-shm-usage", "--no-pdf-header-footer",
    "--user-data-dir=" ++ UnixPath.join [UnixPath.dir outPath, "chrome-profile"],
    "--proxy-server=127.0.0.1:9", "--proxy-bypass-list=<-loopback>",
    "--host-resolver-rules=MAP * ~NOTFOUND", "--print-to-pdf=" ++ outPath,
    "file://" ++ renderedPath outPath]

/-- How a conversion that has not succeeded ends. A page can be cut outside of its bounds. -/
inductive PrintError
  | panicked
  | failed (err : GoError)

/-- Source: `chromium.go` ChromiumConverter.Convert -/
def printDocument (codec : FloatCodec) (inPath outPath : String) (opts : Opts) :
    OnDisk (Except PrintError Unit) :=
  match htmlOptsFromMap codec opts with
  | .error err => .ret (.error (.failed (err.wrap "chromium")))
  | .ok o =>
    (Prog.mapError (fun why => .failed (osError "chromium: read input" why))
      (disk (.readFile inPath))).andThen fun input =>
    match rendered input o with
    | none => .ret (.error .panicked)
    | some copy =>
      (Prog.mapError (fun why => .failed (osError "chromium: write rendered html" why))
        (disk (.writeFile (renderedPath outPath) copy))).andThen fun _ =>
      (Prog.mapError (fun err => .failed (err.wrap "chromium"))
        (runOn "chromium-headless-shell" (chromiumArgs outPath))).andThen fun _ =>
      Prog.mapError (fun err => .failed (err.wrap "chromium")) (validatePDF outPath)

/-! ## How a conversion ends -/

/-- Why a conversion fails. -/
inductive PrintFailure
  | options (err : GoError)
  | read (why : String)
  | write (why : String)
  | chromium (f : RunFailure)
  | output (f : OutputFailure)

/-- The error that it is reported as. -/
def PrintFailure.err : PrintFailure → GoError
  | options err => err.wrap "chromium"
  | read why => osError "chromium: read input" why
  | write why => osError "chromium: write rendered html" why
  | chromium f => (f.err "chromium-headless-shell").wrap "chromium"
  | output f => f.err.wrap "chromium"

/-- A run of chromium on the disk that was found, with the rendered copy of the page written to it; the
network is closed to it. -/
def PrintRun (codec : FloatCodec) (inPath outPath : String) (opts : Opts) (d : Disk) (x : Ran) : Prop :=
  x.name = "chromium-headless-shell" ∧ x.args = chromiumArgs outPath ∧
    ∃ o input copy, htmlOptsFromMap codec opts = .ok o ∧ d.files inPath = some input ∧
      rendered input o = some copy ∧ x.files = (d.set (renderedPath outPath) (some copy)).files

/-- What the run shows of it. -/
def PrintFailure.Shown (host : DocHost) (inPath outPath : String) (opts : Opts) (d d' : Disk) :
    PrintFailure → Prop
  | options err => d' = d ∧ htmlOptsFromMap host.codec opts = .error err
  | read why => d' = d.refuse (.readFile inPath) why
  | write why => ∃ copy left,
      d' = (d.set (renderedPath outPath) left).refuse (.writeFile (renderedPath outPath) copy) why
  | chromium f => ∃ x, PrintRun host.codec inPath outPath opts d x ∧ x.failure = some f ∧
      d'.ran = d.ran ++ [x]
  | output f => ∃ x d₁, PrintRun host.codec inPath outPath opts d x ∧ x.failure = none ∧
      d₁.ran = d.ran ++ [x] ∧ d'.ran = d.ran ++ [x] ∧ f.OfPDF ∧ f.Shown host outPath "pdf" d₁ d'

/-- What is on the disk and on record after a conversion that has succeeded. -/
def PrintSucceeded (host : DocHost) (inPath outPath : String) (opts : Opts) (d d' : Disk) : Prop :=
  ∃ x, PrintRun host.codec inPath outPath opts d x ∧ x.failure = none ∧ d'.ran = d.ran ++ [x] ∧
    ∃ b, d'.files outPath = some b ∧ pdfMagic <+: b

/-- **How a conversion ends**, whatever chromium and the disk do. -/
theorem printDocument_ends (host : DocHost) (inPath outPath : String) (opts : Opts) (d : Disk) :
    (printDocument host.codec inPath outPath opts).Ends d fun r d' =>
      match r with
      | .ok _ => PrintSucceeded host inPath outPath opts d d'
      | .error .panicked => d' = d ∧ ∃ o input, htmlOptsFromMap host.codec opts = .ok o ∧
          d.files inPath = some input ∧ rendered input o = none
      | .error (.failed e) =>
        ∃ f : PrintFailure, f.Shown host inPath outPath opts d d' ∧ e = f.err := by
  unfold printDocument
  rcases hopts : htmlOptsFromMap host.codec opts with err | o
  · exact alone_ret.mpr ⟨.options err, ⟨rfl, hopts⟩, rfl⟩
  dsimp only
  apply ends_stage (ends_readFile inPath d)
  · exact fun why => ⟨.read why, rfl, rfl⟩
  rintro input hinput
  rcases hcopy : rendered input o with _ | copy
  · exact alone_ret.mpr ⟨rfl, o, input, rfl, hinput, hcopy⟩
  dsimp only
  apply (ends_writeFile _ _ _).mapError.andThen
  · rintro e d₁ ⟨r, ⟨rfl, -⟩ | ⟨why, left, rfl, hrefused⟩, hr⟩
    · exact nomatch hr
    · obtain rfl := Except.error.inj hr
      exact ⟨.write why, ⟨copy, left, hrefused⟩, rfl⟩
  rintro _ d₁ ⟨r, ⟨rfl, rfl⟩ | ⟨why, left, rfl, -⟩, hr⟩
  swap
  · exact nomatch hr
  have hrun : ∀ out failure left, PrintRun host.codec inPath outPath opts d
      ⟨"chromium-headless-shell", chromiumArgs outPath,
        (d.set (renderedPath outPath) (some copy)).files, out, failure, left⟩ := by
    intro out failure left
    refine ⟨rfl, rfl, o, input, copy, hopts, hinput, hcopy, ?_⟩
    dsimp only
  apply (ends_runOn "chromium-headless-shell" (chromiumArgs outPath) _).mapError.andThen
  · rintro e d₂ ⟨r, ⟨out, left, ⟨rfl, -⟩ | ⟨f, rfl, hafter⟩⟩, hr⟩
    · exact nomatch hr
    · obtain rfl := Except.error.inj hr
      refine ⟨.chromium f, ⟨_, hrun out (some f) left, rfl, ?_⟩, rfl⟩
      rw [hafter, Disk.after_ran, Disk.set_ran]
  rintro _ d₂ ⟨r, ⟨out, left, ⟨rfl, hafter⟩ | ⟨f, rfl, -⟩⟩, hr⟩
  swap
  · exact nomatch hr
  have hran := congrArg Disk.ran hafter
  rw [Disk.after_ran, Disk.set_ran] at hran
  apply (validatePDF_ends host outPath "pdf" d₂).mapError.mono
  rintro _ d₃ ⟨r, hr, rfl⟩
  rcases r with e | _
  · obtain ⟨f, hpdf, hf, rfl⟩ := hr
    refine ⟨.output f, ⟨_, d₂, hrun out none left, rfl, hran, ?_, hpdf, hf⟩, rfl⟩
    exact (hf.ran hpdf).trans hran
  · obtain ⟨rfl, hvalid⟩ := hr
    exact ⟨_, hrun out none left, rfl, hran, hvalid⟩

/-- **What is printed.** However a conversion goes, chromium is started once at most, and never on the
page itself: it gets the copy with the policy and the style, and no network. A conversion is reported as
done only if chromium has not failed, and has left a PDF where it belongs. -/
theorem html_printed (host : DocHost) (inPath outPath : String) (opts : Opts) (d : Disk) :
    (printDocument host.codec inPath outPath opts).Ends d fun r d' =>
      (d'.ran = d.ran ∨
        ∃ x, PrintRun host.codec inPath outPath opts d x ∧ d'.ran = d.ran ++ [x]) ∧
      (r = .ok () → PrintSucceeded host inPath outPath opts d d') := by
  apply (printDocument_ends host inPath outPath opts d).mono
  rintro r d' h
  rcases r with (_ | e) | _
  · exact ⟨.inl (congrArg Disk.ran h.1), nofun⟩
  · obtain ⟨f, hf, -⟩ := h
    refine ⟨?_, nofun⟩
    rcases f with err | why | why | f | f
    · exact .inl (congrArg Disk.ran hf.1)
    · have hrefused : d' = d.refuse (.readFile inPath) why := hf
      rw [hrefused, Disk.refuse_ran]
      exact .inl rfl
    · obtain ⟨copy, left, hrefused⟩ := hf
      rw [hrefused, Disk.refuse_ran, Disk.set_ran]
      exact .inl rfl
    · obtain ⟨x, hx, -, hran⟩ := hf
      exact .inr ⟨x, hx, hran⟩
    · obtain ⟨x, d₁, hx, -, -, hran, -⟩ := hf
      exact .inr ⟨x, hx, hran⟩
  · refine ⟨?_, fun _ => h⟩
    obtain ⟨x, hx, -, hran, -⟩ := h
    exact .inr ⟨x, hx, hran⟩

end OctoConv
