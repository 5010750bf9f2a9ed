import OctoConv.Api.CreateJob

/-!
# The preset of a job

A create request that uses a preset resolves it twice, before the upload and after it, and anybody
may create, update and deactivate presets in between. Versions are never changed, so the second
resolution, which compares ids and versions only, meets the very row of the first.

Source: `internal/api/handlers.go` handleCreateJob, `internal/presets/repo.go`.

## Main results

* `handleCreateJob_pinned` — the job has the name, the version, the target and the options of one
  row, which was the effective preset both times.
-/

namespace OctoConv.Api

open Conc Presets

/-! ## The presets while a request runs -/

/-- What others do to the presets between two calls of a request. -/
def Others (t t' : PresetTable) : Prop := ∃ ops, t' = Presets.run t ops

/-- `errors.Is` on what Resolve returns. -/
def resolvedOf : Except GoError Preset → Resolved
  | .ok p => .found p
  | .error _ => .notFound

/-- Resolve answers from the table as it is, or the database fails. The other calls may answer
anything. -/
def Answers (t : PresetTable) : (c : RequestCall) → c.Result → Prop
  | .resolve clientID name, r => r = .failed ∨ r = resolvedOf (Presets.resolve t clientID name)
  | .upload .., _ => True
  | .shared _, _ => True

/-- The calls of a request with the presets they meet. -/
abbrev Trace : Type := List (PresetTable × (c : RequestCall) × c.Result)

/-- A request runs while others use the presets. -/
abbrev Runs {α : Type} (t : PresetTable) (p : Step α) (tr : Trace) (a : Except Exit α) : Prop :=
  Prog.RunsIn Others Answers t p tr a

/-- The resolutions of a run: the table, the client and the name. -/
def resolutions (tr : Trace) : List (PresetTable × UUID × String) :=
  tr.filterMap fun
    | (t, ⟨.resolve clientID name, _⟩) => some (t, clientID, name)
    | _ => none

/-- The job is what the row asks for. -/
structure Pinned (codec : FloatCodec) (row : Row) (j : Job) : Prop where
  presetName : j.presetName = some row.name
  presetVersion : j.presetVersion = some (row.version : Int)
  targetFormat : j.targetFormat = normalizeFormat (deref row.targetFormat)
  opts : normalizeOpts codec j.engine j.sourceFormat j.targetFormat
    (if row.options.length = 0 then "" else marshalMap codec row.options) = .ok j.opts

variable {s : Server} {clientID newID : UUID} {f : Fields} {c : Chosen} {i : Inspected}
  {t t' u : PresetTable} {row : Row} {name : String} {tr : Trace}

/-- What others do twice, others do. -/
theorem Others.trans {t'' : PresetTable} (h : Others t t') (h' : Others t' t'') : Others t t'' := by
  obtain ⟨ops, rfl⟩ := h
  obtain ⟨ops', rfl⟩ := h'
  exact ⟨ops ++ ops', (List.foldl_append ..).symm⟩

/-- Others lose no preset. -/
theorem Others.keeps (h : Others t t') : Presets.Keeps t t' := by
  obtain ⟨ops, rfl⟩ := h
  exact keeps_run t ops

/-- Others keep the invariant. -/
theorem Others.inv (h : Others t t') (hinv : Presets.Inv t) : Presets.Inv t' := by
  obtain ⟨ops, rfl⟩ := h
  exact inv_run hinv ops

/-- Only a row is found. -/
theorem Answers.found {p : Preset} (h : Answers t (.resolve clientID name) (.found p)) :
    ∃ row, effectiveRow? t (some clientID) name = some row ∧ p = row.resolved := by
  rcases h with h | h
  · cases h
  · unfold Presets.resolve at h
    split at h
    · rename_i row hrow
      exact ⟨row, hrow, Resolved.found.inj h⟩
    · cases h

/-- The row that counts is active, and of the name that was asked for. -/
theorem effectiveRow?_spec (h : effectiveRow? t (some clientID) name = some row) :
    row ∈ t.rows ∧ row.isActive = true ∧ row.name = name := by
  obtain ⟨hmem, heff⟩ := List.mem_filter.mp (mem_of_first h)
  obtain ⟨hact, -, hkey⟩ := effective_iff.mp heff
  refine ⟨hmem, hact, ?_⟩
  rcases hkey with hkey | hkey
  · exact congrArg PresetKey.name hkey
  · exact congrArg PresetKey.name hkey

/-- What Resolve finds is the effective preset. -/
theorem isEffective_of_effectiveRow? (hinv : Presets.Inv t)
    (h : effectiveRow? t (some clientID) name = some row) : IsEffective t clientID name (some row) := by
  obtain ⟨o, ho⟩ := exists_isEffective t clientID name
  rw [effectiveRow?_eq hinv ho] at h
  rw [← h]
  exact ho

/-! ## The parts of a run -/

/-- It is no call of Create. -/
def NoCreate : RequestCall → Prop
  | .shared (.create _) => False
  | _ => True

/-- It is no resolution, and if it is a call of Create, then of this one. -/
def Creates (p : CreateParams) : RequestCall → Prop
  | .resolve .. => False
  | .shared (.create q) => q = p
  | _ => True

/-- A run that creates a job has passed every part that does not. -/
theorem passed_of_create {α β : Type} {x : Step α} {k : α → Step β} {b : Except Exit β}
    (hx : x.Calls NoCreate) (h : Runs t (x.andThen k) tr b) {p : CreateParams}
    {r : (Call.create p).Result} (hmem : (u, ⟨.shared (.create p), r⟩) ∈ tr) :
    ∃ tr₁ a tr₂ t', tr = tr₁ ++ tr₂ ∧ Runs t x tr₁ (.ok a) ∧ Runs t' (k a) tr₂ b ∧
      (u, ⟨.shared (.create p), r⟩) ∈ tr₂ := by
  rcases Prog.RunsIn.andThen_inv h with ⟨e, hfail⟩ | ⟨tr₁, a, tr₂, t', rfl, hpass, hrest⟩
  · exact (Prog.RunsIn.mem_calls hfail hx _ hmem).elim
  · rcases List.mem_append.mp hmem with hmem | hmem
    · exact (Prog.RunsIn.mem_calls hpass hx _ hmem).elim
    · exact ⟨tr₁, a, tr₂, t', rfl, hpass, hrest, hmem⟩

/-- The first resolution is one call, which chooses the row that counts then. -/
theorem resolveFirst_run (hf : f.usingPreset) (h : Runs t (resolveFirst s clientID f) tr (.ok c)) :
    ∃ t₁ row r, tr = [(t₁, ⟨.resolve clientID f.presetName, r⟩)] ∧
      effectiveRow? t₁ (some clientID) f.presetName = some row ∧ c = chosenOf s.codec row.resolved := by
  unfold resolveFirst at h
  rw [if_pos hf] at h
  obtain ⟨t₁, r, tr', rfl, -, hans, h⟩ := Prog.RunsIn.call_inv h
  rcases r with p | _ | _
  · obtain ⟨row, hrow, rfl⟩ := hans.found
    obtain ⟨rfl, hc⟩ := Prog.RunsIn.ret_inv h
    exact ⟨t₁, row, _, rfl, hrow, Except.ok.inj hc⟩
  · exact absurd (Prog.RunsIn.ret_inv h).2 nofun
  · exact absurd (Prog.RunsIn.ret_inv h).2 nofun

/-- Storing resolves nothing. -/
theorem store_run (h : Runs t (store newID f i) tr (.ok ())) : resolutions tr = [] := by
  obtain ⟨t₁, r, tr', rfl, -, -, h⟩ := Prog.RunsIn.call_inv h
  rcases r with err | ⟨⟩
  · exact absurd (Prog.RunsIn.ret_inv h).2 nofun
  · obtain ⟨rfl, -⟩ := Prog.RunsIn.ret_inv h
    rfl

/-- The second resolution is one call, which finds the row of the first one. -/
theorem resolveAgain_run (hf : f.usingPreset) (h : Runs t (resolveAgain clientID f c) tr (.ok ())) :
    ∃ t₂ row r, tr = [(t₂, ⟨.resolve clientID f.presetName, r⟩)] ∧
      effectiveRow? t₂ (some clientID) f.presetName = some row ∧ row.id = c.presetID := by
  unfold resolveAgain at h
  rw [if_pos hf] at h
  obtain ⟨t₂, r, tr', rfl, -, hans, h⟩ := Prog.RunsIn.call_inv h
  rcases r with p | _ | _
  · obtain ⟨row, hrow, rfl⟩ := hans.found
    dsimp only at h
    split at h
    · exact absurd (Prog.RunsIn.ret_inv h).2 nofun
    · rename_i hsame
      obtain ⟨rfl, -⟩ := Prog.RunsIn.ret_inv h
      exact ⟨t₂, row, _, rfl, hrow, not_not.mp (not_or.mp hsame).1⟩
  · exact absurd (Prog.RunsIn.ret_inv h).2 nofun
  · exact absurd (Prog.RunsIn.ret_inv h).2 nofun

/-- A conversation of creations resolves nothing. -/
theorem resolutions_eq_nil {p : CreateParams} (h : ∀ x ∈ tr, Creates p x.2.1) :
    resolutions tr = [] := by
  refine List.filterMap_eq_nil_iff.mpr fun x hx => ?_
  have hc := h x hx
  obtain ⟨t, c, r⟩ := x
  rcases c with ⟨clientID, name⟩ | _ | _
  · exact hc.elim
  · rfl
  · rfl

/-! ## The job -/

/-- The name of the preset is the one in the form. -/
theorem readForm_presetName {value : String → String} {file : Option FilePart}
    (h : readForm (.parsed value file) = .ok f) : f.presetName = value "preset" := by
  rcases file with _ | part
  · unfold readForm at h
    dsimp only at h
    split at h
    · exact absurd h reject_ne_ok
    split at h
    · exact absurd h reject_ne_ok
    split at h
    · exact absurd h reject_ne_ok
    · exact absurd h reject_ne_ok
  · exact (readForm_part h).2

/-- The job that is created from the choice of a row. -/
theorem createParams_pinned (hne : row.name ≠ "")
    (hi : Passes s f (chosenOf s.codec row.resolved).target (chosenOf s.codec row.resolved).rawOpts i)
    (now : Int) (jobID : UUID) :
    Pinned s.codec row
      (DB.newJob now jobID (createParams clientID newID f (chosenOf s.codec row.resolved) i)) := by
  have hopts := hi.opts
  generalize hc : chosenOf s.codec row.resolved = c at hopts
  obtain ⟨htarget, hraw, hrowName, hversion⟩ : c.target = normalizeFormat (deref row.targetFormat) ∧
      c.rawOpts = (if row.options.length = 0 then "" else marshalMap s.codec row.options) ∧
      c.presetName = row.name ∧ c.presetVersion = row.version := by
    rw [← hc]
    dsimp only [chosenOf, Row.resolved, Row.full]
    exact ⟨rfl, rfl, rfl, rfl⟩
  constructor
  · change (if c.presetName ≠ "" then some c.presetName else none) = _
    rw [hrowName, if_pos hne]
  · change (if c.presetName ≠ "" then some (c.presetVersion : Int) else none) = _
    rw [hrowName, if_pos hne, hversion]
  · exact htarget
  · rw [← hraw]
    exact hopts

/-- Whatever others do to the presets while a request runs that uses a preset: if a job is created,
it has the name, the version, the target and the normalized options of one row, and this row was the
effective preset of the client when the request resolved it first and when it resolved it again.

Source: `handlers.go` handleCreateJob -/
theorem handleCreateJob_pinned (s : Server) (clientID newID : UUID) (value : String → String)
    (file : Option FilePart) (hist : List Op) {tr : Trace} {a : Except Exit Accepted}
    (hname : value "preset" ≠ "")
    (h : Runs (Presets.run (.empty Row.id) hist)
      (handleCreateJob s clientID newID (.parsed value file)) tr a)
    {p : CreateParams} {r : (Call.create p).Result} (hcreate : (u, ⟨.shared (.create p), r⟩) ∈ tr) :
    ∃ row t₁ t₂, resolutions tr = [(t₁, clientID, value "preset"), (t₂, clientID, value "preset")] ∧
      IsEffective t₁ clientID (value "preset") (some row) ∧
      IsEffective t₂ clientID (value "preset") (some row) ∧ row.name = value "preset" ∧
      ∀ now jobID, Pinned s.codec row (DB.newJob now jobID p) := by
  have hchain := h.chain fun _ _ _ => Others.trans
  unfold handleCreateJob at h
  -- the parts of the run
  obtain ⟨_, f, tr₁, _, rfl, hform, h₁, hm₁⟩ :=
    passed_of_create (Prog.calls_ret _) h hcreate
  obtain ⟨rfl, hread⟩ := Prog.RunsIn.ret_inv hform
  have hpreset := readForm_presetName hread.symm
  have hf : f.usingPreset := by
    unfold Fields.usingPreset
    rw [hpreset]
    exact hname
  obtain ⟨_, c, tr₂, _, rfl, hfirst, h₂, hm₂⟩ := passed_of_create (resolveFirst_calls trivial) h₁ hm₁
  obtain ⟨t₁, row, r₁, rfl, hrow, rfl⟩ := resolveFirst_run hf hfirst
  obtain ⟨_, i, tr₃, _, rfl, hinspect, h₃, hm₃⟩ := passed_of_create (Prog.calls_ret _) h₂ hm₂
  obtain ⟨rfl, hpass⟩ := Prog.RunsIn.ret_inv hinspect
  obtain ⟨trU, _, tr₄, _, rfl, hstore, h₄, hm₄⟩ := passed_of_create (store_calls trivial) h₃ hm₃
  have hstore := store_run hstore
  obtain ⟨_, _, tr₅, _, rfl, hagain, h₅, hm₅⟩ := passed_of_create (resolveAgain_calls trivial) h₄ hm₄
  obtain ⟨t₂, row', r₂, rfl, hrow', hid⟩ := resolveAgain_run hf hagain
  have hrecord := Prog.RunsIn.mem_calls h₅ (record_calls (P := Creates _) rfl fun _ => trivial)
  obtain rfl : p = _ := hrecord _ hm₅
  -- the second resolution meets the row of the first
  obtain ⟨hmem, hact, hrowName⟩ := effectiveRow?_spec hrow
  obtain ⟨hmem', hact', -⟩ := effectiveRow?_spec hrow'
  have hpair := List.pairwise_cons.mp hchain
  have hto₁ : Others (Presets.run (.empty Row.id) hist) t₁ := hpair.1 _ (by simp)
  have hto₂ : Others (Presets.run (.empty Row.id) hist) t₂ := hpair.1 _ (by simp)
  have hbetween : Others t₁ t₂ := List.rel_of_pairwise_cons hpair.2 (by simp)
  obtain rfl : row' = row := hbetween.keeps.eq_of_active hmem hmem' hid hact'
  have hinv := inv_run inv_empty hist
  rw [hpreset] at hrow hrow' hrowName
  refine ⟨row', t₁, t₂, ?_, isEffective_of_effectiveRow? (hto₁.inv hinv) hrow,
    isEffective_of_effectiveRow? (hto₂.inv hinv) hrow', hrowName, ?_⟩
  · have hnone := resolutions_eq_nil hrecord
    unfold resolutions at hnone hstore ⊢
    simp only [List.filterMap_append, List.filterMap_cons, hnone, hstore, hpreset, List.nil_append,
      List.cons_append]
  · exact createParams_pinned (by rw [hrowName]; exact hname) (inspect_passes hpass.symm)

/-! ## A preset of the same name during the upload -/

/-- What is read from this form. -/
def thumbFields : Fields := ⟨"thumb", "", "", "", clip, "clip.mp4", "mp4"⟩

/-- The form of the example is read. -/
theorem readForm_thumb : readForm (.parsed thumbForm (some clip)) = .ok thumbFields := by
  have hname : thumbForm "preset" = "thumb" := if_pos rfl
  have htarget : thumbForm "target" = "" := if_neg (by decide)
  have hopts : thumbForm "opts" = "" := if_neg (by decide)
  have hcallback : thumbForm "callback_url" = "" := if_neg (by decide)
  have hfilename : pathBase clip.filename = "clip.mp4" := by decide +kernel
  have hsource : normalizeFormat (Strings.trimPrefix (UnixPath.ext "clip.mp4") ".") = "mp4" := by
    decide +kernel
  have hempty : normalizeFormat "" = "" := by decide +kernel
  unfold readForm
  dsimp only
  rw [hname, htarget, hopts, hcallback, hfilename, hsource, hempty, if_neg (by decide),
    if_neg (by decide), if_neg (by decide), if_neg (by decide)]
  rfl

/-- What the first sniffer finds in the clip. -/
theorem sniffStage_clip : ∃ rest, sniffStage clip = .ok ⟨"mp4", rest⟩ := by
  have hholds : Holds (.file clip.file 0 0) clip.file.data := ⟨fun _ => rfl, List.drop_zero⟩
  have hmatch : (signatures.find? fun sig => sig.2 (clip.file.data.take sniffLen)).map Prod.fst =
      some "mp4" := by decide +kernel
  obtain ⟨sig, hsig, hformat⟩ := Option.map_eq_some_iff.mp hmatch
  have hmp4 : normalizeFormat "mp4" = "mp4" := by decide +kernel
  refine ⟨Reader.stitched ((Reader.file clip.file 0 0).readFull sniffLen), ?_⟩
  unfold sniffStage sniff
  rw [sniffWith_eq hholds, hsig]
  dsimp only
  rw [hformat, hmp4]
  rfl

/-- The clip passes every check. -/
theorem inspect_thumb : ∃ rest,
    inspect exampleServer thumbFields "jpg" "" = .ok ⟨.av, "mp4", rest, []⟩ := by
  obtain ⟨rest, hsniff⟩ := sniffStage_clip
  have hne : "mp4" ≠ "" := by decide
  have hengine : Registry.default.engineFor "mp4" "jpg" = some .av := by
    rw [Registry.engineFor, Registry.lookup, Registry.default_m]
    decide +kernel
  have hpair : checkPair thumbFields "jpg" ⟨"mp4", rest⟩ = .ok .av := by
    unfold checkPair
    rw [if_neg hne, if_neg fun h => h rfl]
    dsimp only
    rw [hengine]
  have hdims : checkDimensions exampleServer thumbFields ⟨"mp4", rest⟩ = .ok ⟨"mp4", rest⟩ := by
    have hlimit : hasDimensionLimit "mp4" = false := by decide +kernel
    unfold checkDimensions
    dsimp only
    rw [hlimit, if_neg Bool.false_ne_true]
  have hopts : checkOpts exampleServer .av "mp4" "jpg" "" = .ok [] := by
    unfold checkOpts normalizeOpts
    rw [if_pos (.inl rfl)]
    rfl
  exact ⟨rest, inspect_of_checks (detect_of_sniff hsniff hne) hpair rfl hdims (if_pos rfl) hopts⟩

/-- The version that the request uses. -/
def thumbRow : Row := CreateParams.row ⟨"thumb", .system, none, "jpg", none, ""⟩ 1 0 1

/-- An operator creates the preset before the request. -/
def before : List Op := [.create 1 0 ⟨"thumb", .system, none, "jpg", none, ""⟩]

/-- Another client creates one of the same name during the upload. -/
def meanwhile : List Op := [.create 2 0 ⟨"thumb", .user, some 9, "png", none, ""⟩]

/-- The presets before the request. -/
def presetsBefore : PresetTable := Presets.run (.empty Row.id) before

/-- The presets after the upload. -/
def presetsAfter : PresetTable := Presets.run presetsBefore meanwhile

/-- The preset of the example, before it is updated. -/
theorem resolve_before : Presets.resolve presetsBefore 7 "thumb" = .ok thumbRow.resolved := rfl

/-- And after that. -/
theorem resolve_after : Presets.resolve presetsAfter 7 "thumb" = .ok thumbRow.resolved := rfl

/-- What is chosen by it. -/
theorem chosenOf_thumb :
    chosenOf exampleServer.codec thumbRow.resolved = ⟨"jpg", "", "thumb", 1, 1⟩ := by
  have hjpg : normalizeFormat "jpg" = "jpg" := by decide +kernel
  unfold chosenOf
  change Chosen.mk (normalizeFormat "jpg") "" "thumb" 1 1 = _
  rw [hjpg]

/-- A run of the request that creates a job. -/
theorem runs_thumb : ∃ tr p, Runs presetsBefore
      (handleCreateJob exampleServer 7 5 (.parsed thumbForm (some clip))) tr (.ok ⟨5, .queued, none⟩) ∧
    (presetsAfter, ⟨.shared (.create p), .ok 5⟩) ∈ tr := by
  obtain ⟨rest, hinspect⟩ := inspect_thumb
  have hpreset : thumbFields.usingPreset := by decide
  generalize hp : createParams 7 5 thumbFields ⟨"jpg", "", "thumb", 1, 1⟩ ⟨.av, "mp4", rest, []⟩ = p
  obtain ⟨task, htask⟩ : ∃ task, exampleServer.env.client.convertTask p.engine 5 = some task := by
    rw [← hp]
    exact ⟨_, rfl⟩
  refine ⟨[(presetsBefore, ⟨.resolve 7 "thumb", .found thumbRow.resolved⟩),
      (presetsBefore, ⟨.upload (inputKey 5 0 "clip.mp4") rest 12 (mimeType "mp4"), .ok ()⟩),
      (presetsAfter, ⟨.resolve 7 "thumb", .found thumbRow.resolved⟩),
      (presetsAfter, ⟨.shared (.create p), .ok 5⟩),
      (presetsAfter, ⟨.shared (.enqueue task), .ok ()⟩)], p, ?_, by simp⟩
  unfold handleCreateJob
  rw [readForm_thumb]
  change Runs presetsBefore ((resolveFirst exampleServer 7 thumbFields).andThen _) _ _
  unfold resolveFirst
  rw [if_pos hpreset]
  refine .call ⟨[], rfl⟩ (.inr (congrArg resolvedOf resolve_before).symm) ?_
  change Runs presetsBefore ((Prog.ret (inspect exampleServer thumbFields
    (chosenOf exampleServer.codec thumbRow.resolved).target
    (chosenOf exampleServer.codec thumbRow.resolved).rawOpts)).andThen _) _ _
  rw [chosenOf_thumb, hinspect]
  change Runs presetsBefore (Prog.andThen (store 5 thumbFields ⟨.av, "mp4", rest, []⟩) _) _ _
  refine .call ⟨[], rfl⟩ trivial ?_
  change Runs presetsBefore ((resolveAgain 7 thumbFields _).andThen _) _ _
  unfold resolveAgain
  rw [if_pos hpreset, hp]
  refine .call ⟨meanwhile, rfl⟩ (.inr (congrArg resolvedOf resolve_after).symm) ?_
  change Runs presetsAfter (record exampleServer p) _ _
  rw [record_eq]
  refine .call ⟨[], rfl⟩ trivial ?_
  dsimp only
  rw [htask]
  refine .call ⟨[], rfl⟩ trivial ?_
  rw [← hp]
  exact .ret _ _

/-- The preset is updated during the request, and both resolutions find the same row. -/
theorem handleCreateJob_pinned_thumb : ∃ tr p,
    thumbForm "preset" ≠ "" ∧
      Runs presetsBefore (handleCreateJob exampleServer 7 5 (.parsed thumbForm (some clip))) tr
        (.ok ⟨5, .queued, none⟩) ∧
      (presetsAfter, ⟨.shared (.create p), .ok 5⟩) ∈ tr ∧
      ∃ row t₁ t₂, resolutions tr =
          [(t₁, 7, thumbForm "preset"), (t₂, 7, thumbForm "preset")] ∧
        IsEffective t₁ 7 (thumbForm "preset") (some row) ∧
        IsEffective t₂ 7 (thumbForm "preset") (some row) ∧ row.name = thumbForm "preset" ∧
        ∀ now jobID, Pinned exampleServer.codec row (DB.newJob now jobID p) := by
  obtain ⟨tr, p, hruns, hcreate⟩ := runs_thumb
  have hname : thumbForm "preset" ≠ "" := by decide
  exact ⟨tr, p, hname, hruns, hcreate,
    handleCreateJob_pinned exampleServer 7 5 thumbForm (some clip) before hname hruns hcreate⟩

end OctoConv.Api
