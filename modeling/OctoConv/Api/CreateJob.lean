import OctoConv.Api.Request
import OctoConv.Lib.Monitor
import OctoConv.Presets.Repo

/-!
# Creating a job

The request is read and inspected, its preset resolved, its upload stored, the preset resolved
again, the row created and the task enqueued. Every one of these may end the request.

Source: `internal/api/handlers.go` handleCreateJob.

## Main results

* `handleCreateJob_orderly` — the order of the writes, and what the answer tells about them.
* `handleCreateJob_uploads` — the reader that is stored yields the bytes of the file.
-/

namespace OctoConv.Api

open Conc

/-! ## The calls of a request -/

/-- What Resolve answers, as far as the handler tells it apart. -/
inductive Resolved
  | found (p : Presets.Preset)
  /-- `errors.Is(err, presets.ErrNotFound)` -/
  | notFound
  | failed

/-- A call of a create request. -/
inductive RequestCall
  | resolve (clientID : UUID) (name : String)
  /-- Source: `internal/storage/storage.go` Upload -/
  | upload (key : String) (content : Reader) (size : Nat) (contentType : String)
  /-- A call to the jobs repository or the queue. -/
  | shared (c : Call)

/-- What a call answers. -/
abbrev RequestCall.Result : RequestCall → Type
  | .resolve .. => Resolved
  | .upload .. => Except GoError Unit
  | .shared c => c.Result

/-- A part of a create request: it goes on, or ends the request. -/
abbrev Step (α : Type) : Type := Prog RequestCall RequestCall.Result (Except Exit α)

/-- Go on with a result. -/
def goOn {α : Type} (a : α) : Step α := .ret (.ok a)

/-- Answer an error. -/
def refuse {α : Type} (status : Nat) (message : String) : Step α := .ret (reject status message)

/-! ## The handler -/

/-- Source: `handlers.go` errUnknownPreset -/
def errUnknownPreset : String := "unknown or inactive preset"

/-- Source: `handlers.go` operationConv -/
def operationConv : String := "convert"

/-- The conversion that is asked for, by the form or by its preset; without a preset the last four are
zero values. -/
structure Chosen where
  target : String
  rawOpts : String
  presetName : String
  presetVersion : Nat
  presetID : UUID

/-- The conversion of a preset: its options are marshaled again. -/
def chosenOf (codec : FloatCodec) (p : Presets.Preset) : Chosen where
  target := normalizeFormat p.targetFormat
  rawOpts := if p.options.length = 0 then "" else marshalMap codec p.options
  presetName := p.name
  presetVersion := p.version
  presetID := p.id

/-- The first resolution of the preset, if one is used. -/
def resolveFirst (s : Server) (clientID : UUID) (f : Fields) : Step Chosen :=
  if f.usingPreset then
    .call (.resolve clientID f.presetName) fun
      | .notFound => refuse 422 errUnknownPreset
      | .failed => refuse 500 "failed to resolve preset"
      | .found p => goOn (chosenOf s.codec p)
  else goOn ⟨f.target, f.rawOpts, "", 0, 0⟩

/-- The upload. -/
def store (newID : UUID) (f : Fields) (i : Inspected) : Step Unit :=
  .call (.upload (inputKey newID 0 f.filename) i.rest f.part.size (mimeType i.detected)) fun
    | .error _ => refuse 500 "failed to store upload"
    | .ok () => goOn ()

/-- The second resolution of the preset: it must find the same version. -/
def resolveAgain (clientID : UUID) (f : Fields) (c : Chosen) : Step Unit :=
  if f.usingPreset then
    .call (.resolve clientID f.presetName) fun
      | .notFound => refuse 422 errUnknownPreset
      | .failed => refuse 500 "failed to resolve preset"
      | .found p =>
        if p.id ≠ c.presetID ∨ p.version ≠ c.presetVersion then refuse 422 errUnknownPreset
        else goOn ()
  else goOn ()

/-- The row to create. -/
def createParams (clientID newID : UUID) (f : Fields) (c : Chosen) (i : Inspected) : CreateParams where
  id := newID
  clientID := clientID
  operation := operationConv
  engine := i.engine
  sourceFormat := i.detected
  targetFormat := c.target
  callbackURL := f.callbackURL
  opts := i.normalizedOpts
  presetName := c.presetName
  presetVersion := c.presetVersion
  input :=
    { ordinal := 0
      objectKey := inputKey newID 0 f.filename
      filename := f.filename
      format := i.detected
      sizeBytes := f.part.size
      contentType := mimeType i.detected }

/-- The answer 202. -/
structure Accepted where
  jobID : UUID
  status : Status
  opts : Option Opts

/-- Calls to the jobs repository and the queue as a part of a request. -/
def inRequest {α : Type} (p : P α) : Prog RequestCall RequestCall.Result α :=
  p.mapCalls RequestCall.shared fun (c : Call) (r : (RequestCall.shared c).Result) => r

/-- The row and the task. -/
def record (s : Server) (p : CreateParams) : Step Accepted :=
  (inRequest (submit s.env p)).bind fun
    | .accepted jobID => goOn ⟨jobID, .queued, if p.opts.length = 0 then none else some p.opts⟩
    | .failed message => refuse 500 message

/-- Source: `handlers.go` handleCreateJob -/
def handleCreateJob (s : Server) (clientID newID : UUID) (form : Form) : Step Accepted :=
  (Prog.ret (readForm form) : Step Fields).andThen fun f =>
  (resolveFirst s clientID f).andThen fun c =>
  (Prog.ret (inspect s f c.target c.rawOpts) : Step Inspected).andThen fun i =>
  (store newID f i).andThen fun _ =>
  (resolveAgain clientID f c).andThen fun _ =>
  record s (createParams clientID newID f c i)

/-- The status of the answer; a panic has none. -/
def answerStatus : Except Exit Accepted → Option Nat
  | .ok _ => some 202
  | .error (.reject r) => some r.status
  | .error .panic => none

/-! ## What a request has done -/

/-- The queue of an engine class. -/
def queueOf : Engine → Option QueueName
  | .image => some .image
  | .document => some .document
  | .html => some .html
  | .audio => some .audio
  | .av => some .av
  | .cad | .archive | .probe => none

/-- The task of a job goes into the queue of its engine. -/
theorem convertTask_queue {c : Client} {engine : Engine} {jobID : UUID} {t : Task}
    (h : c.convertTask engine jobID = some t) : queueOf engine = some t.queue := by
  cases engine <;> cases h <;> rfl

/-- What a request has called so far, with what success. -/
structure Log where
  /-- Calls of Resolve. -/
  resolves : Nat
  /-- Calls that write to storage or Postgres, of whatever success. -/
  writes : Nat
  /-- Calls of Create. -/
  creates : Nat
  /-- The keys of the uploads that succeeded. -/
  stored : List String
  /-- The rows whose Create succeeded, with their ids. -/
  created : List (CreateParams × UUID)
  /-- The tasks whose Enqueue succeeded. -/
  enqueued : List Task

/-- Nothing has been called. -/
def Log.empty : Log := ⟨0, 0, 0, [], [], []⟩

/-- The log after a call. -/
def Log.next (log : Log) : (c : RequestCall) → c.Result → Log
  | .resolve .., _ => { log with resolves := log.resolves + 1 }
  | .upload key .., .ok () => { log with writes := log.writes + 1, stored := log.stored ++ [key] }
  | .upload .., .error _ => { log with writes := log.writes + 1 }
  | .shared (.create p), .ok id =>
    { log with writes := log.writes + 1, creates := log.creates + 1,
               created := log.created ++ [(p, id)] }
  | .shared (.create _), .error _ => { log with writes := log.writes + 1, creates := log.creates + 1 }
  | .shared (.enqueue t), .ok () => { log with enqueued := log.enqueued ++ [t] }
  | .shared _, _ => log

/-- What may be called. Create is called once, for an upload that was stored; Enqueue puts a task on the
queue of the engine class of a row that was created. -/
def Log.Allows (log : Log) : RequestCall → Prop
  | .resolve .. => True
  | .upload .. => True
  | .shared (.create p) => log.creates = 0 ∧ p.input.objectKey ∈ log.stored
  | .shared (.enqueue t) =>
    ∃ p id, (p, id) ∈ log.created ∧ t.jobID = id ∧ queueOf p.engine = some t.queue
  | .shared _ => False

/-- The protocol of a create request. -/
def requestMonitor : Monitor RequestCall RequestCall.Result Log := ⟨Log.Allows, Log.next⟩

/-- The answer fits what was done: it is 202 exactly if upload, row and task succeeded, and a 4xx
tells that nothing was written, but for the refusal of a preset that has changed since the
upload. -/
structure Fits (a : Except Exit Accepted) (log : Log) : Prop where
  accepted : answerStatus a = some 202 ↔ log.stored ≠ [] ∧ log.created ≠ [] ∧ log.enqueued ≠ []
  refused : ∀ status, answerStatus a = some status → 400 ≤ status → status < 500 →
    log.writes = 0 ∨ (log.resolves = 2 ∧ log.creates = 0 ∧
      a = .error (.reject ⟨422, errUnknownPreset⟩))

variable {s : Server} {clientID newID : UUID} {form : Form} {f : Fields} {c : Chosen} {i : Inspected}

/-- An answer before anything is written fits if it is an error. -/
theorem fits_unwritten {e : Exit} {log : Log} (hwrites : log.writes = 0) (hstored : log.stored = [])
    (he : ∀ r, e = .reject r → 400 ≤ r.status) : Fits (.error e) log := by
  constructor
  · constructor
    · intro h
      rcases e with r | _
      · have hr := he r rfl
        rw [answerStatus, Option.some.injEq] at h
        omega
      · cases h
    · intro h
      exact absurd hstored h.1
  · intro _ _ _ _
    exact .inl hwrites

/-- A server error fits unless upload, row and task all succeeded. -/
theorem fits_failed {message : String} {log : Log}
    (h : log.stored = [] ∨ log.created = [] ∨ log.enqueued = []) :
    Fits (.error (.reject ⟨500, message⟩)) log := by
  constructor
  · constructor
    · intro h202
      exact absurd h202 (by simp [answerStatus])
    · rintro ⟨h₁, h₂, h₃⟩
      rcases h with h | h | h
      · exact absurd h h₁
      · exact absurd h h₂
      · exact absurd h h₃
  · intro status hstatus _ hlt
    obtain rfl : 500 = status := Option.some.inj hstatus
    omega

/-- Up to the upload nothing has been called but Resolve. -/
structure Log.Untouched (log : Log) : Prop where
  writes : log.writes = 0
  creates : log.creates = 0
  stored : log.stored = []
  created : log.created = []
  enqueued : log.enqueued = []

/-- What the log holds before the second resolution: the upload is stored. -/
structure Log.Stored (log : Log) (key : String) : Prop where
  creates : log.creates = 0
  stored : log.stored = [key]
  created : log.created = []
  enqueued : log.enqueued = []

/-- The first resolution stores nothing, and resolves once if a preset was asked for. -/
theorem resolveFirst_follows :
    Follows requestMonitor
      (fun r log => log.Untouched ∧ (∀ e, r = .error e → Fits (.error e) log) ∧
        (f.usingPreset → log.resolves = 1)) (resolveFirst s clientID f) Log.empty := by
  have huntouched (n : Nat) : Log.Untouched { Log.empty with resolves := n } :=
    ⟨rfl, rfl, rfl, rfl, rfl⟩
  unfold resolveFirst
  split
  · refine ⟨trivial, ?_⟩
    intro r
    rcases r with p | _ | _
    · exact ⟨huntouched 1, nofun, fun _ => rfl⟩
    · refine ⟨huntouched 1, ?_, fun _ => rfl⟩
      intro e he
      cases he
      exact fits_unwritten rfl rfl (by rintro r ⟨⟩; decide)
    · refine ⟨huntouched 1, ?_, fun _ => rfl⟩
      intro e he
      cases he
      exact fits_unwritten rfl rfl (by rintro r ⟨⟩; decide)
  · rename_i hnone
    exact ⟨huntouched 0, nofun, fun h => absurd h hnone⟩

/-- Storing the upload uploads once, under the key of the job. -/
theorem store_follows {log : Log} (h : log.Untouched) :
    Follows requestMonitor
      (fun r log' => (∀ e, r = .error e → Fits (.error e) log') ∧
        (r = .ok () → log'.Stored (inputKey newID 0 f.filename) ∧ log'.resolves = log.resolves))
      (store newID f i) log := by
  refine ⟨trivial, ?_⟩
  intro r
  rcases r with err | ⟨⟩
  · refine ⟨?_, nofun⟩
    intro e he
    cases he
    exact fits_failed (.inl h.stored)
  · refine ⟨nofun, fun _ => ⟨⟨h.creates, ?_, h.created, h.enqueued⟩, rfl⟩⟩
    change log.stored ++ _ = _
    rw [h.stored, List.nil_append]

/-- The second resolution keeps what was stored. -/
theorem resolveAgain_follows {log : Log} {key : String} (h : log.Stored key)
    (hresolves : f.usingPreset → log.resolves = 1) :
    Follows requestMonitor
      (fun r log' => log'.Stored key ∧ ∀ e, r = .error e → Fits (.error e) log')
      (resolveAgain clientID f c) log := by
  -- the refusal of a preset that has changed
  have hstale (hf : f.usingPreset) : Fits (.error (.reject ⟨422, errUnknownPreset⟩))
      { log with resolves := log.resolves + 1 } := by
    constructor
    · constructor
      · intro h202
        exact absurd h202 (by simp [answerStatus])
      · rintro ⟨-, hcreated, -⟩
        exact absurd h.created hcreated
    · intro _ _ _ _
      refine .inr ⟨?_, h.creates, rfl⟩
      change log.resolves + 1 = 2
      rw [hresolves hf]
  have hlog : Log.Stored { log with resolves := log.resolves + 1 } key :=
    ⟨h.creates, h.stored, h.created, h.enqueued⟩
  unfold resolveAgain
  split
  · rename_i hf
    refine ⟨trivial, ?_⟩
    intro r
    rcases r with p | _ | _
    · dsimp only
      split
      · refine ⟨hlog, ?_⟩
        intro e he
        cases he
        exact hstale hf
      · exact ⟨hlog, nofun⟩
    · refine ⟨hlog, ?_⟩
      intro e he
      cases he
      exact hstale hf
    · refine ⟨hlog, ?_⟩
      intro e he
      cases he
      exact fits_failed (.inr (.inl h.created))
  · exact ⟨h, nofun⟩

/-- The row and the task, call by call. -/
theorem record_eq (s : Server) (p : CreateParams) :
    record s p = .call (.shared (.create p)) fun r =>
      match r with
      | .error _ => refuse 500 "failed to create job"
      | .ok createdID =>
        match s.env.client.convertTask p.engine createdID with
        | none => refuse 500 "failed to enqueue job"
        | some task =>
          .call (.shared (.enqueue task)) fun r =>
            match r with
            | .error _ => refuse 500 "failed to enqueue job"
            | .ok () => goOn ⟨createdID, .queued, if p.opts.length = 0 then none else some p.opts⟩ := by
  have hcall {α : Type} {c : RequestCall} {k k' : c.Result → Prog RequestCall RequestCall.Result α}
      (h : ∀ r, k r = k' r) : Prog.call c k = Prog.call c k' := congrArg _ (funext h)
  unfold record inRequest submit
  refine hcall fun r => ?_
  rcases r with err | createdID
  · rfl
  dsimp only [Prog.bind]
  rcases s.env.client.convertTask p.engine createdID with _ | task
  · rfl
  · refine hcall fun r => ?_
    rcases r with err | ⟨⟩
    · rfl
    · rfl

/-- The row is recorded after its object was stored. -/
theorem record_follows {log : Log} {p : CreateParams} (h : log.Stored p.input.objectKey) :
    Follows requestMonitor Fits (record s p) log := by
  rw [record_eq]
  refine ⟨⟨h.creates, ?_⟩, ?_⟩
  · rw [h.stored]
    exact List.mem_singleton_self _
  intro r
  rcases r with err | createdID
  · exact fits_failed (.inr (.inl h.created))
  dsimp only
  cases htask : s.env.client.convertTask p.engine createdID with
  | none => exact fits_failed (.inr (.inr h.enqueued))
  | some task =>
    refine ⟨⟨p, createdID, ?_, Client.convertTask_jobID htask, convertTask_queue htask⟩, ?_⟩
    · exact List.mem_append_right _ (List.mem_singleton_self _)
    intro r
    rcases r with err | ⟨⟩
    · exact fits_failed (.inr (.inr h.enqueued))
    · constructor
      · constructor
        · intro _
          refine ⟨?_, ?_, ?_⟩
          · change log.stored ≠ []
            rw [h.stored]
            exact List.cons_ne_nil _ _
          · exact List.append_ne_nil_of_right_ne_nil _ (List.cons_ne_nil _ _)
          · exact List.append_ne_nil_of_right_ne_nil _ (List.cons_ne_nil _ _)
        · intro _
          rfl
      · intro status hstatus hle hlt
        obtain rfl : 202 = status := Option.some.inj hstatus
        omega

/-- Sequencing of the parts of a request. -/
theorem follows_andThen {α : Type} {x : Step α} {k : α → Step Accepted} {log : Log}
    {K : Except Exit α → Log → Prop} (hx : Follows requestMonitor K x log)
    (herror : ∀ e log, K (.error e) log → Fits (.error e) log)
    (hok : ∀ a log, K (.ok a) log → Follows requestMonitor Fits (k a) log) :
    Follows requestMonitor Fits (x.andThen k) log := by
  refine Follows.bind_of hx fun r log hr => ?_
  rcases r with e | a
  · exact herror e log hr
  · exact hok a log hr

/-- For every request, and whatever Resolve, Upload, Create and Enqueue answer: Create is called at
most once, and only for an upload that was stored under its key; Enqueue is called only for a row
that was created, and puts its task on the queue of the row's engine class; the answer is 202
exactly if Upload, Create and Enqueue succeeded; and after a 4xx nothing has been written, unless it
is the refusal of a preset that has changed since the upload.

Source: `handlers.go` handleCreateJob -/
theorem handleCreateJob_orderly (s : Server) (clientID newID : UUID) (form : Form) :
    Follows requestMonitor Fits (handleCreateJob s clientID newID form) Log.empty := by
  unfold handleCreateJob
  refine follows_andThen (K := fun r log => r = readForm form ∧ log = Log.empty) ⟨rfl, rfl⟩ ?_ ?_
  · rintro e log ⟨he, rfl⟩
    exact fits_unwritten rfl rfl fun r hr => readForm_erring form r (by rw [← he, hr])
  rintro f log ⟨-, rfl⟩
  refine follows_andThen resolveFirst_follows (fun e log h => h.2.1 e rfl) ?_
  rintro c log ⟨huntouched, -, hresolves⟩
  refine follows_andThen (K := fun r log' => r = inspect s f c.target c.rawOpts ∧ log' = log) ⟨rfl, rfl⟩
    ?_ ?_
  · rintro e log' ⟨he, rfl⟩
    exact fits_unwritten huntouched.writes huntouched.stored fun r hr =>
      inspect_erring s f c.target c.rawOpts r (by rw [← he, hr])
  rintro i log' ⟨-, rfl⟩
  refine follows_andThen (store_follows huntouched) (fun e log h => h.1 e rfl) ?_
  rintro ⟨⟩ log ⟨-, hstored⟩
  obtain ⟨hstored, hsame⟩ := hstored rfl
  refine follows_andThen (resolveAgain_follows hstored fun hf => hsame.trans (hresolves hf))
    (fun e log h => h.2 e rfl) ?_
  rintro ⟨⟩ log ⟨hstored, -⟩
  exact record_follows hstored

/-! ## What each part can call -/

/-- The first resolution is one call. -/
theorem resolveFirst_calls {P : RequestCall → Prop} (h : P (.resolve clientID f.presetName)) :
    (resolveFirst s clientID f).Calls P := by
  unfold resolveFirst
  split
  · refine ⟨h, fun r => ?_⟩
    rcases r with p | _ | _ <;> trivial
  · trivial

/-- Storing the upload is one call. -/
theorem store_calls {P : RequestCall → Prop}
    (h : P (.upload (inputKey newID 0 f.filename) i.rest f.part.size (mimeType i.detected))) :
    (store newID f i).Calls P := by
  refine ⟨h, fun r => ?_⟩
  rcases r with err | ⟨⟩ <;> trivial

/-- The second resolution is one call. -/
theorem resolveAgain_calls {P : RequestCall → Prop} (h : P (.resolve clientID f.presetName)) :
    (resolveAgain clientID f c).Calls P := by
  unfold resolveAgain
  split
  · refine ⟨h, fun r => ?_⟩
    rcases r with p | _ | _
    · dsimp only
      split <;> trivial
    · trivial
    · trivial
  · trivial

/-- Recording the job creates it, and enqueues a task at most. -/
theorem record_calls {P : RequestCall → Prop} {p : CreateParams} (hcreate : P (.shared (.create p)))
    (henqueue : ∀ t, P (.shared (.enqueue t))) : (record s p).Calls P := by
  rw [record_eq]
  refine ⟨hcreate, fun r => ?_⟩
  rcases r with err | createdID
  · trivial
  dsimp only
  split
  · trivial
  · refine ⟨henqueue _, fun r => ?_⟩
    rcases r with err | ⟨⟩ <;> trivial

/-- If it records a row, this is the one of the new job, with the client and a callback URL that was
checked. -/
def Records (s : Server) (clientID newID : UUID) : RequestCall → Prop
  | .shared (.create p) => p.id = newID ∧ p.clientID = clientID ∧
      (p.callbackURL = "" ∨ s.net.validateCallbackURL p.callbackURL = none)
  | _ => True

/-- **What a request can record.** -/
theorem handleCreateJob_records (s : Server) (clientID newID : UUID) (form : Form) :
    (handleCreateJob s clientID newID form).Calls (Records s clientID newID) := by
  unfold handleCreateJob
  rcases readForm form with e | f
  · trivial
  refine (resolveFirst_calls (P := Records s clientID newID) trivial).andThen fun c => ?_
  rcases hinspect : inspect s f c.target c.rawOpts with e | i
  · trivial
  exact (store_calls trivial).andThen fun _ => (resolveAgain_calls trivial).andThen fun _ =>
    record_calls ⟨rfl, rfl, inspect_callback hinspect⟩ fun _ => trivial

/-! ## What is stored -/

/-- The form has the file that was uploaded, and the preset that was named. -/
theorem readForm_part {value : String → String} {part : FilePart} {f : Fields}
    (h : readForm (.parsed value (some part)) = .ok f) :
      f.part = part ∧ f.presetName = value "preset" := by
  unfold readForm at h
  dsimp only at h
  split at h
  · exact absurd h reject_ne_ok
  split at h
  · exact absurd h reject_ne_ok
  split at h
  · exact absurd h reject_ne_ok
  split at h
  · exact absurd h reject_ne_ok
  · cases h
    exact ⟨rfl, rfl⟩

/-- If it is an upload, its reader yields these bytes, and their number is its size. -/
def Stores (b : Bytes) : RequestCall → Prop
  | .upload _ content size _ => content.Yields b ∧ size = b.length
  | _ => True

/-- However the file hands out its bytes, as long as no read fails: whenever a request reaches the
upload, the reader that it passes yields exactly the bytes of the file.

Source: `handlers.go` handleCreateJob -/
theorem handleCreateJob_uploads (s : Server) (clientID newID : UUID) (value : String → String)
    (part : FilePart) (hreads : ∀ turn, part.file.fails turn = false) :
    (handleCreateJob s clientID newID (.parsed value (some part))).Calls (Stores part.file.data) := by
  unfold handleCreateJob
  rcases hform : readForm (.parsed value (some part)) with e | f
  · trivial
  obtain ⟨hpart, -⟩ := readForm_part hform
  refine (resolveFirst_calls (P := Stores part.file.data) trivial).andThen fun c => ?_
  rcases hinspect : inspect s f c.target c.rawOpts with e | i
  · trivial
  obtain ⟨hreliable, hcontent⟩ := (inspect_passes hinspect).rest (by rw [hpart]; exact hreads)
  rw [hpart] at hcontent
  have hupload : Stores part.file.data
      (.upload (inputKey newID 0 f.filename) i.rest f.part.size (mimeType i.detected)) := by
    constructor
    · rw [← hcontent]
      exact Reader.yields_content hreliable
    · rw [hpart]
      rfl
  exact (store_calls hupload).andThen fun _ =>
    (resolveAgain_calls trivial).andThen fun _ => record_calls trivial fun _ => trivial

/-- A clip that is read one byte at a time. -/
def clip : FilePart where
  filename := "clip.mp4"
  file := ⟨[0, 0, 0, 12] ++ Bytes.ascii "ftypisom", fun _ => 0, fun _ => false, fun _ => false⟩

/-- The form of a request that uses the preset `thumb`. -/
def thumbForm (field : String) : String := if field = "preset" then "thumb" else ""

/-- A deployment that sets no limits. -/
def exampleServer : Server where
  env := Env.default (fun _ _ => true) (fun _ _ => none) fun _ => "image/jpeg"
  codec := exampleCodec
  net := ⟨fun _ => none, fun _ => none, fun _ => none, false, false⟩
  zipReader _ := none
  maxEngineBytes _ := none
  maxImagePixels := 100000000
  maxDocumentUncompressedBytes := 0

/-- The whole clip is stored, whatever is read of it first. -/
theorem handleCreateJob_uploads_clip : (∀ turn, clip.file.fails turn = false) ∧
    (handleCreateJob exampleServer 7 5 (.parsed thumbForm (some clip))).Calls (Stores clip.file.data) :=
  ⟨fun _ => rfl, handleCreateJob_uploads exampleServer 7 5 thumbForm clip fun _ => rfl⟩

end OctoConv.Api
