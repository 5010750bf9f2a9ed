import OctoConv.System.Model
import OctoConv.Worker.Attempts

/-!
# The output rows of a job whose task is retried

A retried attempt writes its object to the same key, but its row is one more row: the table has no
unique constraint on the ordinal, and every row of a conversion has the ordinal 0. An attempt that
has added its row and fails before the job is done leaves an open job, and the next attempt may add
the row again.

Source: `internal/worker/worker.go` process.

## Main results

* `handleConvert_ends` — a run of a convert handler adds one row with ordinal 0 if it gets as far as
  the insert, and none otherwise.
* `ordinals_distinct_iff` — the rows of the job keep distinct ordinals exactly if no attempt adds its
  row to an open job that already has one.
* `ordinals_repeated` — an attempt whose MarkDone fails, and its retry.
-/

namespace OctoConv

open Conc Worker

/-- No two outputs of the job have the same ordinal. -/
def OrdinalsDistinct (w : World) (id : UUID) : Prop :=
  (w.db.outputsOf id).Pairwise fun a b => a.ordinal ≠ b.ordinal

/-- The job has an output with ordinal 0. -/
def HasFirst (w : World) (id : UUID) : Prop := ∃ out ∈ w.db.outputsOf id, out.ordinal = 0

instance (w : World) (id : UUID) : Decidable (OrdinalsDistinct w id) := by
  unfold OrdinalsDistinct
  infer_instance

/-! ## How far an attempt gets -/

/-- The size that the worker finds for its output file. -/
def sizeOf (outside : Call → Option Obs) (path : String) : Int :=
  match outside (.statFile path) with
  | some o => o.size
  | none => 0

/-- The calls of `process` up to the upload, in order. -/
def processCalls (env : Env) (job : Job) (input : Input) (size : Int) : List Call :=
  [.host (.mkdirTemp ("octoconv-" ++ job.id.text ++ "-")), .host (.getObject input.objectKey),
    .host (.statObject input.objectKey), .host (.createFile ("in." ++ job.sourceFormat)),
    .host (.copyObject input.objectKey ("in." ++ job.sourceFormat))] ++
  (if job.engine = .audio then
    [.host (.enforceMaxDuration ("in." ++ job.sourceFormat) env.audioMaxDuration)] else []) ++
  [.host (.convert job.sourceFormat job.targetFormat ("in." ++ job.sourceFormat) (outName job)
      job.opts),
    .host (.openFile (outName job)), .statFile (outName job),
    .putObject (outKey job) size (env.mimeType job.targetFormat)]

/-- `process` gets as far as its row. -/
def reachesRow (env : Env) (outside : Call → Option Obs) (job : Job) (db : DB) : Bool :=
  match db.inputsByOrdinal job.id with
  | [] => false
  | input :: _ =>
      let size := sizeOf outside (outName job)
      answers (outside (.inputs job.id)) && env.lookup job.sourceFormat job.targetFormat &&
      (processCalls env job input size).all (fun c => answers (outside c)) &&
      takesEffect (outside (.addOutput job.id (outputRow env job size)))

/-- The attempt adds a row: the job is open, its options are valid, and the calls of the attempt are
answered up to the insert, which takes effect. -/
def addsRow (env : Env) (outside : Call → Option Obs) (optsError : Opts → Option GoError) (w : World)
    (id : UUID) : Bool :=
  match w.db.job? id with
  | none => false
  | some job =>
      answers (outside (.get id)) && (optsError job.opts).isNone &&
      answers (outside (.write id .markActive)) &&
      decide (job.status = .queued ∨ job.status = .active) && reachesRow env outside job w.db

/-- Each attempt that adds its row to an open job is the first one to do so. -/
def AddsOnce (env : Env) : List Try → TaskInfo × World → Prop
  | [], _ => True
  | t :: ts, x => x.1.unfinished = true →
      ¬ (x.1.task.typename.isConvert = true ∧ HasFirst x.2 x.1.task.jobID ∧
        addsRow env t.outside (optsErrorOf env x.1.task.typename) x.2 x.1.task.jobID = true) ∧
      AddsOnce env ts (attemptTask env t x)

/-! ## The calls of `process` -/

/-- The job has one more output, with ordinal 0, or none. -/
structure Adds (db db' : DB) (id : UUID) (row : Bool) : Prop where
  nothing : row = false → db'.outputsOf id = db.outputsOf id
  one : row = true → ∃ out, out.ordinal = 0 ∧ db'.outputsOf id = db.outputsOf id ++ [out]

variable {env : Env} {outside : Call → Option Obs} {w w' : World} {db db₁ db' : DB} {id : UUID}
  {job : Job} {row : Bool} {α : Type}

/-- Nothing was added. -/
theorem Adds.refl : Adds db db id false := ⟨fun _ => rfl, nofun⟩

/-- Nothing is added before or after. -/
theorem Adds.trans_eq (h : Adds db db₁ id row) (heq : db'.outputsOf id = db₁.outputsOf id) :
    Adds db db' id row :=
  ⟨fun hr => heq.trans (h.nothing hr), fun hr => heq ▸ h.one hr⟩

/-- A change of other things may come before. -/
theorem Adds.of_eq (h : Adds db₁ db' id row) (heq : db₁.outputsOf id = db.outputsOf id) :
    Adds db db' id row :=
  ⟨fun hr => (h.nothing hr).trans heq, fun hr => heq ▸ h.one hr⟩

/-- A read in front of a program: if it is not answered, nothing is added. -/
theorem read_andThen {c : Call} {p : P c.Result} {f : c.Answer → P (Except GoError α)}
    (h : machine.Ends outside p w (ReadEnds outside w c)) (hok : ∀ o, ∃ a, (c.effect o w).1 = .ok a)
    (hgo : ∀ o a, outside c = some o → (c.effect o w).1 = .ok a →
      machine.Ends outside (f a) w fun _ w' => Adds w.db w'.db id row) :
    machine.Ends outside (p.andThen f) w
      fun _ w' => Adds w.db w'.db id (answers (outside c) && row) := by
  refine h.andThen ?_ ?_ ?_
  · rintro w' ⟨hans⟩
    rw [hans]
    exact .refl
  · intro err w' h
    cases h with
    | failed _ h =>
        have hans : answers (outside c) = false := by
          by_contra hne
          obtain ⟨o, err', herr⟩ := h (by simpa using hne)
          obtain ⟨a, ha⟩ := hok o
          rw [ha] at herr
          cases herr
        rw [hans]
        exact .refl
  · intro a w' h
    cases h with
    | answered hans ho ha =>
        rw [hans, Bool.true_and]
        exact hgo _ _ ho ha

/-- A step on the host in front of a program. -/
theorem host_andThen (context : String) (st : HostStep) {f : Unit → P (Except GoError α)}
    (hgo : machine.Ends outside (f ()) w fun _ w' => Adds w.db w'.db id row) :
    machine.Ends outside ((host context st).andThen f) w
      fun _ w' => Adds w.db w'.db id (answers (outside (.host st)) && row) :=
  read_andThen (c := .host st) (read_mapError_ends _ (fun _ => rfl) rfl fun _ => rfl)
    (fun _ => ⟨(), rfl⟩) fun _ _ _ _ => hgo

/-- A call that adds no output. -/
def NoOutput (c : Call) : Prop := ∀ id out, c ≠ .addOutput id out

/-- Only AddOutput adds outputs. -/
theorem Changes.outputs_eq {c : Call} (h : Changes w c w') (hc : NoOutput c) :
    w'.db.outputs = w.db.outputs := by
  cases h with
  | addOutput id out => exact absurd rfl (hc id out)
  | nothing => rfl
  | create => rfl
  | write => rfl
  | gap => rfl
  | recordAttempt => rfl
  | markDeadLetter => rfl
  | enqueue => rfl
  | putObject => rfl
  | post => rfl

/-- A program that adds no output. -/
theorem ends_of_noOutput (id : UUID) {p : P α} (hp : p.Calls NoOutput) :
    machine.Ends outside p w fun _ w' => w'.db.outputsOf id = w.db.outputsOf id := by
  have h := Machine.Ends.of_calls (M := machine) (o := outside)
    (I := fun w' => w'.db.outputs = w.db.outputs) hp
    (fun c o w₁ hc heq => (Changes.outputs_eq (exec_changes c o w₁) hc).trans heq) rfl
  refine h.mono fun _ w' heq => ?_
  unfold DB.outputsOf
  rw [heq]

/-- The upload of the file in front of a program. -/
theorem putObject_andThen {key contentType context : String} {size : Int}
    {f : Unit → P (Except GoError α)}
    (hgo : ∀ w₁ : World, w₁.db = w.db →
      machine.Ends outside (f ()) w₁ fun _ w' => Adds w.db w'.db id row) :
    machine.Ends outside
      (((ask (.putObject key size contentType)).mapError (·.wrap context)).andThen f) w
      fun _ w' => Adds w.db w'.db id (answers (outside (.putObject key size contentType)) && row) := by
  have hdies : takesEffect (outside (.putObject key size contentType)) = false →
      Adds w.db w.db id (answers (outside (.putObject key size contentType)) && row) := by
    intro h
    rw [answers_of_takesEffect h]
    exact .refl
  unfold Prog.mapError Prog.andThen
  rw [Prog.bind_assoc]
  refine (write_ends (c := .putObject key size contentType) rfl fun _ => rfl).bind ?_ ?_
  · rintro w' ⟨h⟩
    exact hdies h
  · intro r w' h
    cases h with
    | aborted err h => exact hdies h
    | lost o err _ hans =>
        rw [hans]
        exact Machine.Ends.ret Adds.refl
    | answered o _ hans =>
        rw [hans, Bool.true_and]
        exact hgo _ rfl

/-- The last steps of an attempt add its row if they get there. -/
theorem store_ends (env : Env) (outside : Call → Option Obs) (job : Job) (w : World) :
    machine.Ends outside (store env job (outName job)) w fun _ w' => Adds w.db w'.db job.id
      (answers (outside (.host (.openFile (outName job)))) &&
        (answers (outside (.statFile (outName job))) &&
        (answers (outside (.putObject (outKey job) (sizeOf outside (outName job))
          (env.mimeType job.targetFormat))) &&
        takesEffect (outside (.addOutput job.id
          (outputRow env job (sizeOf outside (outName job)))))))) := by
  unfold store uploadFrom
  rw [Prog.andThen_assoc]
  refine host_andThen _ _ ?_
  rw [Prog.andThen_assoc]
  refine read_andThen (c := .statFile (outName job))
    (read_mapError_ends _ (fun _ => rfl) rfl fun _ => rfl) (fun o => ⟨o.size, rfl⟩) ?_
  intro o size ho hsize
  obtain rfl : sizeOf outside (outName job) = size := by
    rw [sizeOf, ho]
    exact Except.ok.inj hsize
  rw [Prog.andThen_assoc]
  refine putObject_andThen fun w₁ hdb => ?_
  show machine.Ends outside ((ask (.addOutput job.id _)).andThen fun _ =>
    ask (.write job.id .markDone)) w₁ _
  have hadd : Adds w.db (w₁.db.addOutput job.id
      (outputRow env job (sizeOf outside (outName job)))) job.id true := by
    refine ⟨nofun, fun _ => ⟨outputRow env job (sizeOf outside (outName job)), rfl, ?_⟩⟩
    simp [DB.outputsOf, DB.addOutput, hdb]
  refine (write_ends (c := .addOutput job.id _) rfl fun _ => rfl).bind ?_ ?_
  · rintro w' ⟨h⟩
    rw [h, hdb]
    exact .refl
  · intro r w' h
    cases h with
    | aborted err h =>
        rw [h]
        refine Machine.Ends.ret ?_
        rw [hdb]
        exact .refl
    | lost o err h _ =>
        rw [h]
        exact Machine.Ends.ret hadd
    | answered o h _ =>
        rw [h]
        have hquiet : NoOutput (.write job.id .markDone) := by
          intro _ _ h
          cases h
        exact (ends_of_noOutput job.id (ask_calls hquiet)).mono fun _ w' heq => hadd.trans_eq heq

/-- The conversion, in front of the last steps. -/
theorem guardedConvert_andThen {inPath outPath : String} {f : Unit → P (Except GoError α)}
    (hgo : machine.Ends outside (f ()) w fun _ w' => Adds w.db w'.db id row) :
    machine.Ends outside ((guardedConvert env job inPath outPath).andThen f) w
      fun _ w' => Adds w.db w'.db id
        (((if job.engine = .audio then [Call.host (.enforceMaxDuration inPath env.audioMaxDuration)]
          else []).all fun c => answers (outside c)) &&
        (answers (outside (.host (.convert job.sourceFormat job.targetFormat inPath outPath
          job.opts))) && row)) := by
  unfold guardedConvert
  by_cases haudio : job.engine = .audio
  · rw [if_pos haudio, if_pos haudio, Prog.andThen_assoc, List.all_cons, List.all_nil,
      Bool.and_true]
    exact read_andThen (c := .host (.enforceMaxDuration inPath env.audioMaxDuration))
      (read_ends (fun _ => rfl) rfl fun _ => rfl) (fun _ => ⟨(), rfl⟩)
      fun _ _ _ _ => host_andThen _ _ hgo
  · rw [if_neg haudio, if_neg haudio, List.all_nil, Bool.true_and]
    exact host_andThen _ _ hgo

/-- The download, in front of a program. -/
theorem downloadTo_andThen {key path : String} {f : Unit → P (Except GoError α)}
    (hgo : machine.Ends outside (f ()) w fun _ w' => Adds w.db w'.db id row) :
    machine.Ends outside ((downloadTo key path).andThen f) w
      fun _ w' => Adds w.db w'.db id
        (answers (outside (.host (.getObject key))) &&
        (answers (outside (.host (.statObject key))) &&
        (answers (outside (.host (.createFile path))) &&
        (answers (outside (.host (.copyObject key path))) && row)))) := by
  unfold downloadTo
  rw [Prog.andThen_assoc]
  refine host_andThen _ _ ?_
  rw [Prog.andThen_assoc]
  refine host_andThen _ _ ?_
  rw [Prog.andThen_assoc]
  refine host_andThen _ _ ?_
  exact host_andThen _ _ hgo

/-- **A run of `process`** adds one row if it gets as far as the insert, and none otherwise. -/
theorem process_ends (env : Env) (outside : Call → Option Obs) (job : Job) (w : World) :
    machine.Ends outside (process env job) w
      fun _ w' => Adds w.db w'.db job.id (reachesRow env outside job w.db) := by
  unfold process Worker.inputKey
  rw [Prog.andThen_assoc]
  have hinputs : ∀ f : List Input → P (Except GoError Unit), ∀ row,
      (machine.Ends outside (f (w.db.inputsByOrdinal job.id)) w
        fun _ w' => Adds w.db w'.db job.id row) →
      machine.Ends outside ((ask (.inputs job.id)).andThen f) w
        fun _ w' => Adds w.db w'.db job.id (answers (outside (.inputs job.id)) && row) := by
    intro f row hgo
    refine read_andThen (c := .inputs job.id) (read_ends (fun _ => rfl) rfl fun _ => rfl)
      (fun o => ⟨_, rfl⟩) fun o inputs _ hin => ?_
    rw [← Except.ok.inj hin]
    exact hgo
  rcases hin : w.db.inputsByOrdinal job.id with _ | ⟨input, rest⟩
  · have hreach : reachesRow env outside job w.db =
        (answers (outside (.inputs job.id)) && false) := by simp [reachesRow, hin]
    rw [hreach]
    refine hinputs _ _ ?_
    rw [hin]
    exact Machine.Ends.ret .refl
  · simp only [reachesRow, hin, processCalls, List.all_append, List.all_cons, List.all_nil,
      Bool.and_true, Bool.and_assoc]
    refine hinputs _ _ ?_
    rw [hin]
    show machine.Ends outside (if env.lookup job.sourceFormat job.targetFormat = true then _ else _)
      w _
    split
    · rename_i hlookup
      rw [hlookup, Bool.true_and]
      refine host_andThen _ _ (downloadTo_andThen (guardedConvert_andThen ?_))
      exact store_ends env outside job w
    · rename_i hlookup
      rw [Bool.eq_false_iff.mpr hlookup, Bool.false_and]
      exact Machine.Ends.ret .refl

/-! ## An attempt -/

/-- The statements after `process` add no output. -/
theorem conclude_noOutput (cls : ConvertClass) (jobID : UUID) (r : Except GoError Unit) :
    (conclude env cls job jobID r).Calls NoOutput := by
  refine conclude_calls (fun _ _ _ => ?_) ?_ r
  · intro _ _ h
    cases h
  · intro _ _ h
    cases h

/-- **A run of a convert handler** adds one row with ordinal 0 or none. -/
theorem handleConvert_ends (env : Env) (outside : Call → Option Obs) (cls : ConvertClass) (w : World)
    (id : UUID) :
    machine.Ends outside (handleConvert env cls id) w
      fun _ w' => Adds w.db w'.db id (addsRow env outside cls.optsError w id) := by
  have hno : addsRow env outside cls.optsError w id = false →
      Adds w.db w.db id (addsRow env outside cls.optsError w id) := by
    intro h
    rw [h]
    exact .refl
  refine (read_ends (c := .get id) (fun _ => rfl) rfl fun _ => rfl).bind ?_ ?_
  · rintro w' ⟨h⟩
    refine hno ?_
    unfold addsRow
    split <;> simp [h]
  · intro r w' h
    cases h with
    | failed err h =>
        refine Machine.Ends.ret (hno ?_)
        unfold addsRow
        split
        · rfl
        · rename_i job hjob
          have hget : answers (outside (.get id)) = false := by
            by_contra hne
            obtain ⟨o, err', herr⟩ := h (by simpa using hne)
            exact absurd ((DB.get_ok_iff.mpr hjob).symm.trans herr) nofun
          simp [hget]
    | @answered o job hget _ hok =>
        have hjob : w.db.job? id = some job := DB.get_ok_iff.mp hok
        have hid : job.id = id := DB.job?_id hjob
        have hadds : addsRow env outside cls.optsError w id =
            ((cls.optsError job.opts).isNone && (answers (outside (.write id .markActive)) &&
              (decide (job.status = .queued ∨ job.status = .active) &&
                reachesRow env outside job w.db))) := by
          simp [addsRow, hjob, hget, Bool.and_assoc]
        dsimp only
        rcases hopts : cls.optsError job.opts with _ | err
        · have hrest : ∀ w₁ : World, w₁.db.outputsOf id = w.db.outputsOf id →
              w₁.db.inputsByOrdinal job.id = w.db.inputsByOrdinal job.id →
              machine.Ends outside (process env job >>= conclude env cls job id) w₁ fun _ w' =>
                Adds w.db w'.db id (reachesRow env outside job w.db) := by
            intro w₁ houts hins
            have hreach : reachesRow env outside job w₁.db = reachesRow env outside job w.db := by
              unfold reachesRow
              rw [hins]
            refine (process_ends env outside job w₁).bind ?_ ?_
            · intro w' h
              rw [hreach, hid] at h
              exact h.of_eq houts
            · intro r w' h
              rw [hreach, hid] at h
              refine (ends_of_noOutput id (conclude_noOutput cls id r)).mono fun _ w₂ heq => ?_
              exact (h.of_eq houts).trans_eq heq
          rw [hopts, Option.isNone_none, Bool.true_and] at hadds
          refine (write_ends (c := .write id .markActive) rfl fun _ => rfl).bind ?_ ?_
          · rintro w' ⟨h⟩
            exact hno (by rw [hadds, answers_of_takesEffect h, Bool.false_and])
          · intro r w' h
            cases h with
            | aborted err h =>
                exact hno (by rw [hadds, answers_of_takesEffect h, Bool.false_and])
            | lost o' err _ hans =>
                refine Machine.Ends.ret ((hno ?_).trans_eq ?_)
                · rw [hadds, hans, Bool.false_and]
                · rcases effect_write id .markActive o' w with ⟨⟨_, heff⟩, -⟩ | ⟨j, -, -, heff⟩
                  · rw [heff]
                  · rw [heff]
                    rfl
            | answered o' _ hans =>
                rw [hans, Bool.true_and] at hadds
                rcases effect_write id .markActive o' w with ⟨⟨err, heff⟩, hnot⟩ |
                  ⟨j, hj, hopen, heff⟩
                · rw [heff]
                  have hclosed : ¬ (job.status = .queued ∨ job.status = .active) := by
                    simpa [Write.transition, markActive] using hnot job hjob
                  refine Machine.Ends.ret (hno ?_)
                  rw [hadds, decide_eq_false hclosed, Bool.false_and]
                · obtain rfl := Option.some.inj (hjob.symm.trans hj)
                  have hstatus : job.status = .queued ∨ job.status = .active := by
                    simpa [Write.transition, markActive] using hopen
                  rw [hadds, decide_eq_true hstatus, Bool.true_and, heff]
                  exact hrest _ rfl rfl
        · have hcalls : (giveUp env job id "invalid_options" "stored conversion options are invalid"
              [("opts_error", err.text)] (GoError.skipRetry ("opts: " ++ err.text))).Calls
              NoOutput := by
            refine giveUp_calls ?_ ?_
            · intro _ _ h
              cases h
            · intro _ _ h
              cases h
          refine (ends_of_noOutput id hcalls).mono fun _ w' heq => ?_
          exact (hno (by simp [hadds, hopts])).trans_eq heq

/-- **What an attempt at a task adds.** -/
theorem attemptTask_adds (env : Env) (t : Try) (i : TaskInfo) (w : World) :
    Adds w.db (attemptTask env t (i, w)).2.db i.task.jobID
      (i.task.typename.isConvert &&
        addsRow env t.outside (optsErrorOf env i.task.typename) w i.task.jobID) := by
  rw [attemptTask_world]
  rcases htype : i.task.typename.isConvert with _ | _
  · have hcalls : (handle env i).Calls NoOutput := by
      refine (handle_calls env i).mono fun c hc => ?_
      rw [htype] at hc
      intro id out heq
      subst heq
      cases hc
    have hends : machine.Ends t.outside (handle env i) { w with now := w.now + t.delay }
        fun _ w' => w'.db.outputsOf i.task.jobID = w.db.outputsOf i.task.jobID :=
      ends_of_noOutput i.task.jobID hcalls
    exact Adds.refl.trans_eq hends
  · obtain ⟨cls, hopts, hhandle⟩ := handle_convert env htype
    rw [hhandle, Bool.true_and, ← hopts]
    exact handleConvert_ends env t.outside cls { w with now := w.now + t.delay } i.task.jobID

/-- A row with ordinal 0 repeats an ordinal iff there is one already. -/
theorem distinct_of_adds {row : Bool} (h : Adds w.db w'.db id row) :
    OrdinalsDistinct w' id ↔ OrdinalsDistinct w id ∧ ¬ (HasFirst w id ∧ row = true) := by
  unfold OrdinalsDistinct HasFirst
  rcases row with _ | _
  · rw [h.nothing rfl]
    simp
  · obtain ⟨out, hout, hadd⟩ := h.one rfl
    rw [hadd, List.pairwise_append]
    simp [hout]

/-! ## All attempts -/

/-- **The rows of a job keep distinct ordinals through all attempts at its task exactly if each
attempt that adds its row to an open job is the first to do so.** -/
theorem ordinals_distinct_iff (env : Env) (ts : List Try) (i : TaskInfo) (w : World) :
    OrdinalsDistinct (attempts env ts (i, w)).2 i.task.jobID ↔
      OrdinalsDistinct w i.task.jobID ∧ AddsOnce env ts (i, w) := by
  induction ts generalizing i w with
  | nil => simp [attempts, AddsOnce]
  | cons t ts ih =>
      by_cases hi : i.unfinished = true
      · rw [attempts_cons ts hi]
        have htask := attemptTask_task env t i w
        have hadds := attemptTask_adds env t i w
        rcases hx : attemptTask env t (i, w) with ⟨i', w'⟩
        rw [hx] at htask hadds
        rw [← htask, ih i' w', htask, distinct_of_adds hadds]
        simp only [AddsOnce, hi, hx, Bool.and_eq_true, forall_const]
        tauto
      · rw [attempts_finished (t :: ts) (by simpa using hi)]
        simp [AddsOnce, hi]

/-! ## An example -/

/-- The image task of the example job. -/
def exampleConvertTask : TaskInfo :=
  ⟨newImageConvertTask 7 System.exampleEnv.client.imageMaxRetry
    System.exampleEnv.client.imageUniqueTTL, .pending, 0, 0⟩

/-- Nothing fails. -/
def undisturbed : Try := ⟨0, fun _ => some {}, false⟩

/-- MarkDone fails. -/
def unfinishedTry : Try where
  delay := 0
  outside
    | .write _ .markDone => some { fault := .aborted (GoError.new "connection reset") }
    | _ => some {}
  dies := false

/-- **If MarkDone fails after the insert, the retry inserts the row once more.** -/
theorem ordinals_repeated :
    ¬ ∀ (env : Env) (ts : List Try) (i : TaskInfo) (w : World), w.db.outputsOf i.task.jobID = [] →
      OrdinalsDistinct (attempts env ts (i, w)).2 i.task.jobID := by
  intro h
  exact absurd (h System.exampleEnv [unfinishedTry, undisturbed] exampleConvertTask System.createdWorld
    (by decide +kernel)) (by decide +kernel)

end OctoConv
