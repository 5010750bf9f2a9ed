import OctoConv.Worker.Handlers

/-!
# Job requests

The end of a create request, once its upload has been stored (the row first, then the task of its
engine class), and the status request.

Source: `internal/api/handlers.go`.
-/

namespace OctoConv.Api

open Conc Worker

/-- What the last steps of a create request answer: 202, or 500 with a message. -/
inductive Created
  | accepted (jobID : UUID)
  | failed (message : String)
deriving DecidableEq, Repr

/-- Record the job, then enqueue it. The row stays queued if the enqueue fails.

Source: `handlers.go` handleCreateJob -/
def submit (env : Env) (p : CreateParams) : P Created := do
  match ← ask (.create p) with
  | .error _ => .ret (.failed "failed to create job")
  | .ok createdID =>
      match env.client.convertTask p.engine createdID with
      | none => .ret (.failed "failed to enqueue job")
      | some task =>
          match ← ask (.enqueue task) with
          | .error _ => .ret (.failed "failed to enqueue job")
          | .ok () => .ret (.accepted createdID)

/-- The answer to a status request. -/
inductive JobAnswer
  | found (jobID : UUID) (status : Status) (opts : Option Opts) (downloadURL : Option String)
      (errorCode errorMessage : Option String)
  | notFound (message : String)
  | failed (message : String)

/-- The status of a job, with a download URL once it is done.

Source: `handlers.go` handleGetJob -/
def handleGetJob (env : Env) (clientID id : UUID) : P JobAnswer := do
  match ← ask (.get id) with
  | .error err =>
      if err.is .notFound then .ret (.notFound "job not found")
      else .ret (.failed "failed to load job")
  | .ok job =>
      if job.clientID ≠ clientID then .ret (.notFound "job not found")
      else
        let opts := if job.opts.isEmpty then none else some job.opts
        match job.status with
        | .done =>
            match ← ask (.outputs id) with
            | .error _ => .ret (.failed "failed to load outputs")
            | .ok [] => .ret (.found id job.status opts none none none)
            | .ok (out :: _) =>
                match ← ask (.presign out.objectKey env.presignTTL) with
                | .error _ => .ret (.failed "failed to presign output")
                | .ok url => .ret (.found id job.status opts (some url) none none)
        | .failed =>
            .ret (.found id job.status opts none (job.errorCode.filter (· ≠ ""))
              (job.errorMessage.filter (· ≠ "")))
        | _ => .ret (.found id job.status opts none none none)

/-! ## What a request calls -/

/-- The calls of the API. -/
inductive ApiCall (env : Env) : Call → Prop
  | create (p : CreateParams) : ApiCall env (.create p)
  | convert {engine : Engine} {id : UUID} {t : Task}
      (h : env.client.convertTask engine id = some t) : ApiCall env (.enqueue t)
  | get (id : UUID) : ApiCall env (.get id)
  | outputs (id : UUID) : ApiCall env (.outputs id)
  | presign (key : String) (ttl : Int) : ApiCall env (.presign key ttl)

/-- A create request makes the calls of the API. -/
theorem submit_calls (env : Env) (p : CreateParams) : (submit env p).Calls (ApiCall env) := by
  refine (ask_calls (.create p)).bind fun r => ?_
  rcases r with _ | createdID
  · trivial
  · show Prog.Calls _ (match env.client.convertTask p.engine createdID with
      | none => _
      | some task => _)
    split
    · trivial
    · rename_i task htask
      refine (ask_calls (.convert htask)).bind fun r => ?_
      rcases r with _ | _ <;> trivial

/-- So does a status request. -/
theorem handleGetJob_calls (env : Env) (clientID id : UUID) :
    (handleGetJob env clientID id).Calls (ApiCall env) := by
  refine (ask_calls (.get id)).bind fun r => ?_
  rcases r with err | job
  · show Prog.Calls _ (if err.is .notFound = true then _ else _)
    split <;> trivial
  · show Prog.Calls _ (if job.clientID ≠ clientID then _ else _)
    split
    · trivial
    · simp only
      split
      · refine (ask_calls (.outputs id)).bind fun r => ?_
        rcases r with _ | ⟨_ | ⟨out, l⟩⟩
        · trivial
        · trivial
        · refine (ask_calls (.presign _ _)).bind fun r => ?_
          rcases r with _ | _ <;> trivial
      · trivial
      · trivial

end OctoConv.Api
