import OctoConv.Api.Request
import OctoConv.Clients.Keys
import OctoConv.Lib.Run
import OctoConv.Presets.OptsCheck
import OctoConv.Presets.Repo
import OctoConv.World

/-!
# The preset routes

A client manages its own presets under `/v1/presets`; operators manage those that everybody has under
`/v1/system/presets`. Every request is authenticated first. A handler makes its calls to the database
one at a time, and the calls of all requests interleave; each call can fail.

Update and Deactivate are transactions under a row lock, and one call each; Create is two statements.
The router, the rate limits in front of the handlers and the encoding of answers are left out.

Source: `internal/api/presets_handlers.go`, `internal/api/system_presets_handlers.go`,
`internal/api/routes.go`, `internal/auth/auth.go`, `internal/auth/middleware.go`.

## Main results

* `serve_calls` — a request to the presets of an owner makes no call about those of another.
* `step_cases` — what one step of the service can do.
-/

namespace OctoConv.Api.Rest

open Conc Presets

/-! ## Requests and answers -/

/-- Source: `presets_handlers.go` maxPresetBodyBytes -/
def maxPresetBodyBytes : Nat := 8192

/-- Source: `presets_handlers.go` noSuchPreset -/
def noSuchPreset : String := "preset not found"

/-- Source: `presets_handlers.go` invalidPresetName -/
def invalidPresetName : String := "invalid preset name"

/-- Source: `presets_handlers.go` presetRequest -/
structure PresetRequest where
  name : String
  targetFormat : String
  /-- `nil` where the body has none. -/
  options : Option Opts
  description : String

/-- Source: `presets_handlers.go` presetResponse -/
structure PresetResponse where
  name : String
  version : Nat
  scope : Scope
  operation : String
  targetFormat : String
  options : Opts
  description : String
  isActive : Bool
  createdAt : Option Int
  updatedAt : Option Int

/-- Source: `presets_handlers.go` newPresetResponse -/
def newPresetResponse (p : Preset) : PresetResponse :=
  ⟨p.name, p.version, p.scope, p.operation, p.targetFormat, p.options, p.description, p.isActive,
    p.createdAt, p.updatedAt⟩

/-- The body of an answer. -/
inductive Body
  | error (message : String)
  | preset (p : PresetResponse)
  | presets (ps : List PresetResponse)
  | deactivated (name : String)

/-- An answer. -/
structure Response where
  status : Nat
  body : Body

/-- Source: `handlers.go` writeError -/
def writeError (status : Nat) (message : String) : Response := ⟨status, .error message⟩

/-- What is asked of the presets of an owner, by the method and the path of the request. -/
inductive Route
  | create
  | list (all : Bool)
  | show (name : String)
  | update (name : String)
  | deactivate (name : String)

/-- A request. -/
structure HttpRequest where
  authorization : String
  /-- It is for the system presets. -/
  system : Bool
  route : Route
  body : Bytes

/-- What the service takes from elsewhere: the floats of `encoding/json`, what `encoding/json` reads
from a body (none: it is cut off, or no such object), the salted digest of a key; and its
operators. -/
structure Host where
  codec : FloatCodec
  decode : Bytes → Option PresetRequest
  hashKey : String → String
  operators : List UUID

/-! ## Calls to the database -/

/-- Whose presets a request is about. -/
inductive Owner
  | system
  | user (c : UUID)
deriving DecidableEq

/-- The preset of the owner with this name. -/
def Owner.key (o : Owner) (name : String) : PresetKey :=
  match o with
  | .system => systemKey name
  | .user c => userKey c name

/-- The parameters of Create and Update. -/
def Owner.params (o : Owner) (name : String) (req : PresetRequest) : Presets.CreateParams :=
  let k := o.key name
  ⟨k.name, k.scope, k.clientID, req.targetFormat, req.options, req.description⟩

/-- The calls. -/
inductive Call
  /-- The first statement of Create: is there an active preset of this name? -/
  | exists (o : Owner) (name : String)
  /-- The second one, which computes the version. -/
  | insert (o : Owner) (name : String) (req : PresetRequest)
  | update (o : Owner) (name : String) (req : PresetRequest)
  | deactivate (o : Owner) (name : String)
  | load (o : Owner) (name : String)
  | list (o : Owner) (all : Bool)

/-- The owner that the call is about. -/
def Call.owner : Call → Owner
  | .exists o _ => o
  | .insert o _ _ => o
  | .update o _ _ => o
  | .deactivate o _ => o
  | .load o _ => o
  | .list o _ => o

/-- An error, as far as `errors.Is` tells it from others. -/
inductive Refusal
  | notFound
  | alreadyExists
  | failed (err : GoError)

/-- What a call answers when it succeeds. -/
abbrev Call.Answer : Call → Type
  | .exists _ _ => Bool
  | .load _ _ => Preset
  | .list _ _ => List Preset
  | _ => Unit

/-- What a call answers. -/
abbrev Call.Result (c : Call) : Type := Except Refusal c.Answer

/-- The behaviour of the outside world during one call: whether it fails, the id that the database
generates, and its clock. -/
structure Obs where
  fault : Fault
  newID : UUID
  now : Int

/-- What Create makes of a violated constraint. -/
def refusalOf : Violation → Refusal
  | .unique _ => .alreadyExists
  | v => .failed (createError v)

/-- GetForClient for a client, Get for the system presets. -/
def Owner.load (w : Owner) (t : PresetTable) (name : String) : Except GoError Preset :=
  match w with
  | .system => Presets.get t (systemKey name)
  | .user c => getForClient t (some c) name

/-- ListForClient for a client, List for the system presets. -/
def Owner.list (w : Owner) (t : PresetTable) (all : Bool) : List Preset :=
  match w with
  | .system => Presets.list t .system none all
  | .user c => listForClient t (some c) all

/-- The effect of a call that reaches the database. -/
def Call.effect (o : Obs) (t : PresetTable) : (c : Call) → c.Result × PresetTable
  | .exists w name => (.ok (t.rows.any fun r => r.key = w.key name ∧ r.isActive), t)
  | .insert w name req =>
      let p := w.params name req
      match insertRow t (p.row o.newID o.now (maxVersion t p.key + 1)) with
      | .ok t' => (.ok (), t')
      | .error v => (.error (refusalOf v), t)
  | .update w name req =>
      let p := w.params name req
      match activeRow? t p.key with
      | none => (.error .notFound, t)
      | some _ =>
        match Presets.update t o.newID o.now p with
        | .ok x => (.ok (), x.1)
        | .error err => (.error (.failed err), t)
  | .deactivate w name =>
      match activeRow? t (w.key name) with
      | none => (.error .notFound, t)
      | some r => (.ok (), deactivateID t o.now r.id)
  | .load w name =>
      match w.load t name with
      | .ok p => (.ok p, t)
      | .error _ => (.error .notFound, t)
  | .list w all => (.ok (w.list t all), t)

/-- One call. A call that fails may have had its effect. -/
def Call.exec (c : Call) (o : Obs) (t : PresetTable) : c.Result × PresetTable :=
  match o.fault with
  | .none => c.effect o t
  | .aborted err => (.error (.failed err), t)
  | .lost err => (.error (.failed err), (c.effect o t).2)

/-- A handler. -/
abbrev Handler := Prog Call Call.Result Response

/-- One call. -/
def ask (c : Call) : Prog Call Call.Result c.Result := Prog.perform c

/-! ## Handlers -/

/-- Source: `repo.go` Create -/
def createPreset (o : Owner) (name : String) (req : PresetRequest) :
    Prog Call Call.Result (Except Refusal Unit) :=
  (ask (.exists o name)).andThen fun (found : Bool) =>
  if found then .ret (.error .alreadyExists) else ask (.insert o name req)

/-- Source: `presets_handlers.go` validPresetName -/
def validPresetName (name : String) : Bool := name ≠ "" ∧ name.utf8ByteSize ≤ maxPresetNameBytes

/-- Source: `presets_handlers.go` decodePresetRequest -/
def decodePresetRequest (host : Host) (body : Bytes) (k : PresetRequest → Handler) : Handler :=
  match host.decode (body.take maxPresetBodyBytes) with
  | none => .ret (writeError 400 "invalid JSON body")
  | some req => k req

/-- The check of the options of a request. -/
def withValidOpts (host : Host) (req : PresetRequest) (k : Handler) : Handler :=
  match validateOptsJSON host.codec (req.options.getD []) with
  | some _ => .ret (writeError 422 "invalid opts")
  | none => k

/-- The check of a name. -/
def withValidName (name : String) (k : Handler) : Handler :=
  if validPresetName name then k else .ret (writeError 400 invalidPresetName)

/-- Create, and load what was created. -/
def handleCreate (host : Host) (o : Owner) (body : Bytes) : Handler :=
  decodePresetRequest host body fun req =>
  withValidName req.name <| withValidOpts host req <|
  createPreset o req.name req >>= fun
    | .error .alreadyExists => .ret (writeError 409 "preset already exists")
    | .error _ => .ret (writeError 500 "failed to create preset")
    | .ok _ => ask (.load o req.name) >>= fun (created : Except Refusal Preset) =>
      match created with
      | .error _ => .ret (writeError 500 "failed to load created preset")
      | .ok p => .ret ⟨201, .preset (newPresetResponse p)⟩

/-- List. -/
def handleList (o : Owner) (all : Bool) : Handler :=
  ask (.list o all) >>= fun (found : Except Refusal (List Preset)) =>
    match found with
    | .error _ => .ret (writeError 500 "failed to list presets")
    | .ok ps => .ret ⟨200, .presets (ps.map newPresetResponse)⟩

/-- Show. -/
def handleShow (o : Owner) (name : String) : Handler :=
  withValidName name <|
  ask (.load o name) >>= fun (found : Except Refusal Preset) =>
    match found with
    | .error .notFound => .ret (writeError 404 noSuchPreset)
    | .error _ => .ret (writeError 500 "failed to load preset")
    | .ok p => .ret ⟨200, .preset (newPresetResponse p)⟩

/-- Update, and load what it has become. -/
def handleUpdate (host : Host) (o : Owner) (name : String) (body : Bytes) : Handler :=
  withValidName name <| decodePresetRequest host body fun req => withValidOpts host req <|
  ask (.update o name req) >>= fun (updated : Except Refusal Unit) =>
    match updated with
    | .error .notFound => .ret (writeError 404 noSuchPreset)
    | .error _ => .ret (writeError 500 "failed to update preset")
    | .ok _ => ask (.load o name) >>= fun (found : Except Refusal Preset) =>
      match found with
      | .error _ => .ret (writeError 500 "failed to load updated preset")
      | .ok p => .ret ⟨200, .preset (newPresetResponse p)⟩

/-- Deactivate. -/
def handleDeactivate (o : Owner) (name : String) : Handler :=
  withValidName name <|
  ask (.deactivate o name) >>= fun (done : Except Refusal Unit) =>
    match done with
    | .error .notFound => .ret (writeError 404 noSuchPreset)
    | .error _ => .ret (writeError 500 "failed to deactivate preset")
    | .ok _ => .ret ⟨200, .deactivated name⟩

/-- Source: `presets_handlers.go` handleCreatePreset -/
def handleCreatePreset (host : Host) (client : UUID) : Bytes → Handler :=
  handleCreate host (.user client)

/-- Source: `presets_handlers.go` handleListPresets -/
def handleListPresets (client : UUID) : Bool → Handler := handleList (.user client)

/-- Source: `presets_handlers.go` handleShowPreset -/
def handleShowPreset (client : UUID) : String → Handler := handleShow (.user client)

/-- Source: `presets_handlers.go` handleUpdatePreset -/
def handleUpdatePreset (host : Host) (client : UUID) : String → Bytes → Handler :=
  handleUpdate host (.user client)

/-- Source: `presets_handlers.go` handleDeactivatePreset -/
def handleDeactivatePreset (client : UUID) : String → Handler := handleDeactivate (.user client)

/-- Source: `system_presets_handlers.go` handleCreateSystemPreset -/
def handleCreateSystemPreset (host : Host) : Bytes → Handler := handleCreate host .system

/-- Source: `system_presets_handlers.go` handleListSystemPresets -/
def handleListSystemPresets : Bool → Handler := handleList .system

/-- Source: `system_presets_handlers.go` handleShowSystemPreset -/
def handleShowSystemPreset : String → Handler := handleShow .system

/-- Source: `system_presets_handlers.go` handleUpdateSystemPreset -/
def handleUpdateSystemPreset (host : Host) : String → Bytes → Handler := handleUpdate host .system

/-- Source: `system_presets_handlers.go` handleDeactivateSystemPreset -/
def handleDeactivateSystemPreset : String → Handler := handleDeactivate .system

/-- Source: `system_presets_handlers.go` requireOperator -/
def requireOperator (host : Host) (client : UUID) (next : Handler) : Handler :=
  if client ∈ host.operators then next else .ret (writeError 404 noSuchPreset)

/-- The handler of a request that is authenticated.

Source: `routes.go` Routes -/
def serve (host : Host) (client : UUID) (r : HttpRequest) : Handler :=
  if r.system then
    requireOperator host client <|
      match r.route with
      | .create => handleCreateSystemPreset host r.body
      | .list all => handleListSystemPresets all
      | .show name => handleShowSystemPreset name
      | .update name => handleUpdateSystemPreset host name r.body
      | .deactivate name => handleDeactivateSystemPreset name
  else
    match r.route with
    | .create => handleCreatePreset host client r.body
    | .list all => handleListPresets client all
    | .show name => handleShowPreset client name
    | .update name => handleUpdatePreset host client name r.body
    | .deactivate name => handleDeactivatePreset client name

/-! ## Authentication -/

/-- Source: `auth.go` ParseAPIKey -/
def parseAPIKey (header : String) : Option String :=
  match Strings.fields header with
  | [scheme, key] => if Strings.equalFold scheme "ApiKey" then some key else none
  | _ => none

/-- Why a key leads to no client. -/
inductive AuthError
  | invalidKey
  | failed (err : GoError)

/-- Source: `auth.go` ResolveClient -/
def resolveClient (host : Host) (t : Clients.ClientTable) (fault : Fault) (rawKey : String) :
    Except AuthError UUID :=
  match fault with
  | .none =>
    match Clients.getByKeyHash t (host.hashKey rawKey) with
    | .ok x => .ok x.1
    | .error _ => .error .invalidKey
  | .aborted err => .error (.failed err)
  | .lost err => .error (.failed err)

/-- A request that has arrived: the client that it is from, and what is still to be done. -/
structure Served where
  caller : Option UUID
  system : Bool
  prog : Handler

/-- Source: `middleware.go` Middleware -/
def middleware (host : Host) (t : Clients.ClientTable) (fault : Fault) (r : HttpRequest) : Served :=
  match parseAPIKey r.authorization with
  | none => ⟨none, r.system, .ret (writeError 401 "missing or malformed Authorization header")⟩
  | some key =>
    match resolveClient host t fault key with
    | .error .invalidKey => ⟨none, r.system, .ret (writeError 401 "invalid api key")⟩
    | .error (.failed _) => ⟨none, r.system, .ret (writeError 500 "failed to resolve api key")⟩
    | .ok client => ⟨some client, r.system, serve host client r⟩

/-! ## The service -/

/-- The tables, and the requests by number. A request that is answered stays, with its answer. -/
structure State where
  clients : Clients.ClientTable
  presets : PresetTable
  requests : Nat → Option Served

/-- What can happen. -/
inductive Act
  /-- A request arrives, and is authenticated. -/
  | arrive (n : Nat) (r : HttpRequest) (fault : Fault)
  /-- A request makes its next call. -/
  | call (n : Nat) (o : Obs)
  /-- The keys of the clients are managed. -/
  | keys (op : Clients.Op)

/-- The state with a request as it is now. -/
def State.put (s : State) (n : Nat) (x : Served) : State :=
  { s with requests := fun m => if m = n then some x else s.requests m }

/-- One step. An id that the database generates is in no row. -/
def step (host : Host) (s : State) : Act → Option State
  | .arrive n r fault =>
      match s.requests n with
      | none => some (s.put n (middleware host s.clients fault r))
      | some _ => none
  | .call n o =>
      match s.requests n with
      | some ⟨caller, system, .call c k⟩ =>
        if s.presets.find? o.newID = none then
          let x := c.exec o s.presets
          some { s.put n ⟨caller, system, k x.1⟩ with presets := x.2 }
        else none
      | _ => none
  | .keys op => some { s with clients := Clients.apply s.clients op }

/-! ## What requests call -/

variable {host : Host} {w : Owner} {P : Call → Prop} {c : Call} {o : Obs} {t : PresetTable}

/-- Create and Update are about the preset of the owner. -/
theorem Owner.params_key (w : Owner) (name : String) (req : PresetRequest) :
    (w.params name req).key = w.key name := rfl

/-- A handler for the presets of an owner makes no call about those of another. -/
def Minds (w : Owner) (p : Handler) : Prop := p.Calls fun c => c.owner = w

/-- An answer minds nobody's presets. -/
theorem minds_ret (r : Response) : Minds w (.ret r) := trivial

/-- A call about the owner's presets may go before a handler that minds them. -/
theorem minds_ask {c : Call} (hc : c.owner = w) {k : c.Result → Handler} (hk : ∀ r, Minds w (k r)) :
    Minds w (ask c >>= k) := ⟨hc, hk⟩

/-- Decoding the body makes no call. -/
theorem minds_decode {body : Bytes} {k : PresetRequest → Handler} (h : ∀ req, Minds w (k req)) :
    Minds w (decodePresetRequest host body k) := by
  unfold decodePresetRequest
  split
  · exact minds_ret _
  · exact h _

/-- Neither does checking the options. -/
theorem minds_validOpts {req : PresetRequest} {k : Handler} (h : Minds w k) :
    Minds w (withValidOpts host req k) := by
  unfold withValidOpts
  split
  · exact minds_ret _
  · exact h

/-- Nor checking the name. -/
theorem minds_validName {name : String} {k : Handler} (h : Minds w k) :
    Minds w (withValidName name k) := by
  unfold withValidName
  split
  · exact h
  · exact minds_ret _

/-- Creating a preset minds the presets of its owner. -/
theorem handleCreate_minds (host : Host) (w : Owner) (body : Bytes) :
    Minds w (handleCreate host w body) := by
  refine minds_decode fun req => minds_validName (minds_validOpts ?_)
  have hcreate : (createPreset w req.name req).Calls fun c => c.owner = w := by
    refine Prog.Calls.andThen ⟨rfl, fun _ => trivial⟩ fun found => ?_
    split
    · trivial
    · exact ⟨rfl, fun _ => trivial⟩
  refine hcreate.bind fun r => ?_
  rcases r with (_ | _ | _) | _
  · exact minds_ret _
  · exact minds_ret _
  · exact minds_ret _
  · refine minds_ask rfl fun found => ?_
    rcases found with _ | p
    · exact minds_ret _
    · exact minds_ret _

/-- So does listing them. -/
theorem handleList_minds (w : Owner) (all : Bool) : Minds w (handleList w all) := by
  refine minds_ask rfl fun found => ?_
  rcases found with _ | ps
  · exact minds_ret _
  · exact minds_ret _

/-- So does showing one. -/
theorem handleShow_minds (w : Owner) (name : String) : Minds w (handleShow w name) := by
  refine minds_validName (minds_ask rfl fun found => ?_)
  rcases found with (_ | _ | _) | p
  · exact minds_ret _
  · exact minds_ret _
  · exact minds_ret _
  · exact minds_ret _

/-- So does updating one. -/
theorem handleUpdate_minds (host : Host) (w : Owner) (name : String) (body : Bytes) :
    Minds w (handleUpdate host w name body) := by
  refine minds_validName (minds_decode fun req => minds_validOpts (minds_ask rfl fun updated => ?_))
  rcases updated with (_ | _ | _) | _
  · exact minds_ret _
  · exact minds_ret _
  · exact minds_ret _
  · refine minds_ask rfl fun found => ?_
    rcases found with _ | p
    · exact minds_ret _
    · exact minds_ret _

/-- So does deactivating one. -/
theorem handleDeactivate_minds (w : Owner) (name : String) : Minds w (handleDeactivate w name) := by
  refine minds_validName (minds_ask rfl fun done => ?_)
  rcases done with (_ | _ | _) | _
  · exact minds_ret _
  · exact minds_ret _
  · exact minds_ret _
  · exact minds_ret _

/-- The presets that a request may be about: those of its caller, or those of the system, if its caller
is an operator. -/
def Allows (host : Host) (caller : Option UUID) (system : Bool) : Owner → Prop
  | .system => system = true ∧ ∃ client ∈ host.operators, caller = some client
  | .user client => system = false ∧ caller = some client

/-- **A request makes only the calls that its caller may make.** -/
theorem serve_calls (host : Host) (client : UUID) (r : HttpRequest) :
    (serve host client r).Calls fun c => Allows host (some client) r.system c.owner := by
  unfold serve
  split
  · rename_i hsystem
    unfold requireOperator
    split
    · rename_i hoperator
      have hallow : ∀ c : Call, c.owner = .system → Allows host (some client) r.system c.owner := by
        intro c hc
        rw [hc]
        exact ⟨hsystem, client, hoperator, rfl⟩
      rcases r.route with _ | all | name | name | name
      · exact (handleCreate_minds host .system _).mono hallow
      · exact (handleList_minds .system all).mono hallow
      · exact (handleShow_minds .system name).mono hallow
      · exact (handleUpdate_minds host .system name _).mono hallow
      · exact (handleDeactivate_minds .system name).mono hallow
    · exact Prog.calls_ret _
  · rename_i hsystem
    have hallow : ∀ c : Call, c.owner = .user client → Allows host (some client) r.system c.owner := by
      intro c hc
      rw [hc]
      exact ⟨Bool.eq_false_iff.mpr hsystem, rfl⟩
    rcases r.route with _ | all | name | name | name
    · exact (handleCreate_minds host (.user client) _).mono hallow
    · exact (handleList_minds (.user client) all).mono hallow
    · exact (handleShow_minds (.user client) name).mono hallow
    · exact (handleUpdate_minds host (.user client) name _).mono hallow
    · exact (handleDeactivate_minds (.user client) name).mono hallow

/-- What a request still calls is allowed to it. -/
def Served.Ok (host : Host) (x : Served) : Prop :=
  x.prog.Calls fun c => Allows host x.caller x.system c.owner

/-- What a request does once it has passed the middleware is what its caller may do. -/
theorem middleware_ok (host : Host) (t : Clients.ClientTable) (fault : Fault) (r : HttpRequest) :
    (middleware host t fault r).Ok host := by
  unfold middleware
  split
  · exact Prog.calls_ret _
  · split
    · exact Prog.calls_ret _
    · exact Prog.calls_ret _
    · exact serve_calls host _ r

/-- A caller presented a key that is active for it. -/
theorem middleware_caller {t : Clients.ClientTable} {fault : Fault} {r : HttpRequest} {client : UUID}
    (h : (middleware host t fault r).caller = some client) :
      ∃ key name, parseAPIKey r.authorization = some key ∧
      Clients.getByKeyHash t (host.hashKey key) = .ok (client, name) := by
  unfold middleware at h
  split at h
  · cases h
  · rename_i key hkey
    split at h
    · cases h
    · cases h
    · rename_i found hfound
      obtain rfl := Option.some.inj h
      unfold resolveClient at hfound
      split at hfound
      · split at hfound
        · rename_i x hx
          obtain rfl := Except.ok.inj hfound
          exact ⟨key, x.2, hkey, hx⟩
        · exact nomatch hfound
      · exact nomatch hfound
      · exact nomatch hfound

/-! ## What a step does -/

variable {s s' : State} {a : Act} {n : Nat}

/-- Every request is confined to what it may call. -/
def State.Ok (host : Host) (s : State) : Prop := ∀ n x, s.requests n = some x → x.Ok host

/-- **One step**: a request is taken in, or makes one call that is allowed to it, or keys change. -/
theorem step_cases (hs : s.Ok host) (h : step host s a = some s') :
    (∃ n r fault, a = .arrive n r fault ∧ s.requests n = none ∧
      s' = s.put n (middleware host s.clients fault r)) ∨
    (∃ n o x c k, a = .call n o ∧ s.requests n = some x ∧ x.prog = .call c k ∧
      s.presets.find? o.newID = none ∧ Allows host x.caller x.system c.owner ∧
      s' = { s.put n ⟨x.caller, x.system, k (c.exec o s.presets).1⟩ with
        presets := (c.exec o s.presets).2 }) ∨
    (∃ op, a = .keys op ∧ s' = { s with clients := Clients.apply s.clients op }) := by
  rcases a with ⟨n, r, fault⟩ | ⟨n, o⟩ | op
  · simp only [step] at h
    split at h
    · rename_i hfree
      exact .inl ⟨n, r, fault, rfl, hfree, (Option.some.inj h).symm⟩
    · cases h
  · simp only [step] at h
    split at h
    · rename_i caller system c k hx
      split at h
      · rename_i hfresh
        exact .inr (.inl ⟨n, o, _, c, k, rfl, hx, rfl, hfresh, (hs n _ hx).1, (Option.some.inj h).symm⟩)
      · cases h
    · cases h
  · exact .inr (.inr ⟨op, rfl, (Option.some.inj h).symm⟩)

/-- A request that makes only allowed calls can be put into the state. -/
theorem State.ok_put {x : Served} (hs : s.Ok host) (hx : x.Ok host) : (s.put n x).Ok host := by
  intro m y hy
  simp only [State.put] at hy
  split at hy
  · obtain rfl := Option.some.inj hy
    exact hx
  · exact hs m y hy

/-- Every step keeps to the allowed calls. -/
theorem State.Ok.step (hs : s.Ok host) (h : step host s a = some s') : s'.Ok host := by
  rcases step_cases hs h with ⟨n, r, fault, -, -, rfl⟩ | ⟨n, o, x, c, k, -, hx, hprog, -, -, rfl⟩ |
    ⟨op, -, rfl⟩
  · exact State.ok_put hs (middleware_ok host _ _ _)
  · have hok := hs n x hx
    rw [Served.Ok, hprog] at hok
    exact State.ok_put hs (hok.2 _)
  · exact hs

end OctoConv.Api.Rest
