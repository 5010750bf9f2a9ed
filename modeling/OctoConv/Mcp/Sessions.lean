import Mathlib.Data.Set.Function
import OctoConv.Base.Time
import OctoConv.Lib.Program
import OctoConv.Lib.Run

/-!
# Session bindings of the MCP endpoint

The middleware of mcp-http keeps a map from session ids to the digest of the key that owns them. A
request is checked against the map, binds the session id of its header, is forwarded to the MCP
handler, and binds the session id of the response. Each use of the map holds its mutex, but two of
them do not: a run interleaves the steps of any number of requests.

The SHA-256 of a key and the session id that the MCP handler puts on a response are parameters of a
run.

Source: `cmd/mcp-http/main.go` sessionBindings.

## Main results

* `exclusive_iff` — a session stays with the key that bound it first, and no request of another key
  is forwarded for it, exactly if the check still stands whenever a request binds or is forwarded.
* `two_owners` — two requests that are checked before either binds.
-/

set_option linter.unusedSectionVars false

namespace OctoConv.Mcp

open Conc

/-! ## The middleware -/

/-- A request as the middleware sees it: the key in its context, the `Mcp-Session-Id` header (empty if
there is none) and the method. -/
structure Request where
  contextKey : Option String
  sessionID : String
  method : String
deriving DecidableEq, Repr

/-- The caller key stashed by the auth middleware.

Source: `main.go` callerKeyFrom -/
def callerKeyFrom (r : Request) : Option String := r.contextKey.filter (· ≠ "")

/-- An entry of the map.

Source: `main.go` binding -/
structure Binding (D : Type) where
  keyHash : D
  lastSeen : Int
deriving DecidableEq, Repr

/-- What the middleware does to the map, and the call of the MCP handler. -/
inductive Call (D : Type)
  | check (sessionID : String) (keyHash : D)
  | bind (sessionID : String) (keyHash : D)
  | drop (sessionID : String)
  /-- `next.ServeHTTP` -/
  | serveHTTP (r : Request)

/-- The answers; the MCP handler leaves a session id on the response, or the empty string. -/
def Call.Result {D : Type} : Call D → Type
  | .check _ _ => Bool
  | .bind _ _ => Unit
  | .drop _ => Unit
  | .serveHTTP _ => String

/-- How a request ends. -/
inductive Reply
  /-- An error of the middleware. -/
  | refused (status : Nat) (msg : String)
  /-- The response of the MCP handler. -/
  | served
deriving DecidableEq, Repr

variable {D : Type}

/-- Forward the request and bind the session id that the handler has just issued. -/
def forwardAndBind (r : Request) (keyHash : D) : Prog (Call D) Call.Result Reply :=
  .call (.serveHTTP r) fun (sessionID : String) =>
    if sessionID ≠ "" then .call (.bind sessionID keyHash) fun _ => .ret .served
    else .ret .served

/-- The middleware.

Source: `main.go` middleware -/
def middleware (sha256 : String → D) (r : Request) : Prog (Call D) Call.Result Reply :=
  match callerKeyFrom r with
  | none => .ret (.refused 401 "missing or malformed Authorization header")
  | some key =>
      if r.sessionID ≠ "" then
        .call (.check r.sessionID (sha256 key)) fun (ok : Bool) =>
          if ok = false then .ret (.refused 403 "session does not belong to this api key")
          else if r.method = "DELETE" then
            .call (.serveHTTP r) fun _ => .call (.drop r.sessionID) fun _ => .ret .served
          else .call (.bind r.sessionID (sha256 key)) fun _ => forwardAndBind r (sha256 key)
      else forwardAndBind r (sha256 key)

/-! ## Runs -/

/-- How long an entry survives without being touched.

Source: `main.go` bindingIdleTTL -/
def bindingIdleTTL : Int := 30 * minute

/-- The map, and the requests with what is left to do for each. `owner` is the key that has bound a
session first since it was last dropped or swept; the code does not keep it. -/
structure Sessions (D : Type) where
  now : Int
  m : String → Option (Binding D)
  owner : String → Option String
  requests : List (Request × Prog (Call D) Call.Result Reply)

/-- What happens next. -/
inductive Act
  | tick (d : Nat)
  | arrive (r : Request)
  /-- The next call of a request; `issued` is what the MCP handler answers if the call is its. -/
  | perform (i : Nat) (issued : String)
  /-- The sweep of a tick that was sent at this time. -/
  | sweep (tick : Int)

variable [DecidableEq D]

namespace Sessions

/-- The process has started. -/
def init : Sessions D := ⟨0, fun _ => none, fun _ => none, []⟩

/-- The answer of check.

Source: `main.go` check -/
def check (x : Sessions D) (sessionID : String) (keyHash : D) : Bool :=
  match x.m sessionID with
  | none => true
  | some entry => entry.keyHash = keyHash

/-- A matching check refreshes the entry.

Source: `main.go` check -/
def refresh (x : Sessions D) (sessionID : String) (keyHash : D) : Sessions D :=
  match x.m sessionID with
  | none => x
  | some entry =>
      if entry.keyHash = keyHash then
        { x with m := Function.update x.m sessionID (some { entry with lastSeen := x.now }) }
      else x

/-- An entry is written.

Source: `main.go` bind -/
def bind (x : Sessions D) (sessionID : String) (keyHash : D) (key : Option String) : Sessions D :=
  { x with
    m := Function.update x.m sessionID (some ⟨keyHash, x.now⟩)
    owner := Function.update x.owner sessionID ((x.owner sessionID).or key) }

/-- The entries of some sessions are deleted. -/
def remove (x : Sessions D) (gone : String → Bool) : Sessions D :=
  { x with
    m := fun id => if gone id then none else x.m id
    owner := fun id => if gone id then none else x.owner id }

/-- An entry is deleted.

Source: `main.go` drop -/
def drop (x : Sessions D) (sessionID : String) : Sessions D := x.remove (· = sessionID)

/-- The entries that have been idle for too long are deleted.

Source: `main.go` sweep -/
def sweep (x : Sessions D) (now : Int) : Sessions D :=
  x.remove fun id => (x.m id).any fun entry => bindingIdleTTL < now - entry.lastSeen

/-- One call of a request. -/
def exec (x : Sessions D) (r : Request) (issued : String) :
    (c : Call D) → c.Result × Sessions D
  | .check sessionID keyHash => (x.check sessionID keyHash, x.refresh sessionID keyHash)
  | .bind sessionID keyHash => ((), x.bind sessionID keyHash (callerKeyFrom r))
  | .drop sessionID => ((), x.drop sessionID)
  | .serveHTTP _ => (issued, x)

/-- One step. -/
def step (sha256 : String → D) (x : Sessions D) : Act → Option (Sessions D)
  | .tick d => some { x with now := x.now + d }
  | .arrive r => some { x with requests := x.requests ++ [(r, middleware sha256 r)] }
  | .perform i issued =>
      match x.requests[i]? with
      | some (r, .call c k) => some {
          (x.exec r issued c).2 with
          requests := x.requests.set i (r, k (x.exec r issued c).1) }
      | _ => none
  | .sweep tick => some (x.sweep tick)

/-- The call that a step performs. -/
def call? (x : Sessions D) : Act → Option (Call D)
  | .perform i _ =>
      match x.requests[i]? with
      | some (_, .call c _) => some c
      | _ => none
  | _ => none

/-! ## What is promised -/

/-- The digest that a session is bound to. -/
def keyHash (x : Sessions D) (id : String) : Option D := (x.m id).map Binding.keyHash

/-- Every session that is bound is bound to its owner's key. -/
def Consistent (sha256 : String → D) (x : Sessions D) : Prop :=
  ∀ id key, x.owner id = some key → x.keyHash id = some (sha256 key)

/-- A request is forwarded for a session only with the key of its owner. -/
def ForwardsOwn (x : Sessions D) (a : Act) : Prop :=
  ∀ r, x.call? a = some (.serveHTTP r) → ∀ key, x.owner r.sessionID = some key →
    callerKeyFrom r = some key

/-- When a session is bound, or a request is forwarded for one, the check of it still stands. -/
def CheckStands (sha256 : String → D) (x : Sessions D) (a : Act) : Prop :=
  match x.call? a with
  | some (.bind id keyHash) => x.check id keyHash = true
  | some (.serveHTTP r) => ∀ key, callerKeyFrom r = some key →
      x.check r.sessionID (sha256 key) = true
  | _ => True

end Sessions

/-- The keys of the requests that arrive. -/
def presented (tr : List (Sessions D × Act)) : Set String :=
  {key | ∃ x ∈ tr, ∃ r, x.2 = .arrive r ∧ callerKeyFrom r = some key}

/-! ## What a request calls -/

variable {sha256 : String → D}

/-- A request binds sessions to its own key, and only a request with a key is forwarded. -/
def OwnCall (sha256 : String → D) (r : Request) : Call D → Prop
  | .bind _ keyHash => ∃ key, callerKeyFrom r = some key ∧ keyHash = sha256 key
  | .serveHTTP r' => r' = r ∧ ∃ key, callerKeyFrom r = some key
  | _ => True

/-- The calls of forwarding a request are about its own session, key and hash. -/
theorem calls_forwardAndBind {r : Request} {key : String} (hkey : callerKeyFrom r = some key) :
    (forwardAndBind r (sha256 key)).Calls (OwnCall sha256 r) := by
  refine ⟨⟨rfl, key, hkey⟩, fun sessionID => ?_⟩
  dsimp only
  split
  · exact ⟨⟨key, hkey, rfl⟩, fun _ => trivial⟩
  · trivial

/-- So are all calls of a request. -/
theorem calls_middleware (r : Request) : (middleware sha256 r).Calls (OwnCall sha256 r) := by
  unfold middleware
  split
  · trivial
  · rename_i key hkey
    split
    · refine ⟨trivial, fun ok => ?_⟩
      dsimp only
      split
      · trivial
      · split
        · exact ⟨⟨rfl, key, hkey⟩, fun _ => ⟨trivial, fun _ => trivial⟩⟩
        · exact ⟨⟨key, hkey, rfl⟩, fun _ => calls_forwardAndBind hkey⟩
    · exact calls_forwardAndBind hkey

namespace Sessions

variable {x y : Sessions D} {a : Act} {id : String} {h : D}

/-! ## What the operations do -/

/-- The check lets a session through that is unbound, or bound to this hash. -/
theorem check_iff : x.check id h = true ↔ x.keyHash id = none ∨ x.keyHash id = some h := by
  unfold check keyHash
  rcases x.m id with _ | entry <;> simp

/-- A refresh binds nothing. -/
theorem keyHash_refresh (j : String) : (x.refresh id h).keyHash j = x.keyHash j := by
  unfold refresh
  split
  · rfl
  · rename_i entry hm
    split
    · by_cases hj : j = id
      · simp [keyHash, hj, hm]
      · simp [keyHash, hj]
    · rfl

/-- A refresh gives no session to anybody. -/
theorem owner_refresh : (x.refresh id h).owner = x.owner := by
  unfold refresh
  split
  · rfl
  · split <;> rfl

/-- A binding is about its session only, and overwrites. -/
theorem keyHash_bind (key : Option String) (j : String) :
    (x.bind id h key).keyHash j = if j = id then some h else x.keyHash j := by
  by_cases hj : j = id <;> simp [keyHash, bind, hj]

/-- The first binding decides whose session it is. -/
theorem owner_bind (key : Option String) (j : String) :
    (x.bind id h key).owner j = if j = id then (x.owner id).or key else x.owner j := by
  by_cases hj : j = id <;> simp [bind, hj]

/-- A session that is removed is unbound; the others stay as they are. -/
theorem keyHash_remove (gone : String → Bool) (j : String) :
    (x.remove gone).keyHash j = if gone j then none else x.keyHash j := by
  unfold remove keyHash
  dsimp only
  split <;> rfl

/-- The sessions in `gone` are no longer bound, and the others are as they were. -/
def Removes (gone : String → Bool) (x y : Sessions D) : Prop :=
  ∀ j, y.keyHash j = (if gone j then none else x.keyHash j) ∧
    y.owner j = if gone j then none else x.owner j

/-- Removing sessions removes them. -/
theorem removes_remove (gone : String → Bool) : Removes gone x (x.remove gone) :=
  fun j => ⟨keyHash_remove gone j, rfl⟩

/-- Nothing is removed. -/
theorem removes_none (hk : ∀ j, y.keyHash j = x.keyHash j) (ho : y.owner = x.owner) :
    Removes (fun _ => false) x y :=
  fun j => ⟨hk j, congrFun ho j⟩

/-- **What a step does to the sessions.** Some are removed, or one is bound. -/
theorem step_sessions (hs : step sha256 x a = some y) :
    (∃ gone, Removes gone x y) ∨
      ∃ i issued r id h, ∃ k : Unit → Prog (Call D) Call.Result Reply, a = .perform i issued ∧
        x.requests[i]? = some (r, .call (.bind id h) k) ∧ ∀ j,
          y.keyHash j = (x.bind id h (callerKeyFrom r)).keyHash j ∧
          y.owner j = (x.bind id h (callerKeyFrom r)).owner j := by
  cases a with
  | tick d =>
      obtain rfl := Option.some.inj hs
      exact .inl ⟨_, removes_none (fun _ => rfl) rfl⟩
  | arrive r =>
      obtain rfl := Option.some.inj hs
      exact .inl ⟨_, removes_none (fun _ => rfl) rfl⟩
  | sweep tick =>
      obtain rfl := Option.some.inj hs
      exact .inl ⟨_, removes_remove _⟩
  | perform i issued =>
      simp only [step] at hs
      split at hs
      · rename_i r c k hi
        obtain rfl := Option.some.inj hs
        cases c with
        | check id h => exact .inl ⟨_, removes_none (fun j => keyHash_refresh j) owner_refresh⟩
        | bind id h => exact .inr ⟨i, issued, r, id, h, k, rfl, hi, fun j => ⟨rfl, rfl⟩⟩
        | drop id => exact .inl ⟨_, removes_remove _⟩
        | serveHTTP r' => exact .inl ⟨_, removes_none (fun _ => rfl) rfl⟩
      · cases hs

/-- Requests only go on with what is left of them, and new ones arrive. -/
theorem step_requests (hs : step sha256 x a = some y) {q : Request × Prog (Call D) Call.Result Reply}
    (hq : q ∈ y.requests) :
    q ∈ x.requests ∨ (a = .arrive q.1 ∧ q.2 = middleware sha256 q.1) ∨
      ∃ c k r, (q.1, .call c k) ∈ x.requests ∧ q.2 = k r := by
  cases a with
  | tick d =>
      obtain rfl := Option.some.inj hs
      exact .inl hq
  | arrive r =>
      obtain rfl := Option.some.inj hs
      rcases List.mem_append.mp hq with hq | hq
      · exact .inl hq
      · obtain rfl := List.mem_singleton.mp hq
        exact .inr (.inl ⟨rfl, rfl⟩)
  | sweep tick =>
      obtain rfl := Option.some.inj hs
      exact .inl hq
  | perform i issued =>
      simp only [step] at hs
      split at hs
      · rename_i r c k hi
        obtain rfl := Option.some.inj hs
        rcases List.mem_or_eq_of_mem_set hq with hq | rfl
        · exact .inl hq
        · exact .inr (.inr ⟨c, k, _, List.mem_of_getElem? hi, rfl⟩)
      · cases hs

/-- The call of a step, with the request that makes it. -/
theorem call?_eq_some {c : Call D} (h : x.call? a = some c) :
    ∃ i issued r k, a = .perform i issued ∧ x.requests[i]? = some (r, .call c k) := by
  unfold call? at h
  split at h
  · rename_i i issued
    split at h
    · rename_i r c' k hi
      obtain rfl := Option.some.inj h
      exact ⟨i, issued, r, k, rfl, hi⟩
    · cases h
  · cases h

/-- The call that is performed next. -/
theorem call?_perform {i : Nat} {issued : String} {r : Request} {c : Call D}
    {k : c.Result → Prog (Call D) Call.Result Reply} (hi : x.requests[i]? = some (r, .call c k)) :
    x.call? (.perform i issued) = some c := by
  simp only [call?, hi]

/-! ## The invariant -/

/-- What holds in every run: the requests make calls of their own, with keys that have arrived, and
the bound sessions are the ones with an owner. -/
structure Inv (sha256 : String → D) (K : Set String) (x : Sessions D) : Prop where
  calls : ∀ q ∈ x.requests, q.2.Calls (OwnCall sha256 q.1)
  keys : ∀ q ∈ x.requests, ∀ key, callerKeyFrom q.1 = some key → key ∈ K
  owned : ∀ id, x.owner id = none ↔ x.keyHash id = none
  ownerKeys : ∀ id key, x.owner id = some key → key ∈ K

variable {K : Set String}

/-- The invariant holds at the start. -/
theorem inv_init : Inv sha256 K (init : Sessions D) where
  calls q hq := absurd hq List.not_mem_nil
  keys q hq := absurd hq List.not_mem_nil
  owned id := by simp [init, keyHash]
  ownerKeys id key h := by cases h

/-- **The step lemma.** -/
theorem Inv.step (hx : x.Inv sha256 K) (hs : Sessions.step sha256 x a = some y)
    (hK : ∀ r, a = .arrive r → ∀ key, callerKeyFrom r = some key → key ∈ K) :
    y.Inv sha256 K := by
  refine ⟨fun q hq => ?_, fun q hq key hkey => ?_, fun id => ?_, fun id key hkey => ?_⟩
  · rcases step_requests hs hq with hq | ⟨_, hm⟩ | ⟨c, k, r, hq, hk⟩
    · exact hx.calls q hq
    · rw [hm]
      exact calls_middleware q.1
    · rw [hk]
      exact (hx.calls _ hq).2 r
  · rcases step_requests hs hq with hq | ⟨ha, _⟩ | ⟨c, k, r, hq, _⟩
    · exact hx.keys q hq key hkey
    · exact hK q.1 ha key hkey
    · exact hx.keys _ hq key hkey
  · rcases step_sessions hs with ⟨gone, hr⟩ | ⟨i, issued, r, id', h, k, _, hi, hb⟩
    · rw [(hr id).1, (hr id).2]
      split
      · simp
      · exact hx.owned id
    · obtain ⟨⟨key, hkey, _⟩, _⟩ := hx.calls _ (List.mem_of_getElem? hi)
      rw [(hb id).1, (hb id).2, keyHash_bind, owner_bind, hkey]
      split
      · rcases x.owner id' <;> simp
      · exact hx.owned id
  · rcases step_sessions hs with ⟨gone, hr⟩ | ⟨i, issued, r, id', h, k, _, hi, hb⟩
    · rw [(hr id).2] at hkey
      split at hkey
      · cases hkey
      · exact hx.ownerKeys id key hkey
    · rw [(hb id).2, owner_bind] at hkey
      split at hkey
      · rcases Option.or_eq_some_iff.mp hkey with ho | ⟨_, hr⟩
        · exact hx.ownerKeys id' key ho
        · exact hx.keys _ (List.mem_of_getElem? hi) key hr
      · exact hx.ownerKeys id key hkey

/-- At the start nothing is bound. -/
theorem consistent_init : Consistent sha256 (init : Sessions D) := fun _ _ h => by cases h

/-- If the check stands when a session is bound, it stays with its owner. -/
theorem Consistent.step (hc : x.Consistent sha256) (hx : x.Inv sha256 K)
    (ha : x.CheckStands sha256 a) (hs : Sessions.step sha256 x a = some y) :
    y.Consistent sha256 := by
  intro id key hkey
  rcases step_sessions hs with ⟨gone, hr⟩ | ⟨i, issued, r, id', h, k, rfl, hi, hb⟩
  · rw [(hr id).2] at hkey
    rw [(hr id).1]
    split at hkey
    · cases hkey
    · rename_i hg
      rw [if_neg hg]
      exact hc id key hkey
  · rw [(hb id).2, owner_bind] at hkey
    rw [(hb id).1, keyHash_bind]
    split at hkey
    · rename_i hid
      rw [if_pos hid]
      obtain ⟨⟨key', hkey', rfl⟩, _⟩ := hx.calls _ (List.mem_of_getElem? hi)
      rcases Option.or_eq_some_iff.mp hkey with ho | ⟨_, hr⟩
      · -- the session has an owner already, and the check has compared the digests
        simp only [CheckStands, call?_perform hi, check_iff] at ha
        rw [hc id' key ho] at ha
        simpa [eq_comm] using ha
      · rw [hkey'] at hr
        rw [Option.some.inj hr]
    · rename_i hid
      rw [if_neg hid]
      exact hc id key hkey

/-- If the check stands when a request is forwarded, it is forwarded with the key of the owner. -/
theorem forwardsOwn_of_checkStands (hsha : Set.InjOn sha256 K) (hx : x.Inv sha256 K)
    (hc : x.Consistent sha256) (ha : x.CheckStands sha256 a) : x.ForwardsOwn a := by
  intro r hr key ho
  obtain ⟨i, issued, r', k, rfl, hi⟩ := call?_eq_some hr
  obtain ⟨⟨rfl, key', hkey'⟩, _⟩ := hx.calls _ (List.mem_of_getElem? hi)
  simp only [CheckStands, hr, check_iff] at ha
  have heq : sha256 key = sha256 key' := by
    have := ha key' hkey'
    rw [hc _ key ho] at this
    simpa using this
  have hK' : key' ∈ K := hx.keys _ (List.mem_of_getElem? hi) key' hkey'
  rw [hkey', hsha (hx.ownerKeys _ key ho) hK' heq]

/-- The check stands at a step that forwards only for owners and leaves every session with its
owner. -/
theorem checkStands_of_consistent (hx : x.Inv sha256 K) (hc : x.Consistent sha256)
    (hf : x.ForwardsOwn a) (hs : Sessions.step sha256 x a = some y)
    (hy : y.Consistent sha256) : x.CheckStands sha256 a := by
  rcases hcall : x.call? a with _ | c
  · simp only [CheckStands, hcall]
  · obtain ⟨i, issued, r, k, rfl, hi⟩ := call?_eq_some hcall
    cases c with
    | bind id h =>
        simp only [CheckStands, hcall, check_iff]
        rcases ho : x.owner id with _ | key
        · exact .inl ((hx.owned id).mp ho)
        · -- the owner stays, and so does its digest
          right
          simp only [Sessions.step, hi] at hs
          obtain rfl := Option.some.inj hs
          have hy' := hy id key (by simp [exec, owner_bind, ho])
          have hb : (x.bind id h (callerKeyFrom r)).keyHash id = some (sha256 key) := hy'
          rw [keyHash_bind, if_pos rfl] at hb
          rw [hc id key ho, hb]
    | serveHTTP r' =>
        simp only [CheckStands, hcall, check_iff]
        intro key hkey
        rcases ho : x.owner r'.sessionID with _ | key'
        · exact .inl ((hx.owned _).mp ho)
        · right
          rw [hc _ key' ho]
          have := hf r' hcall key' ho
          rw [hkey] at this
          rw [Option.some.inj this]
    | check id h => simp only [CheckStands, hcall]
    | drop id => simp only [CheckStands, hcall]

/-! ## Runs -/

variable {tr : List (Sessions D × Act)}

/-- The keys of a run's requests have arrived in it. -/
theorem mem_presented {z : Sessions D × Act} (hz : z ∈ tr) (r : Request) (hr : z.2 = .arrive r)
    (key : String) (hkey : callerKeyFrom r = some key) : key ∈ presented tr :=
  ⟨z, hz, r, hr, hkey⟩

/-- The invariant holds in every state of a run. -/
theorem inv_of_exec (h : Exec (step sha256) init tr x) :
    (∀ z ∈ tr, z.1.Inv sha256 (presented tr)) ∧ x.Inv sha256 (presented tr) :=
  h.invariant (P := fun _ a => ∀ r, a = .arrive r → ∀ key, callerKeyFrom r = some key →
      key ∈ presented tr)
    (fun _ _ _ hi ha hs => hi.step hs ha) inv_init fun _ hz => mem_presented hz

/-- **A session belongs to one key.** In a run whose keys have different digests, every session
stays bound to the key that bound it first until it is dropped or swept, and meanwhile no request of
another key is forwarded for it, exactly if the check still stands whenever a session is bound or a
request is forwarded. -/
theorem exclusive_iff (h : Exec (step sha256) init tr x)
    (hsha : Set.InjOn sha256 (presented tr)) :
    ((∀ z ∈ tr, z.1.Consistent sha256 ∧ z.1.ForwardsOwn z.2) ∧ x.Consistent sha256) ↔
      ∀ z ∈ tr, z.1.CheckStands sha256 z.2 := by
  have hinv := (inv_of_exec h).1
  constructor
  · rintro ⟨hall, hlast⟩ z hz
    obtain ⟨u, hu⟩ := h.step_of_mem hz
    refine checkStands_of_consistent (hinv z hz) (hall z hz).1 (hall z hz).2 hu ?_
    rcases h.next_of_mem hz hu with rfl | ⟨w, hw, rfl⟩
    · exact hlast
    · exact (hall w hw).1
  · intro hP
    have hrun := h.invariant
      (I := fun x => x.Inv sha256 (presented tr) ∧ x.Consistent sha256)
      (P := fun x a => x.CheckStands sha256 a ∧ ∀ r, a = .arrive r → ∀ key,
        callerKeyFrom r = some key → key ∈ presented tr)
      (fun _ _ _ hi ha hs => ⟨hi.1.step hs ha.2, hi.2.step hi.1 ha.1 hs⟩)
      ⟨inv_init, consistent_init⟩ fun z hz => ⟨hP z hz, mem_presented hz⟩
    refine ⟨fun z hz => ⟨(hrun.1 z hz).2, ?_⟩, hrun.2.2⟩
    exact forwardsOwn_of_checkStands hsha (hinv z hz) (hrun.1 z hz).2 (hP z hz)

end Sessions

/-! ## Two requests for one session -/

/-- A POST with a key and a session id. -/
def post (key : String) : Request := ⟨some key, "s", "POST"⟩

/-- The digests of the two keys. -/
def digest (key : String) : BitVec 256 :=
  if key = "key-a" then 0xf10f781241e2246678b6b45c857069208152a53863e47fac33f607ab405006f4#256
  else if key = "key-b" then 0xa30534a53b23547377ddccbd1ac85a8a84c13db43493c16e55a6abc7b0eba634#256
  else 0#256

/-- The second request arrives when the first has been answered. -/
def inTurn : List (Sessions (BitVec 256) × Act) × Sessions (BitVec 256) :=
  runOf (Sessions.step digest) .init
    [.arrive (post "key-a"), .perform 0 "", .perform 0 "", .perform 0 "",
      .arrive (post "key-b"), .perform 1 ""] rfl

/-- Both requests are checked before either binds. -/
def atOnce : List (Sessions (BitVec 256) × Act) × Sessions (BitVec 256) :=
  runOf (Sessions.step digest) .init
    [.arrive (post "key-a"), .arrive (post "key-b"), .perform 0 "", .perform 1 "",
      .perform 0 "", .perform 1 "", .perform 1 ""] rfl

/-- The keys of that run have different hashes. -/
theorem presented_inTurn : Set.InjOn digest (presented inTurn.1) := by
  have hsub : ∀ key ∈ presented inTurn.1, key = "key-a" ∨ key = "key-b" := by
    rintro key ⟨z, hz, r, hr, hkey⟩
    have hmem := mem_runOf hz
    rw [hr] at hmem
    simp only [List.mem_cons, Act.arrive.injEq, reduceCtorEq, List.not_mem_nil, or_false,
      false_or] at hmem
    rcases hmem with rfl | rfl
    · exact .inl (Option.some.inj hkey).symm
    · exact .inr (Option.some.inj hkey).symm
  intro key hkey key' hkey' h
  rcases hsub key hkey with rfl | rfl <;> rcases hsub key' hkey' with rfl | rfl
  · rfl
  · exact absurd h (by decide)
  · exact absurd h (by decide)
  · rfl

/-- The exact condition, in a run of two callers in turn. -/
theorem exclusive_iff_inTurn :
    Exec (Sessions.step digest) .init inTurn.1 inTurn.2 ∧
      (((∀ z ∈ inTurn.1, z.1.Consistent digest ∧ z.1.ForwardsOwn z.2) ∧
          inTurn.2.Consistent digest) ↔
        ∀ z ∈ inTurn.1, z.1.CheckStands digest z.2) :=
  ⟨exec_runOf rfl, Sessions.exclusive_iff (exec_runOf rfl) presented_inTurn⟩

/-- Of two requests that are checked before either binds, the second takes the session over and is
forwarded for it. -/
theorem two_owners :
    Exec (Sessions.step digest) .init atOnce.1 atOnce.2 ∧
      (∃ z ∈ atOnce.1, z.1.owner "s" = some "key-a" ∧
        z.1.call? z.2 = some (.serveHTTP (post "key-b"))) ∧
      atOnce.2.owner "s" = some "key-a" ∧ atOnce.2.keyHash "s" = some (digest "key-b") ∧
      digest "key-b" ≠ digest "key-a" :=
  ⟨exec_runOf rfl, ⟨atOnce.1.get ⟨6, by decide⟩, List.get_mem _ _, rfl, rfl⟩, rfl, rfl, by decide⟩

end OctoConv.Mcp
