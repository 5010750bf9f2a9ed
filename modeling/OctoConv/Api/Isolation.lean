import OctoConv.Api.Service

/-!
# What clients see of each other

A client sees its own presets and those of the system. What it is answered does not depend on what other
clients do to theirs: the requests of other clients can be taken out of any run, however its calls were
interleaved, and all that is left runs as before, with the same answers.

Source: `internal/api/presets_handlers.go`, `internal/presets/repo.go`.

## Main results

* `exec_mine` — a call about what a client can see does the same where there is nothing else.
* `presets_isolated` — the requests of other clients can be taken out of a run.
* `presets_authorized` — whatever changes the presets of a client is a call of a request of that client,
  which came with an active key.
-/

namespace OctoConv.Api.Rest

open Conc Presets

variable {host : Host} {client : UUID} {w : Owner} {c : Call} {o : Obs} {t u : PresetTable}
  {k : PresetKey}
  {name : String} {r : Row}

/-! ## The part of the table that a client can see -/

/-- The rows that a client can see. -/
def mine (client : UUID) (t : PresetTable) : PresetTable := t.keep (relevant client)

/-- A client can see the presets of the owner. -/
def Owner.Concerns (client : UUID) : Owner → Prop
  | .system => True
  | .user c => c = client

/-- A row of the owner concerns the client. -/
theorem relevant_key (w : Owner) (name : String) (hw : w.Concerns client) (hk : r.key = w.key name) :
    relevant client r = true := by
  unfold relevant
  rw [hk]
  rcases w with _ | c
  · rfl
  · obtain rfl := hw
    simp [Owner.key, userKey]

/-- A row that is deactivated concerns the same clients. -/
theorem relevant_deactivate (now : Int) (r : Row) :
    relevant client (r.deactivate now) = relevant client r := rfl

/-- The next version of a preset is counted among the rows that a client can see. -/
theorem maxVersion_mine (hw : w.Concerns client) :
    maxVersion (mine client t) (w.key name) = maxVersion t (w.key name) := by
  unfold maxVersion mine
  rw [Table.filter_keep fun r hr => relevant_key w name hw (of_decide_eq_true hr)]

/-- The active row of a preset is found among them. -/
theorem activeRow?_mine (hw : w.Concerns client) :
    activeRow? (mine client t) (w.key name) = activeRow? t (w.key name) := by
  unfold activeRow? mine
  exact Table.findRow_keep fun r hr => relevant_key w name hw (of_decide_eq_true hr).1

/-- An insert of such a row does the same among them. -/
theorem insertRow_mine (hr : relevant client r = true) (hfresh : t.find? r.id = none) :
    (∃ u, insertRow t r = .ok u ∧ insertRow (mine client t) r = .ok (mine client u)) ∨
      ∃ v, insertRow t r = .error v ∧ insertRow (mine client t) r = .error v := by
  obtain ⟨u, hu, hin, -⟩ := Table.insert?_keep (p := relevant client) hfresh
  have hany : ((mine client t).rows.any fun x => x.key = r.key ∧ x.version = r.version) =
      t.rows.any fun x => x.key = r.key ∧ x.version = r.version := by
    refine Table.any_keep fun x hx => ?_
    have hkey := (of_decide_eq_true hx).1
    unfold relevant at hr ⊢
    rw [hkey]
    exact hr
  unfold insertRow
  rw [hany, hu, mine, hin hr]
  split
  · exact .inr ⟨_, rfl, rfl⟩
  · split
    · exact .inr ⟨_, rfl, rfl⟩
    · exact .inl ⟨u, rfl, rfl⟩

/-- The rows of the presets that meet `p`. -/
def part (p : PresetKey → Bool) (t : PresetTable) : PresetTable := t.keep fun r => p r.key

/-- An insert of another row changes nothing in the part. -/
theorem insertRow_others {p : PresetKey → Bool} (hr : p r.key = false) (hfresh : t.find? r.id = none)
    (h : insertRow t r = .ok u) : part p u = part p t := by
  obtain ⟨u', hu, -, hout⟩ := Table.insert?_keep (p := fun r : Row => p r.key) hfresh
  unfold insertRow at h
  rw [hu] at h
  split at h
  · exact nomatch h
  · split at h
    · exact nomatch h
    · obtain rfl := Except.ok.inj h
      exact hout hr

/-- A new id is still new after rows were deactivated. -/
theorem find?_deactivated {p : Row → Bool} {now : Int} {id : UUID} (h : t.find? id = none) :
    (t.update p (Row.deactivate now) (Row.deactivate_id now)).find? id = none := by
  refine List.find?_eq_none.mpr fun x hx => ?_
  have hfree := List.find?_eq_none.mp h
  rcases Table.mem_update.mp hx with ⟨hmem, -⟩ | ⟨y, hy, -, rfl⟩
  · exact hfree x hmem
  · exact hfree y hy

/-- Deactivating rows can be done in the part that a client can see. -/
theorem deactivated_mine (p : Row → Bool) (now : Int) :
    mine client (t.update p (Row.deactivate now) (Row.deactivate_id now)) =
      (mine client t).update p (Row.deactivate now) (Row.deactivate_id now) :=
  Table.keep_update _ (relevant_deactivate now)

/-! ## Calls about what a client can see -/

/-- An effect in the part that is seen: the same answer, and the part of what the table becomes. -/
def SameIn (client : UUID) (c : Call) (o : Obs) (t : PresetTable) : Prop :=
  c.effect o (mine client t) = ((c.effect o t).1, mine client (c.effect o t).2)

/-- The insert of a preset that the client can see does the same in the part. -/
theorem insert_mine (hw : w.Concerns client) (hfresh : t.find? o.newID = none) (req : PresetRequest) :
    SameIn client (.insert w name req) o t := by
  have hr : ∀ v, relevant client ((w.params name req).row o.newID o.now v) = true := fun v =>
    relevant_key w name hw rfl
  simp only [SameIn, Call.effect, Owner.params_key, maxVersion_mine hw]
  rcases insertRow_mine (hr _) hfresh with ⟨u, hu, hu'⟩ | ⟨v, hv, hv'⟩
  · rw [hu, hu']
  · rw [hv, hv']

/-- So does an update. -/
theorem update_mine (hw : w.Concerns client) (hfresh : t.find? o.newID = none) (req : PresetRequest) :
    SameIn client (.update w name req) o t := by
  have hr : ∀ v, relevant client ((w.params name req).row o.newID o.now v) = true := fun v =>
    relevant_key w name hw rfl
  simp only [SameIn, Call.effect, Presets.update, Owner.params_key, activeRow?_mine hw]
  rcases hcur : activeRow? t (w.key name) with _ | current
  · rfl
  dsimp only
  rw [deactivateVersion, deactivateVersion, ← deactivated_mine]
  rcases insertRow_mine (hr (current.version + 1)) (find?_deactivated hfresh) with
    ⟨u, hu, hu'⟩ | ⟨v, hv, hv'⟩
  · rw [hu, hu']
  · rw [hv, hv']

/-- So does a deactivation. -/
theorem deactivate_mine (hw : w.Concerns client) : SameIn client (.deactivate w name) o t := by
  simp only [SameIn, Call.effect, activeRow?_mine hw]
  rcases hcur : activeRow? t (w.key name) with _ | current
  · rfl
  · dsimp only
    rw [deactivateID, deactivateID, deactivated_mine]

/-- A preset that concerns the client is loaded from the rows that it can see. -/
theorem Owner.load_mine (hw : w.Concerns client) (name : String) :
    w.load (mine client t) name = w.load t name := by
  rcases w with _ | c
  · unfold Owner.load Presets.get mine
    rw [Table.filter_keep fun r hr =>
      relevant_key .system name trivial (of_decide_eq_true hr).1]
  · obtain rfl := hw
    exact (lookups_congr (Table.filter_keep fun _ h => h)).2.1

/-- So is a list of them. -/
theorem Owner.list_mine (hw : w.Concerns client) (all : Bool) :
    w.list (mine client t) all = w.list t all := by
  rcases w with _ | c
  · unfold Owner.list Presets.list mine
    rw [Table.filter_keep]
    intro r hr
    have hscope : r.scope = .system := (of_decide_eq_true hr).1
    exact decide_eq_true (.inl hscope)
  · obtain rfl := hw
    exact (@lookups_congr t (mine c t) "" c (Table.filter_keep fun _ h => h)).2.2 all

/-- Loading does the same in the part. -/
theorem load_mine (hw : w.Concerns client) : SameIn client (.load w name) o t := by
  simp only [SameIn, Call.effect, Owner.load_mine hw]
  rcases w.load t name with err | p
  · rfl
  · rfl

/-- Listing does the same in the part. -/
theorem list_mine (hw : w.Concerns client) (all : Bool) : SameIn client (.list w all) o t := by
  simp only [SameIn, Call.effect, Owner.list_mine hw]

/-- **A call about what a client can see** does the same where there is nothing else. -/
theorem exec_mine (hw : c.owner.Concerns client) (hfresh : t.find? o.newID = none) :
    c.exec o (mine client t) = ((c.exec o t).1, mine client (c.exec o t).2) := by
  have heffect : SameIn client c o t := by
    rcases c with ⟨w, name⟩ | ⟨w, name, req⟩ | ⟨w, name, req⟩ | ⟨w, name⟩ | ⟨w, name⟩ | ⟨w, all⟩
    · have hany : ((mine client t).rows.any fun r => r.key = w.key name ∧ r.isActive) =
          t.rows.any fun r => r.key = w.key name ∧ r.isActive :=
        Table.any_keep fun r hr => relevant_key w name hw (of_decide_eq_true hr).1
      simp only [SameIn, Call.effect, hany]
    · exact insert_mine hw hfresh req
    · exact update_mine hw hfresh req
    · exact deactivate_mine hw
    · exact load_mine hw
    · exact list_mine hw all
  unfold SameIn at heffect
  unfold Call.exec
  split
  · exact heffect
  · rfl
  · rw [heffect]

/-- **A call about the presets of an owner** leaves all others as they were. -/
theorem exec_others {p : PresetKey → Bool} (hp : ∀ name, p (c.owner.key name) = false)
    (hfresh : t.find? o.newID = none) : part p (c.exec o t).2 = part p t := by
  have hrow : ∀ name req version,
      p ((c.owner.params name req).row o.newID o.now version).key = false := fun name _ _ => hp name
  have heffect : part p (c.effect o t).2 = part p t := by
    rcases c with ⟨w, name⟩ | ⟨w, name, req⟩ | ⟨w, name, req⟩ | ⟨w, name⟩ | ⟨w, name⟩ | ⟨w, all⟩
    · rfl
    · simp only [Call.effect]
      split
      · rename_i u hu
        exact insertRow_others (hrow name req _) hfresh hu
      · rfl
    · simp only [Call.effect, Presets.update, Owner.params_key]
      rcases hcur : activeRow? t (w.key name) with _ | current
      · rfl
      dsimp only
      split
      · rename_i x hx
        split at hx
        · rename_i u hu
          obtain rfl := Except.ok.inj hx
          refine (insertRow_others (hrow name req _) (find?_deactivated hfresh) hu).trans ?_
          refine Table.keep_update_of_not (Row.deactivate_id o.now) (fun _ => rfl) fun r _ hr => ?_
          rw [(of_decide_eq_true hr).1]
          exact hp name
        · cases hx
      · rfl
    · simp only [Call.effect]
      rcases hcur : activeRow? t (w.key name) with _ | current
      · rfl
      obtain ⟨hmem, hkey, -⟩ := activeRow?_mem hcur
      refine Table.keep_update_of_not (Row.deactivate_id o.now) (fun _ => rfl) fun r hr hid => ?_
      rw [t.rows_injOn hr hmem (of_decide_eq_true hid), hkey]
      exact hp name
    · simp only [Call.effect]
      rcases w.load t name with err | p
      · rfl
      · rfl
    · rfl
  unfold Call.exec
  split
  · exact heffect
  · rfl
  · exact heffect

/-- A call about the presets of somebody else leaves what a client can see as it was. -/
theorem mine_others (hw : ¬ c.owner.Concerns client) (hfresh : t.find? o.newID = none) :
    mine client (c.exec o t).2 = mine client t := by
  refine exec_others (p := fun k => k.scope = .system ∨ k.clientID = some client)
    (fun name => ?_) hfresh
  rcases hc : c.owner with _ | c'
  · rw [hc] at hw
    exact absurd trivial hw
  · rw [hc] at hw
    have hne : c' ≠ client := hw
    simp [Owner.key, userKey, hne]

/-! ## What a client sees of the service -/

/-- No request has arrived. -/
def State.init (clients : Clients.ClientTable) (presets : PresetTable) : State :=
  ⟨clients, presets, fun _ => none⟩

/-- A request that has been refused, one of the client, or one for the system presets. -/
def Served.seenBy (client : UUID) (x : Served) : Bool :=
  x.caller = none ∨ x.caller = some client ∨ x.system = true

/-- The service without the requests and the presets of other clients. -/
def State.only (client : UUID) (s : State) : State :=
  { s with
    presets := mine client s.presets
    requests := fun n => (s.requests n).filter (·.seenBy client) }

/-- The step is none of a request of another client. -/
def seen (host : Host) (client : UUID) (x : State × Act) : Bool :=
  match x.2 with
  | .arrive _ r fault => (middleware host x.1.clients fault r).seenBy client
  | .call n _ => (x.1.requests n).all (·.seenBy client)
  | .keys _ => true

variable {s s' : State} {a : Act} {tr : List (State × Act)} {clients : Clients.ClientTable}
  {presets : PresetTable}

/-- A request that is seen can be put into what is seen. -/
theorem only_put {x : Served} {n : Nat} (hx : x.seenBy client = true) :
    (s.put n x).only client = (s.only client).put n x := by
  simp only [State.only, State.put, State.mk.injEq, true_and]
  funext m
  by_cases hm : m = n
  · simp [hm, hx]
  · simp [hm]

/-- One that is not seen leaves no trace in it. -/
theorem only_put_unseen {x : Served} {n : Nat} (hx : x.seenBy client = false)
    (hold : ∀ y ∈ s.requests n, y.seenBy client = false) : (s.put n x).only client = s.only client := by
  simp only [State.only, State.put, State.mk.injEq, true_and]
  funext m
  by_cases hm : m = n
  · subst hm
    rcases hy : s.requests m with _ | y
    · simp [hx]
    · rw [if_pos rfl, Option.filter_some, Option.filter_some, hx, hold y hy]
      rfl
  · simp [hm]

/-- What the requests that a client sees call, is about what the client can see. -/
theorem concerns_of_seen {x : Served} (hx : x.seenBy client = true)
    (hw : Allows host x.caller x.system w) : w.Concerns client := by
  rcases w with _ | c
  · trivial
  · obtain ⟨hsystem, hcaller⟩ := hw
    simp only [Served.seenBy, hcaller, hsystem, Bool.false_eq_true, or_false, reduceCtorEq, false_or,
      Option.some.injEq, decide_eq_true_eq] at hx
    exact hx

/-- What the other requests call, is nothing that the client can see. -/
theorem not_concerns_of_unseen {x : Served} (hx : x.seenBy client = false)
    (hw : Allows host x.caller x.system w) : ¬ w.Concerns client := by
  simp only [Served.seenBy, decide_eq_false_iff_not, not_or] at hx
  obtain ⟨-, hother, hsystem⟩ := hx
  rcases w with _ | c
  · exact absurd hw.1 hsystem
  · rintro rfl
    exact hother hw.2

/-- A step that is seen can be taken in what is seen. -/
theorem step_only (hs : s.Ok host) (hseen : seen host client (s, a) = true)
    (h : step host s a = some s') : step host (s.only client) a = some (s'.only client) := by
  rcases step_cases hs h with ⟨n, r, fault, rfl, hfree, rfl⟩ |
    ⟨n, o, x, c, k, rfl, hx, hprog, hfresh, hallow, rfl⟩ | ⟨op, rfl, rfl⟩
  · have hfree' : (s.only client).requests n = none := by
      simp only [State.only, hfree, Option.filter_none]
    simp only [step, hfree']
    rw [only_put hseen]
    rfl
  · simp only [seen, hx, Option.all_some] at hseen
    have hx' : (s.only client).requests n = some ⟨x.caller, x.system, .call c k⟩ := by
      simp only [State.only, hx, Option.filter_some, hseen, if_true, ← hprog]
    have hfresh' : (s.only client).presets.find? o.newID = none := by
      refine List.find?_eq_none.mpr fun y hy => ?_
      exact List.find?_eq_none.mp hfresh y (List.mem_filter.mp hy).1
    have hexec : c.exec o (s.only client).presets = _ :=
      exec_mine (concerns_of_seen hseen hallow) hfresh
    simp only [step, hx', hfresh', if_true, hexec]
    have hput := only_put (s := s) (n := n) (x := ⟨x.caller, x.system, k (c.exec o s.presets).1⟩) hseen
    simp only [State.only, State.put, State.mk.injEq, true_and] at hput ⊢
    exact congrArg _ (by rw [hput])
  · rfl

/-- The other steps change nothing of it. -/
theorem only_unseen (hs : s.Ok host) (hseen : seen host client (s, a) = false)
    (h : step host s a = some s') : s'.only client = s.only client := by
  rcases step_cases hs h with ⟨n, r, fault, rfl, hfree, rfl⟩ |
    ⟨n, o, x, c, k, rfl, hx, hprog, hfresh, hallow, rfl⟩ | ⟨op, rfl, rfl⟩
  · exact only_put_unseen hseen fun y hy => by rw [hfree] at hy; cases hy
  · simp only [seen, hx, Option.all_some] at hseen
    have hput := only_put_unseen (s := s) (n := n)
      (x := ⟨x.caller, x.system, k (c.exec o s.presets).1⟩) hseen
      fun y hy => by rw [hx] at hy; obtain rfl := Option.some.inj hy; exact hseen
    have hmine := mine_others (not_concerns_of_unseen hseen hallow) hfresh
    simp only [State.only, State.put, State.mk.injEq, true_and] at hput ⊢
    exact ⟨hmine, hput⟩
  · cases hseen

/-- At the start no request makes a call. -/
theorem init_ok (clients : Clients.ClientTable) (presets : PresetTable) :
    (State.init clients presets).Ok host := fun _ _ h => by cases h

/-- In a run every request makes only calls that its caller may make. -/
theorem run_ok (h : Exec (step host) (State.init clients presets) tr s) :
    (∀ x ∈ tr, x.1.Ok host) ∧ s.Ok host :=
  h.invariant (P := fun _ _ => True) (fun _ _ _ hI _ hstep => hI.step hstep)
    (init_ok _ _) fun _ _ => trivial

/-- **Clients do not see each other.** Take the requests of other clients out of any run, and their
presets out of every state: what is left is a run, and every request of the client is where it was, with
the answer that it got. -/
theorem presets_isolated (h : Exec (step host) (State.init clients presets) tr s) (client : UUID) :
    Exec (step host) (State.init clients (mine client presets))
      ((tr.filter (seen host client)).map fun x => (x.1.only client, x.2)) (s.only client) ∧
    ∀ n x, x.caller = some client → (s.requests n = some x ↔ (s.only client).requests n = some x) := by
  refine ⟨?_, fun n x hx => ?_⟩
  · have hpurge := h.purge (State.only client) (State.Ok host) (seen host client)
      (fun s a t hI ha hstep => step_only hI ha hstep)
      (fun s a t hI ha hstep => only_unseen hI ha hstep)
      (run_ok h).1
    exact hpurge
  · have hseen : x.seenBy client = true := by simp [Served.seenBy, hx]
    simp only [State.only, Option.filter_eq_some_iff, hseen, and_true]

/-! ## Who changes what -/

/-- Every caller of a request has arrived with a key that was active for it. -/
def Authenticated (host : Host) (pre : List (State × Act)) (n : Nat) (client : UUID) : Prop :=
  ∃ x ∈ pre, ∃ r fault key name, x.2 = .arrive n r fault ∧ parseAPIKey r.authorization = some key ∧
    Clients.getByKeyHash x.1.clients (host.hashKey key) = .ok (client, name)

/-- Whoever has arrived once, has arrived. -/
theorem Authenticated.mono {pre post : List (State × Act)} {n : Nat}
    (h : Authenticated host pre n client) : Authenticated host (pre ++ post) n client := by
  obtain ⟨x, hx, hrest⟩ := h
  exact ⟨x, List.mem_append_left _ hx, hrest⟩

/-- The callers of all requests are authenticated. -/
def Callers (host : Host) (pre : List (State × Act)) (s : State) : Prop :=
  s.Ok host ∧ ∀ n x client, s.requests n = some x → x.caller = some client →
    Authenticated host pre n client

/-- Every step keeps the callers authenticated. -/
theorem Callers.step {pre : List (State × Act)} (hs : Callers host pre s)
    (h : step host s a = some s') : Callers host (pre ++ [(s, a)]) s' := by
  refine ⟨hs.1.step h, ?_⟩
  -- a request keeps its caller
  have hput : ∀ {n : Nat} {y : Served} {u : State}, u.requests = (s.put n y).requests →
      (∀ client, y.caller = some client → Authenticated host (pre ++ [(s, a)]) n client) →
      ∀ m x client, u.requests m = some x → x.caller = some client →
        Authenticated host (pre ++ [(s, a)]) m client := by
    intro n y u hu hy m x client hx hcaller
    simp only [hu, State.put] at hx
    split at hx
    · rename_i hm
      obtain rfl := Option.some.inj hx
      exact hm ▸ hy client hcaller
    · exact (hs.2 m x client hx hcaller).mono
  rcases step_cases hs.1 h with ⟨n, r, fault, rfl, -, rfl⟩ |
    ⟨n, o, x, c, k, rfl, hx, -, -, -, rfl⟩ | ⟨op, rfl, rfl⟩
  · refine hput rfl fun client hcaller => ?_
    obtain ⟨key, name, hkey, hfound⟩ := middleware_caller hcaller
    exact ⟨_, List.mem_append_right _ (List.mem_singleton_self _), r, fault, key, name,
      rfl, hkey, hfound⟩
  · exact hput rfl fun client hcaller => (hs.2 n x client hx hcaller).mono
  · exact fun m x client hx hcaller => (hs.2 m x client hx hcaller).mono

/-- **Every change of a preset is a call that its caller may make.** Whatever step of a run changes the
rows of a preset: it is a call of a request whose caller had presented an active key, and that caller is
the client who owns the preset, or an operator if it is one of the system. -/
theorem presets_authorized (h : Exec (step host) (State.init clients presets) tr s)
    {pre post : List (State × Act)} {x : State × Act} (hx : tr = pre ++ x :: post) {next : State}
    (hnext : step host x.1 x.2 = some next) {k : PresetKey}
    (hchanged : next.presets.rows.filter (fun r => r.key = k) ≠
      x.1.presets.rows.filter fun r => r.key = k) :
    ∃ n o y client, x.2 = .call n o ∧ x.1.requests n = some y ∧ y.caller = some client ∧
      (k.scope = .system ∧ k.clientID = none ∧ client ∈ host.operators ∨
        k.scope = .user ∧ k.clientID = some client) ∧
      Authenticated host pre n client := by
  have hhistory := (h.history (I := Callers host) (fun pre s a t hI hstep => hI.step hstep)
    ⟨init_ok _ _, fun _ _ _ h => by cases h⟩).1 pre x post hx
  rcases step_cases hhistory.1 hnext with ⟨n, r, fault, -, -, rfl⟩ |
    ⟨n, o, y, c, k', hact, hy, -, hfresh, hallow, rfl⟩ | ⟨op, -, rfl⟩
  · exact absurd rfl hchanged
  · -- the call is about this very preset, as all others stay as they were
    have habout : ∃ name, c.owner.key name = k := by
      by_contra hno
      apply hchanged
      refine congrArg Table.rows (exec_others (p := fun k' => k' = k) (fun name => ?_) hfresh)
      exact decide_eq_false fun heq => hno ⟨name, heq⟩
    obtain ⟨name, rfl⟩ := habout
    rcases hc : c.owner with _ | client
    · rw [hc] at hallow
      obtain ⟨-, client, hoperator, hcaller⟩ := hallow
      exact ⟨n, o, y, client, hact, hy, hcaller, .inl ⟨rfl, rfl, hoperator⟩,
        hhistory.2 n y client hy hcaller⟩
    · rw [hc] at hallow
      obtain ⟨-, hcaller⟩ := hallow
      exact ⟨n, o, y, client, hact, hy, hcaller, .inr ⟨rfl, rfl⟩, hhistory.2 n y client hy hcaller⟩
  · exact absurd rfl hchanged

/-! ## Two clients at once -/

/-- A digest of a key: its characters, weighted by their place. -/
def exampleDigest (key : String) : String :=
  toString (key.toList.foldl (fun h c => (31 * h + c.toNat) % 1000003) 17)

/-- A text member of an object, empty where there is none. -/
def textMember (members : List (String × JsonText.Value)) (name : String) : String :=
  match members.lookup name with
  | some (.string s) => s
  | _ => ""

/-- The preset that a body describes, of those without options. -/
def decodePreset (body : Bytes) : Option PresetRequest :=
  match JsonText.parse (String.ofList (body.map fun x => Char.ofNat x.toNat)) with
  | some (.object members) =>
      some ⟨textMember members "name", textMember members "target_format", none,
        textMember members "description"⟩
  | _ => none

def exampleHost : Host where
  codec := exampleCodec
  decode := decodePreset
  hashKey := exampleDigest
  operators := []

/-- Two clients with a key each. -/
def twoClients : Clients.ClientTable :=
  Clients.run (.empty Clients.Client.id)
    [.create 1 "acme" (exampleDigest "k1"), .create 2 "umbrella" (exampleDigest "k2")]

/-- The bodies of their requests, for presets of one name. -/
def acmeBody : Bytes := Bytes.ascii "\x7b\"name\":\"thumb\",\"target_format\":\"png\"\x7d"

def umbrellaBody : Bytes :=
  Bytes.ascii
    "\x7b\"name\": \"thumb\", \"target_format\": \"jpg\", \"description\": \"for the shop\"\x7d"

/-- Both clients create a preset, each call of the one between two of the other. -/
def createdAtOnce : List Act :=
  [.arrive 0 ⟨"ApiKey k1", false, .create, acmeBody⟩ .none,
    .arrive 1 ⟨"apikey  k2", false, .create, umbrellaBody⟩ .none,
    .call 0 ⟨.none, 10, 5⟩, .call 1 ⟨.none, 11, 6⟩, .call 1 ⟨.none, 12, 7⟩, .call 0 ⟨.none, 13, 8⟩,
    .call 0 ⟨.none, 14, 9⟩, .call 1 ⟨.none, 15, 9⟩]

/-- Each of the actions can be taken. -/
theorem createdAtOnce_enabled :
    (trace (step exampleHost) (State.init twoClients (.empty Row.id)) createdAtOnce).isSome = true := by
  decide +kernel

/-- The run of these actions. -/
def atOnce : List (State × Act) × State :=
  runOf (step exampleHost) (State.init twoClients (.empty Row.id)) createdAtOnce createdAtOnce_enabled

/-- They are a run. -/
theorem atOnce_runs :
    Exec (step exampleHost) (State.init twoClients (.empty Row.id)) atOnce.1 atOnce.2 :=
  exec_runOf createdAtOnce_enabled

/-- Without the requests of the second client, the first one is answered as before. -/
theorem presets_isolated_atOnce :
    Exec (step exampleHost) (State.init twoClients (mine 1 (.empty Row.id)))
      ((atOnce.1.filter (seen exampleHost 1)).map fun x => (x.1.only 1, x.2)) (atOnce.2.only 1) ∧
    ∀ n x, x.caller = some 1 → (atOnce.2.requests n = some x ↔ (atOnce.2.only 1).requests n = some x) :=
  presets_isolated atOnce_runs 1

/-- The run has more than five steps. -/
theorem atOnce_length : 5 < atOnce.1.length := by decide +kernel

/-- The step in which the first client's preset is inserted. -/
def insertStep : State × Act := atOnce.1.get ⟨5, atOnce_length⟩

/-- The run up to that step, the step, and the rest. -/
theorem atOnce_split : atOnce.1 = atOnce.1.take 5 ++ insertStep :: atOnce.1.drop 6 := by
  rw [insertStep, List.get_eq_getElem, ← List.drop_eq_getElem_cons, List.take_append_drop]

/-- That step adds a row. -/
theorem insertStep_changes : ∃ next ∈ step exampleHost insertStep.1 insertStep.2,
    (next.presets.rows.filter fun r => r.key = userKey 1 "thumb").length ≠
      (insertStep.1.presets.rows.filter fun r => r.key = userKey 1 "thumb").length := by
  decide +kernel

/-- The step is a call of the first client, which had presented its key. -/
theorem presets_authorized_atOnce : ∃ n o y client, insertStep.2 = .call n o ∧
    insertStep.1.requests n = some y ∧ y.caller = some client ∧
    ((userKey 1 "thumb").scope = .system ∧ (userKey 1 "thumb").clientID = none ∧
        client ∈ exampleHost.operators ∨
      (userKey 1 "thumb").scope = .user ∧ (userKey 1 "thumb").clientID = some client) ∧
    Authenticated exampleHost (atOnce.1.take 5) n client := by
  obtain ⟨next, hnext, hchanged⟩ := insertStep_changes
  exact presets_authorized atOnce_runs atOnce_split hnext
    fun heq => hchanged (congrArg List.length heq)

end OctoConv.Api.Rest
