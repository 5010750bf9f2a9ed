import Mathlib.Data.List.GetD
import OctoConv.Mcp.Conversation

/-!
# The key in what a tool shows

A request that fails leaves an error whose text is the API's or the network's, and either may repeat
what it was sent. The client replaces its key in that text. What is left cannot hold the key, if the key
has no blank and no square bracket in it and is longer than any word of the client's own: so is every
key that is issued.

Source: `internal/mcpserver/client.go` redact, `internal/auth/hash.go` GenerateKey.

## Main results

* `redact_free` — nothing is left of the key.
* `serve_hides_key` — a tool with a request that has failed returns an error without the key.
-/

namespace OctoConv.Mcp

open Conc Prog

/-! ## Keys -/

/-- The characters of base64url.

Source: `encoding/base64` -/
def base64URL : List Char := "ABCDEFGHIJKLMNOPQRSTUVWXYZabcdefghijklmnopqrstuvwxyz0123456789-_".toList

/-- The character of six bits. -/
def base64Char (n : Nat) : Char := base64URL.getD (n % 64) 'A'

/-- Source: `encoding/base64` RawURLEncoding.EncodeToString -/
def base64Raw : Bytes → List Char
  | a :: b :: c :: rest =>
    let v := a.toNat * 65536 + b.toNat * 256 + c.toNat
    base64Char (v / 262144) :: base64Char (v / 4096) :: base64Char (v / 64) :: base64Char v ::
      base64Raw rest
  | [a, b] =>
    let v := a.toNat * 65536 + b.toNat * 256
    [base64Char (v / 262144), base64Char (v / 4096), base64Char (v / 64)]
  | [a] => [base64Char (a.toNat / 4), base64Char (a.toNat * 16)]
  | [] => []

/-- A key made of 32 random bytes.

Source: `hash.go` GenerateKey -/
def generateKey (buf : Bytes) : String := String.ofList (base64Raw buf)

example : base64Raw [0xfb, 0xff, 0x00, 0x10] = "-_8AEA".toList := by decide

/-- A key that is replaced for good: it is longer than any word of the client's own texts, and neither a
blank nor a bracket is in it. -/
structure KeyShape (key : String) : Prop where
  long : 8 < key.toList.length
  blank : ' ' ∉ key.toList
  opening : '[' ∉ key.toList
  closing : ']' ∉ key.toList

/-- A digit of the alphabet is in the alphabet. -/
theorem base64Char_mem (n : Nat) : base64Char n ∈ base64URL := by
  have hlt : n % 64 < base64URL.length := Nat.mod_lt n (by decide)
  rw [base64Char, List.getD_eq_getElem _ _ hlt]
  exact List.getElem_mem hlt

/-- What is encoded is of the alphabet. -/
theorem mem_base64Raw {buf : Bytes} {ch : Char} (h : ch ∈ base64Raw buf) : ch ∈ base64URL := by
  fun_induction base64Raw buf with
  | case1 a b d rest v ih =>
    simp only [List.mem_cons] at h
    rcases h with rfl | rfl | rfl | rfl | h
    · exact base64Char_mem _
    · exact base64Char_mem _
    · exact base64Char_mem _
    · exact base64Char_mem _
    · exact ih h
  | case2 a b v =>
    simp only [List.mem_cons, List.not_mem_nil, or_false] at h
    rcases h with rfl | rfl | rfl <;> exact base64Char_mem _
  | case3 a =>
    simp only [List.mem_cons, List.not_mem_nil, or_false] at h
    rcases h with rfl | rfl <;> exact base64Char_mem _
  | case4 => exact absurd h List.not_mem_nil

/-- The length of what is encoded. -/
theorem length_base64Raw (buf : Bytes) : (base64Raw buf).length = (buf.length * 4 + 2) / 3 := by
  fun_induction base64Raw buf with
  | case1 a b d rest v ih =>
    simp only [List.length_cons, ih]
    omega
  | case2 a b v => simp
  | case3 a => simp
  | case4 => simp

/-- Every issued key is replaced for good. -/
theorem generateKey_shape {buf : Bytes} (h : buf.length = 32) : KeyShape (generateKey buf) := by
  have hmem : ∀ ch ∉ base64URL, ch ∉ (generateKey buf).toList := by
    intro ch hch hin
    rw [generateKey, String.toList_ofList] at hin
    exact hch (mem_base64Raw hin)
  refine ⟨?_, hmem _ (by decide), hmem _ (by decide), hmem _ (by decide)⟩
  rw [generateKey, String.toList_ofList, length_base64Raw, h]
  decide

/-! ## Texts -/

section Texts

variable {key : String} (hkey : KeyShape key)

include hkey

/-- A key of this shape does not occur in a text that is too short for it. -/
theorem KeyShape.not_infix_short {text : List Char} (h : text.length ≤ 8) : ¬ key.toList <:+: text := by
  intro hin
  have hle := hin.length_le
  have hlong := hkey.long
  omega

/-- Nothing is left of the key. -/
theorem redact_free (s : String) : ¬ key.toList <:+: (Client.redact s key).toList := by
  have hne : key ≠ "" := by
    rintro rfl
    exact absurd hkey.long (by decide)
  have hmark : "[REDACTED]".toList = '[' :: "REDACTED".toList ++ [']'] := by decide
  rw [Client.redact, if_neg hne, String.toList_ofList, hmark]
  exact Scan.replaceAll_free hkey.opening hkey.closing (hkey.not_infix_short (by decide))

/-- An action of two short words in front of a text does not bring the key back. -/
theorem action_free {action msg : String} {first second : List Char}
    (haction : action.toList = first ++ ' ' :: second) (hfirst : first.length ≤ 8)
    (hsecond : second.length ≤ 7) (hmsg : ¬ key.toList <:+: msg.toList) :
    ¬ key.toList <:+: (action ++ ": " ++ msg).toList := by
  have htext : (action ++ ": " ++ msg).toList =
      first ++ ' ' :: (second ++ [':'] ++ ' ' :: msg.toList) := by
    have hcolon : ": ".toList = [':', ' '] := by decide
    simp [haction, hcolon]
  rw [htext, Scan.infix_append_cons hkey.blank, Scan.infix_append_cons hkey.blank]
  rintro (hin | hin | hin)
  · exact hkey.not_infix_short hfirst hin
  · refine hkey.not_infix_short ?_ hin
    rw [List.length_append, List.length_singleton]
    omega
  · exact hmsg hin

end Texts

/-! ## Failed requests -/

/-- A request without an answer, or without the one that comes with a result. -/
def Refused : Spoken → Prop
  | ⟨.send _, .error _⟩ => True
  | ⟨.send req, .ok resp⟩ => resp.statusCode ≠ if req.method = "POST" then 202 else 200
  | _ => False

/-- What can be refused is a request. -/
theorem Refused.send {x : Spoken} (h : Refused x) : ∃ req, x.1 = .send req := by
  rcases x with ⟨call, ans⟩
  cases call
  case send req => exact ⟨req, rfl⟩
  all_goals exact h.elim

/-- If a request has failed, the result is an error without the key. -/
def Hides {ε α : Type} (text : ε → String) (key : String) (tr : Speech) (r : Except ε α) : Prop :=
  ∀ x ∈ tr, Refused x → ∃ err, r = .error err ∧ ¬ key.toList <:+: (text err).toList

/-- A call that sends no request. -/
def Silent : ClientCall → Prop
  | .send _ => False
  | _ => True

/-- A call that sends nothing is not refused. -/
theorem not_refused_of_silent {x : Spoken} (h : Silent x.1) : ¬ Refused x := by
  intro hrefused
  obtain ⟨req, hreq⟩ := hrefused.send
  rw [hreq] at h
  exact h

section Hides

variable {ε ε' α β : Type} {text : ε → String} {text' : ε' → String} {key : String} {tr tr' : Speech}
  {x : Spoken}

/-- Where nothing was said, nothing has to be hidden. -/
theorem hides_nil {r : Except ε α} : Hides text key [] r := fun _ hx => absurd hx List.not_mem_nil

/-- What was not refused may stand before a conversation that hides the key. -/
theorem Hides.append {r : Except ε α} (hnone : ∀ x ∈ tr, ¬ Refused x) (h : Hides text key tr' r) :
    Hides text key (tr ++ tr') r := by
  intro x hx hrefused
  rcases List.mem_append.mp hx with hx | hx
  · exact absurd hrefused (hnone x hx)
  · exact h x hx hrefused

/-- One such word may. -/
theorem Hides.cons {r : Except ε α} (hnot : ¬ Refused x) (h : Hides text key tr r) :
    Hides text key (x :: tr) r := by
  intro y hy hrefused
  rcases List.mem_cons.mp hy with rfl | hy
  · exact absurd hrefused hnot
  · exact h y hy hrefused

/-- What has a result has not been refused. -/
theorem Hides.none {a : α} (h : Hides text key tr (.ok a)) : ∀ x ∈ tr, ¬ Refused x := by
  intro x hx hrefused
  obtain ⟨err, herr, -⟩ := h x hx hrefused
  cases herr

/-- Hiding does not depend on the type of what is returned. -/
theorem Hides.error {e : ε} (h : Hides text key tr (.error e : Except ε α)) :
    Hides text key tr (.error e : Except ε β) := by
  intro x hx hrefused
  obtain ⟨err, herr, hfree⟩ := h x hx hrefused
  exact ⟨err, congrArg _ (Except.error.inj herr), hfree⟩

/-- A sequence hides the key where its parts do. -/
theorem hides_andThen {p : OnClient (Except ε α)} {f : α → OnClient (Except ε β)}
    (hp : p.Always (Hides text key)) (hf : ∀ a, (f a).Always (Hides text key)) :
    (p.andThen f).Always (Hides text key) := by
  refine hp.andThen (fun tr e h => h.error) fun tr a h => ?_
  exact (hf a).mono fun tr' r h' => h'.append h.none

/-- Turning an error into another of the same text hides the key as before. -/
theorem hides_mapError {p : OnClient (Except ε α)} {g : ε → ε'} (hp : p.Always (Hides text key))
    (hg : ∀ e, text' (g e) = text e) : (p.mapError g).Always (Hides text' key) := by
  refine hp.mapError _ fun tr r h x hx hrefused => ?_
  obtain ⟨err, rfl, hfree⟩ := h x hx hrefused
  exact ⟨g err, rfl, by rwa [hg]⟩

/-- What sends no request cannot be refused. -/
theorem hides_silent {p : OnClient (Except ε α)} (hp : p.Calls Silent) :
    p.Always (Hides text key) :=
  hp.always.mono fun _ _ h x hx hrefused => absurd hrefused (not_refused_of_silent (h x hx))

/-- A program that sends nothing may go before one that hides the key. -/
theorem hides_bind {p : OnClient α} {f : α → OnClient (Except ε β)} (hp : p.Calls Silent)
    (hf : ∀ a, (f a).Always (Hides text key)) : (p >>= f).Always (Hides text key) := by
  refine hp.always.bind fun tr a h => (hf a).mono fun tr' r h' => h'.append fun x hx => ?_
  exact not_refused_of_silent (h x hx)

end Hides

/-! ## The tools -/

section Tools

variable {host : ClientHost} {c : Client} (hkey : KeyShape c.apiKey)

include hkey

/-- A request to the API hides the key: its own words are too short around a blank, and the rest is
redacted. -/
theorem request_hides {α : Type} {action method url : String} {form : List Part} {status : Nat}
    {decode : Bytes → Except GoError α} {first second : List Char}
    (haction : action.toList = first ++ ' ' :: second) (hfirst : first.length ≤ 8)
    (hsecond : second.length ≤ 7) (hstatus : status = if method = "POST" then 202 else 200) :
    (c.request host action method url form status decode).Always (Hides GoError.text c.apiKey) := by
  unfold Client.request
  split
  · exact hides_nil
  intro r
  rcases r with err | resp
  · intro _ _ _
    exact ⟨_, rfl, action_free hkey haction hfirst hsecond (redact_free hkey _)⟩
  show Prog.Always (if resp.statusCode ≠ status then _ else _) _
  split
  · intro _ _ _
    exact ⟨_, rfl, action_free hkey haction hfirst hsecond (redact_free hkey _)⟩
  · rename_i hok
    refine Hides.cons (fun hrefused => ?_) hides_nil
    have hbad : resp.statusCode ≠ if method = "POST" then 202 else 200 := hrefused
    rw [← hstatus] at hbad
    exact hok hbad

/-- GetJob hides the key. -/
theorem getJob_hides {jobID : String} : (c.getJob host jobID).Always (Hides GoError.text c.apiKey) :=
  request_hides hkey (show "get job".toList = "get".toList ++ ' ' :: "job".toList by decide) (by decide)
    (by decide) rfl

/-- ListFormats hides the key. -/
theorem listFormats_hides : (c.listFormats host).Always (Hides GoError.text c.apiKey) :=
  request_hides hkey (show "list formats".toList = "list".toList ++ ' ' :: "formats".toList by decide)
    (by decide) (by decide) rfl

/-- ListPresets hides the key. -/
theorem listPresets_hides {all : Bool} :
    (c.listPresets host all).Always (Hides GoError.text c.apiKey) :=
  request_hides hkey (show "list presets".toList = "list".toList ++ ' ' :: "presets".toList by decide)
    (by decide) (by decide) rfl

/-- CreateJob hides the key. -/
theorem createJob_hides {filePath target preset opts : String} :
    (c.createJob host filePath target preset opts).Always (Hides GoError.text c.apiKey) := by
  refine hides_andThen (hides_silent (Calls.mapError (Calls.perform trivial))) fun _ => ?_
  refine hides_andThen (hides_silent (Calls.mapError (Calls.perform trivial))) fun content => ?_
  exact request_hides hkey (show "create job".toList = "create".toList ++ ' ' :: "job".toList by decide)
    (by decide) (by decide) rfl

/-- Download hides the key. -/
theorem download_hides {jobID url : String} :
    (c.download host jobID url).Always (Hides GoError.text c.apiKey) := by
  have haction : "download result".toList = "download".toList ++ ' ' :: "result".toList := by decide
  unfold Client.download
  split
  · exact hides_nil
  intro r
  rcases r with err | resp
  · intro _ _ _
    exact ⟨_, rfl, action_free hkey haction (by decide) (by decide) (redact_free hkey _)⟩
  show Prog.Always (if resp.statusCode ≠ 200 then _ else _) _
  split
  · intro _ _ _
    exact ⟨_, rfl, action_free hkey haction (by decide) (by decide) (redact_free hkey _)⟩
  · rename_i hok
    refine (hides_silent ?_).mono fun tr r h => h.cons fun hrefused => hok hrefused
    refine Calls.andThen trivial fun path => ?_
    refine Calls.andThen (Calls.mapError (Calls.perform trivial)) fun _ => ?_
    exact Calls.andThen (Calls.mapError (Calls.perform trivial)) fun _ => trivial

/-- The polling loop hides the key. -/
theorem poll_hides {notify : Bool} {jobID : String} {deadline : Int} (fuel n : Nat) :
    (c.poll host notify jobID deadline fuel n).Always (Hides ToolError.text c.apiKey) := by
  induction fuel generalizing n with
  | zero => exact hides_nil
  | succ fuel ih =>
    refine hides_andThen (hides_mapError (getJob_hides hkey) fun _ => rfl) fun job => ?_
    refine hides_bind ?_ fun _ => ?_
    · split
      · exact Calls.perform trivial
      · trivial
    split
    · split
      · exact hides_nil
      · exact hides_andThen (hides_mapError (download_hides hkey) fun _ => rfl) fun _ => hides_nil
    split
    · exact hides_nil
    refine hides_bind (Calls.perform trivial) fun time => ?_
    split
    · exact hides_nil
    · refine hides_andThen (hides_silent (Calls.mapError (Calls.perform trivial))) fun _ => ?_
      exact ih (n + 1)

/-- ConvertBlocking hides the key. -/
theorem convertBlocking_hides {fuel : Nat} {filePath target preset opts : String} {notify : Bool} :
    (c.convertBlocking host fuel filePath target preset opts notify).Always
      (Hides ToolError.text c.apiKey) := by
  refine hides_andThen (hides_mapError (createJob_hides hkey) fun _ => rfl) fun jobID => ?_
  refine hides_bind (Calls.perform trivial) fun start => ?_
  split
  · exact hides_nil
  · exact poll_hides hkey fuel 0

omit hkey in
/-- Checking a path sends nothing. -/
theorem sanitizeInputPath_silent {raw : String} : (Client.sanitizeInputPath host raw).Calls Silent := by
  unfold Client.sanitizeInputPath
  split
  · trivial
  rcases Client.absPath host raw with err | abs
  · trivial
  refine ⟨trivial, fun r => ?_⟩
  rcases r with err | _ | _ <;> trivial

/-- The tool convert_file hides the key. -/
theorem convertFile_hides {fuel : Nat} {input : ConvertFileInput} {progressToken : Bool} :
    (c.convertFile host fuel input progressToken).Always (Hides ToolError.text c.apiKey) := by
  refine hides_andThen (hides_silent (Calls.mapError sanitizeInputPath_silent)) fun path => ?_
  exact hides_andThen (convertBlocking_hides hkey) fun _ => hides_nil

omit hkey in
/-- Renaming a download sends nothing. -/
theorem renamed_silent {filename localPath : String} : (c.renamed filename localPath).Calls Silent := by
  unfold Client.renamed
  dsimp only
  split
  · refine ⟨trivial, fun r => ?_⟩
    rcases r with err | _ <;> trivial
  · trivial

/-- The tool download_result hides the key. -/
theorem downloadResult_hides {jobID filename : String} :
    (c.downloadResult host jobID filename).Always (Hides GoError.text c.apiKey) := by
  refine hides_andThen (getJob_hides hkey) fun job => ?_
  split
  · exact hides_nil
  split
  · exact hides_nil
  split
  · exact hides_nil
  refine hides_andThen (download_hides hkey) fun localPath => ?_
  exact hides_bind renamed_silent fun _ => hides_nil

omit hkey in
/-- Returning an output as a tool does hides what was hidden. -/
theorem returning_hides {α : Type} {output : α → ToolOutput} {p : OnClient (Except GoError α)}
    (hp : p.Always (Hides GoError.text c.apiKey)) :
    (Client.returning output p).Always (Hides ToolError.text c.apiKey) :=
  hides_andThen (hides_mapError hp fun _ => rfl) fun _ => hides_nil

/-- Every tool hides the key of its client. -/
theorem tool_hides {fuel : Nat} {t : ToolCall} :
    (c.tool host fuel t).Always (Hides ToolError.text c.apiKey) := by
  cases t with
  | convertFile input progressToken => exact convertFile_hides hkey
  | getJobStatus jobID => exact returning_hides (getJob_hides hkey)
  | downloadResult jobID filename => exact returning_hides (downloadResult_hides hkey)
  | listSupportedFormats => exact returning_hides (listFormats_hides hkey)
  | listPresets all => exact returning_hides (listPresets_hides hkey)

end Tools

/-- Making a client sends nothing. -/
theorem newClientForKey_silent {base : Config} {key : String} :
    (newClientForKey base key).Calls Silent := by
  unfold newClientForKey newClient
  dsimp only
  split
  · refine ⟨trivial, fun r => ?_⟩
    rcases r with err | _ <;> trivial
  · trivial

/-- Every tool hides the key of its caller. -/
theorem serve_hides {host : ClientHost} {base : Config} {key : String} {fuel : Nat} {t : ToolCall}
    (hkey : KeyShape key) : (serve host base key fuel t).Always (Hides ToolError.text key) := by
  have hclient : ((newClientForKey base key).mapError ToolError.failed).Always fun tr r =>
      (∀ x ∈ tr, Silent x.1) ∧ ∀ c, r = .ok c → c = clientFor base key :=
    (Calls.mapError newClientForKey_silent).always.and (Always.mapError_ok newClientForKey_client)
  refine hclient.andThen (fun tr e h x hx hrefused => ?_) fun tr c h => ?_
  · exact absurd hrefused (not_refused_of_silent (h.1 x hx))
  · obtain rfl := h.2 c rfl
    have htool : ((clientFor base key).tool host fuel t).Always (Hides ToolError.text key) :=
      tool_hides hkey
    exact htool.mono fun tr' r h' => h'.append fun x hx => not_refused_of_silent (h.1 x hx)

/-- **What is shown of a failed request does not hold the key**, whatever the API and the network
say. -/
theorem serve_hides_key {host : ClientHost} {base : Config} {key : String} {fuel : Nat} {t : ToolCall}
    {tr : Speech} {r : Except ToolError ToolOutput} (hkey : KeyShape key)
    (h : (serve host base key fuel t).Runs tr r) {x : Spoken} (hx : x ∈ tr) (hrefused : Refused x) :
    ∃ err, r = .error err ∧ ¬ key.toList <:+: err.text.toList :=
  always_iff.mp (serve_hides hkey) tr r h x hx hrefused

/-- The key of 32 zero bytes. -/
def zeroKey : String := generateKey (List.replicate 32 0)

/-- A refusal that repeats the key. -/
def refusal : Response := ⟨401, Bytes.ascii ("unknown key " ++ zeroKey)⟩

/-- The configuration of the HTTP endpoint. -/
def remoteBase : Config := ⟨"https://api", "", "", 3000000000, 2000000000, .resultRemote⟩

/-- The status request of this caller is refused, and the tool fails. -/
theorem serve_refusal_runs :
    ∃ err, (serve pollingHost remoteBase zeroKey 0 (.getJobStatus "7")).Runs
      [⟨.send ((clientFor remoteBase zeroKey).statusRequest "7"), .ok refusal⟩] (.error err) :=
  ⟨_, .call (.ret _)⟩

/-- The answer repeats the key; the text of the tool does not. -/
theorem serve_hides_key_refusal : ∃ err,
    (serve pollingHost remoteBase zeroKey 0 (.getJobStatus "7")).Runs
      [⟨.send ((clientFor remoteBase zeroKey).statusRequest "7"), .ok refusal⟩] (.error err) ∧
    ¬ zeroKey.toList <:+: err.text.toList := by
  obtain ⟨err, hrun⟩ := serve_refusal_runs
  have hrefused : Refused ⟨.send ((clientFor remoteBase zeroKey).statusRequest "7"), .ok refusal⟩ := by
    show refusal.statusCode ≠ _
    decide
  obtain ⟨err', herr, hfree⟩ :=
    serve_hides_key (generateKey_shape (by decide)) hrun List.mem_cons_self hrefused
  obtain rfl := Except.error.inj herr
  exact ⟨_, hrun, hfree⟩

end OctoConv.Mcp
