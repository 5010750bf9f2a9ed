import OctoConv.Convert.Exec
import OctoConv.Lib.Bytes
import OctoConv.Lib.Solo

/-!
# Engines that leave their output on the disk

The document and the html converter hand files to an engine, and read what it has left behind. Here
their host is a disk: a call reads it or changes it, every command writes whatever it likes, and any
call can fail. What was run is on record, with the files it has found and left, and so is every call
that has failed.

Source: `internal/convert/exec.go`, `internal/convert/libreoffice.go`, `internal/convert/chromium.go`.

## Main results

* `ends_stat`, `ends_readFull`, … — what a call has found, or that it is on record as refused.
* `ends_run` — a command that has been run is on record, with its outcome.
* `ends_stage` — the rule for a call whose failure ends the program.
-/

namespace OctoConv

open Conc Machine

/-- The calls of a converter. -/
inductive DiskCall
  /-- `os.MkdirAll` -/
  | mkdirAll (path : String)
  /-- Run a command under the context of the stage. -/
  | run (name : String) (args : List String)
  /-- `os.Stat`, for the size. -/
  | stat (path : String)
  /-- `os.Rename` -/
  | rename (source target : String)
  /-- `os.Open` -/
  | openFile (path : String)
  /-- `io.ReadFull` of the first bytes of an open file. -/
  | readFull (path : String) (n : Nat)
  /-- `os.ReadFile`, or all the reads of an open file together. -/
  | readFile (path : String)
  /-- `os.WriteFile` -/
  | writeFile (path : String) (content : Bytes)
deriving DecidableEq

/-- The answers. Where a call fails, the answer is the text of its error. -/
def DiskCall.Result : DiskCall → Type
  | .run _ _ => Bytes × Option RunFailure
  | .stat _ => Except String Nat
  | .readFull _ _ => Except String Bytes
  | .readFile _ => Except String Bytes
  | _ => Except String Unit

/-- A command that was run: the files it has found, what it has left for its caller, and the files it
has left. A command that did not start, or was killed, leaves no output.

Source: `exec.go` runCommand -/
structure Ran where
  name : String
  args : List String
  files : String → Option Bytes
  stdout : Bytes
  failure : Option RunFailure
  left : String → Option Bytes

/-- A call that has failed, with the text of its error. -/
structure Refusal where
  call : DiskCall
  why : String

/-- The disk of a worker: the files, by path, the commands that were run on them, and the calls that
have failed. -/
structure Disk where
  files : String → Option Bytes
  ran : List Ran
  refusals : List Refusal

/-- The files with a path written, or removed. -/
def Disk.set (d : Disk) (path : String) (content : Option Bytes) : Disk :=
  { d with files := fun p => if p = path then content else d.files p }

/-- A command was run. -/
def Disk.after (d : Disk) (x : Ran) : Disk := { d with files := x.left, ran := d.ran ++ [x] }

/-- A call has failed. -/
def Disk.refuse (d : Disk) (call : DiskCall) (why : String) : Disk :=
  { d with refusals := d.refusals ++ [⟨call, why⟩] }

section

variable (d : Disk) (path : String) (content : Option Bytes) (x : Ran) (call : DiskCall) (why : String)

/-- A path that was written has its content. -/
@[simp] theorem Disk.set_self : (d.set path content).files path = content := if_pos rfl

/-- Writing runs nothing. -/
@[simp] theorem Disk.set_ran : (d.set path content).ran = d.ran := rfl

/-- After a command the files are those it has left. -/
@[simp] theorem Disk.after_files : (d.after x).files = x.left := rfl

/-- And it is on record. -/
@[simp] theorem Disk.after_ran : (d.after x).ran = d.ran ++ [x] := rfl

/-- A call that has failed leaves the files alone. -/
@[simp] theorem Disk.refuse_files : (d.refuse call why).files = d.files := rfl

/-- And runs nothing. -/
@[simp] theorem Disk.refuse_ran : (d.refuse call why).ran = d.ran := rfl

end

/-- How the host behaves during one call. -/
structure Weather where
  /-- The error with which the operating system refuses the call. -/
  refused : Option String
  /-- The text of the error for a path that is not there, or for a file that is too short. -/
  missing : String
  /-- The output of a command, and how it fails. -/
  stdout : Bytes
  failure : Option RunFailure
  /-- What a command, or a write that fails, leaves on the disk. -/
  writes : (String → Option Bytes) → String → Option Bytes

/-- The standard output of a command that its caller gets to see. -/
def RunFailure.stdout (out : Bytes) : Option RunFailure → Bytes
  | some (.start _) => []
  | some (.killed _) => []
  | _ => out

/-- A call that the operating system may refuse: the answer, and the disk behind it. -/
def Weather.answer {α : Type} (w : Weather) (call : DiskCall) (d : Disk) (found : Option α) :
    Except String α × Disk :=
  match w.refused, found with
  | some why, _ => (.error why, d.refuse call why)
  | none, some a => (.ok a, d)
  | none, none => (.error w.missing, d.refuse call w.missing)

/-- One call. A write that fails may have touched its file. -/
def DiskCall.exec : (c : DiskCall) → Weather → Disk → c.Result × Disk
  | .mkdirAll path, w, d => w.answer (.mkdirAll path) d (some ())
  | .run name args, w, d =>
      ((RunFailure.stdout w.stdout w.failure, w.failure),
        d.after ⟨name, args, d.files, RunFailure.stdout w.stdout w.failure, w.failure,
          w.writes d.files⟩)
  | .stat path, w, d => w.answer (.stat path) d ((d.files path).map List.length)
  | .rename source target, w, d =>
      match w.refused, d.files source with
      | none, some content => (.ok (), (d.set source none).set target (some content))
      | some why, _ => (.error why, d.refuse (.rename source target) why)
      | none, none => (.error w.missing, d.refuse (.rename source target) w.missing)
  | .openFile path, w, d => w.answer (.openFile path) d ((d.files path).map fun _ => ())
  | .readFull path n, w, d =>
      w.answer (.readFull path n) d
        ((d.files path).bind fun b => if n ≤ b.length then some (b.take n) else none)
  | .readFile path, w, d => w.answer (.readFile path) d (d.files path)
  | .writeFile path content, w, d =>
      match w.refused with
      | some why =>
          (.error why, (d.set path (w.writes d.files path)).refuse (.writeFile path content) why)
      | none => (.ok (), d.set path (some content))

/-- The disk as a machine. -/
def diskMachine : Machine DiskCall DiskCall.Result Weather Disk := ⟨DiskCall.exec⟩

/-- A program of a converter. -/
abbrev OnDisk (α : Type) := Prog DiskCall DiskCall.Result α

/-- One call. -/
def disk (c : DiskCall) : OnDisk c.Result := Prog.perform c

/-- `fmt.Errorf("<context>: %w", err)` for an error of the operating system. -/
def osError (context why : String) : GoError := (GoError.new why).wrap context

/-- However the host behaves, the program ends so. -/
abbrev OnDisk.Ends {α : Type} (p : OnDisk α) (d : Disk) (Q : α → Disk → Prop) : Prop :=
  diskMachine.Alone (fun _ => True) p d Q

/-! ## What the calls do -/

variable {α β ε : Type} {d : Disk} {path : String}

/-- A call has found something and changed nothing, or it is on record as refused. -/
def Answered (call : DiskCall) (d : Disk) (Found : α → Prop) : Except String α → Disk → Prop
  | .ok a, d' => d' = d ∧ Found a
  | .error why, d' => d' = d.refuse call why

/-- What is answered has been found. -/
theorem Weather.answered (w : Weather) (call : DiskCall) (d : Disk) {found : Option α}
    {Found : α → Prop} (h : ∀ a, found = some a → Found a) :
    Answered call d Found (w.answer call d found).1 (w.answer call d found).2 := by
  unfold Weather.answer
  rcases w.refused with _ | why
  · rcases found with _ | a
    · exact rfl
    · exact ⟨rfl, h a rfl⟩
  · exact rfl

/-- A directory was made, or the call is on record. -/
theorem ends_mkdirAll (path : String) (d : Disk) :
    (disk (.mkdirAll path)).Ends d (Answered (.mkdirAll path) d fun (_ : Unit) => True) :=
  Alone.perform fun w _ => w.answered (.mkdirAll path) d fun _ _ => trivial

/-- The size of a file was found, or the call is on record. -/
theorem ends_stat (path : String) (d : Disk) :
    (disk (.stat path)).Ends d (Answered (.stat path) d fun (n : Nat) =>
      ∃ b, d.files path = some b ∧ b.length = n) :=
  Alone.perform fun w _ => w.answered (.stat path) d fun _ hn => Option.map_eq_some_iff.mp hn

/-- A file was found, or the call is on record. -/
theorem ends_openFile (path : String) (d : Disk) :
    (disk (.openFile path)).Ends d (Answered (.openFile path) d fun (_ : Unit) =>
      ∃ b, d.files path = some b) := by
  apply Alone.perform
  intro w _
  apply w.answered (.openFile path) d
  intro _ hu
  obtain ⟨b, hb, -⟩ := Option.map_eq_some_iff.mp hu
  exact ⟨b, hb⟩

/-- The first bytes of a file were found, or the call is on record. -/
theorem ends_readFull (path : String) (n : Nat) (d : Disk) :
    (disk (.readFull path n)).Ends d (Answered (.readFull path n) d fun (s : Bytes) =>
      ∃ b, d.files path = some b ∧ n ≤ b.length ∧ s = b.take n) := by
  apply Alone.perform
  intro w _
  apply w.answered (.readFull path n) d
  intro s hs
  obtain ⟨b, hb, htake⟩ := Option.bind_eq_some_iff.mp hs
  split at htake
  · rename_i hle
    exact ⟨b, hb, hle, (Option.some.inj htake).symm⟩
  · cases htake

/-- A file was read, or the call is on record. -/
theorem ends_readFile (path : String) (d : Disk) :
    (disk (.readFile path)).Ends d (Answered (.readFile path) d fun (b : Bytes) =>
      d.files path = some b) :=
  Alone.perform fun w _ => w.answered (.readFile path) d fun _ hb => hb

/-- A file was moved, or the call is on record as refused. -/
theorem ends_rename (source target : String) (d : Disk) :
    (disk (.rename source target)).Ends d fun (r : Except String Unit) d' =>
      (r = .ok () ∧ ∃ b, d.files source = some b ∧ d' = (d.set source none).set target (some b)) ∨
        ∃ why, r = .error why ∧ d' = d.refuse (.rename source target) why := by
  apply Alone.perform
  intro w _
  have hexec : ∀ x : Except String Unit × Disk, (DiskCall.rename source target).exec w d = x →
      (x.1 = .ok () ∧ ∃ b, d.files source = some b ∧
          x.2 = (d.set source none).set target (some b)) ∨
        ∃ why, x.1 = .error why ∧ x.2 = d.refuse (.rename source target) why := by
    intro x hx
    simp only [DiskCall.exec] at hx
    split at hx
    · rename_i content _ hfile
      obtain rfl := hx
      exact .inl ⟨rfl, content, hfile, rfl⟩
    · obtain rfl := hx
      exact .inr ⟨_, rfl, rfl⟩
    · obtain rfl := hx
      exact .inr ⟨_, rfl, rfl⟩
  exact hexec _ rfl

/-- A file was written, or the call is on record as refused; then it may have touched the file. -/
theorem ends_writeFile (path : String) (content : Bytes) (d : Disk) :
    (disk (.writeFile path content)).Ends d fun (r : Except String Unit) d' =>
      (r = .ok () ∧ d' = d.set path (some content)) ∨
        ∃ why left, r = .error why ∧
          d' = (d.set path left).refuse (.writeFile path content) why := by
  apply Alone.perform
  intro w _
  have hexec : ∀ x : Except String Unit × Disk, (DiskCall.writeFile path content).exec w d = x →
      (x.1 = .ok () ∧ x.2 = d.set path (some content)) ∨
        ∃ why left, x.1 = .error why ∧
          x.2 = (d.set path left).refuse (.writeFile path content) why := by
    intro x hx
    simp only [DiskCall.exec] at hx
    split at hx
    · obtain rfl := hx
      exact .inr ⟨_, _, rfl, rfl⟩
    · obtain rfl := hx
      exact .inl ⟨rfl, rfl⟩
  exact hexec _ rfl

/-- A command that has been run is on record. -/
theorem ends_run (name : String) (args : List String) (d : Disk) :
    (disk (.run name args)).Ends d fun (r : Bytes × Option RunFailure) d' =>
      ∃ left, d' = d.after ⟨name, args, d.files, r.1, r.2, left⟩ :=
  Alone.perform fun w _ => ⟨w.writes d.files, rfl⟩

/-- The rule for a call whose failure ends the program. -/
theorem ends_stage {call : DiskCall} {Found : α → Prop} {p : OnDisk (Except String α)}
    {g : String → ε} {f : α → OnDisk (Except ε β)} {Q : Except ε β → Disk → Prop}
    (h : p.Ends d (Answered call d Found)) (herr : ∀ why, Q (.error (g why)) (d.refuse call why))
    (hok : ∀ a, Found a → (f a).Ends d Q) : OnDisk.Ends ((Prog.mapError g p).andThen f) d Q := by
  apply h.mapError.andThen
  · rintro e d' ⟨r, hanswer, hr⟩
    rcases r with why | a
    · obtain rfl : d' = d.refuse call why := hanswer
      obtain rfl := Except.error.inj hr
      exact herr why
    · exact nomatch hr
  · rintro a d' ⟨r, hanswer, hr⟩
    rcases r with why | a'
    · exact nomatch hr
    · obtain ⟨rfl, hfound⟩ := hanswer
      obtain rfl := Except.ok.inj hr
      exact hok a hfound

/-- A command whose caller only wants to know whether it has failed.

Source: `exec.go` runCommand -/
def runOn (name : String) (args : List String) : OnDisk (Except GoError Unit) :=
  disk (.run name args) >>= fun (r : Bytes × Option RunFailure) =>
    match r.2 with
    | none => .ret (.ok ())
    | some f => .ret (.error (f.err name))

/-- It has ended well, or failed, and is on record. -/
theorem ends_runOn (name : String) (args : List String) (d : Disk) :
    (runOn name args).Ends d fun r d' => ∃ out left,
      (r = .ok () ∧ d' = d.after ⟨name, args, d.files, out, none, left⟩) ∨
        ∃ f, r = .error (f.err name) ∧ d' = d.after ⟨name, args, d.files, out, some f, left⟩ := by
  apply (ends_run name args d).bind
  rintro ⟨out, failure⟩ d' ⟨left, rfl⟩
  rcases failure with _ | f
  · exact alone_ret.mpr ⟨out, left, .inl ⟨rfl, rfl⟩⟩
  · exact alone_ret.mpr ⟨out, left, .inr ⟨f, rfl, rfl⟩⟩

end OctoConv
