import OctoConv.Base.Errors
import OctoConv.Lib.Reader
import OctoConv.Lib.Traces

/-!
# Engines as subprocesses

A converter is a program over the tools of its host: it runs an external command, asks the file
system about a path, and opens a file. What the host answers is not known beforehand, so a converter
is a tree of calls, and a statement about all outcomes of its stages is one about all runs of that
tree.

Source: `internal/convert/exec.go`.

## Main results

* `runCommand_always` — a command gives its output, or the error that its failure is reported as.
-/

namespace OctoConv

open Conc

/-! ## What the host answers -/

/-- Why a context has ended. -/
inductive ContextEnd
  | deadlineExceeded
  | canceled
deriving DecidableEq, Repr

/-- Source: `context` Context.Err -/
def ContextEnd.err : ContextEnd → GoError
  | .deadlineExceeded => ⟨"context deadline exceeded", [.deadlineExceeded]⟩
  | .canceled => ⟨"context canceled", []⟩

/-- How a command fails. -/
inductive RunFailure
  /-- It could not be started, with the text of the error. -/
  | start (text : String)
  /-- Its process group was killed because the context had ended. -/
  | killed (cause : ContextEnd)
  /-- It ended with an error, such as a status other than zero, after writing to its standard error. -/
  | exit (status stderr : String)
deriving DecidableEq, Repr

/-- A file that could be opened. -/
structure OpenedFile where
  source : Source
  /-- The text of the error of a read that fails. -/
  readError : String

/-- The calls of a converter to its host. -/
inductive ToolCall
  /-- Run a command under the context of the stage. -/
  | run (name : String) (args : List String)
  /-- `os.Stat` -/
  | stat (path : String)
  /-- `unix.Statfs` -/
  | statfs (dir : String)
  /-- `os.Open` -/
  | openFile (path : String)
  /-- The time until the deadline of the context. -/
  | untilDeadline
deriving DecidableEq

/-- The answers. Where a call fails, the answer is the text of its error. -/
def ToolCall.Result : ToolCall → Type
  | .run _ _ => Except RunFailure String
  | .stat _ => Except String Int
  | .statfs _ => Except String (Nat × Nat)
  | .openFile _ => Except String OpenedFile
  | .untilDeadline => Option Int

/-- A program over the tools of the host. -/
abbrev Tool (α : Type) := Prog ToolCall ToolCall.Result α

/-- A trace of such a program. -/
abbrev ToolTrace := List (Prog.Event ToolCall ToolCall.Result)

/-- One call. -/
def tool (c : ToolCall) : Tool c.Result := Prog.perform c

/-! ## Commands -/

/-- The error of a command that failed.

Source: `exec.go` runCommand -/
def RunFailure.err (name : String) : RunFailure → GoError
  | .start text => .new ("start " ++ name ++ ": " ++ text)
  | .killed cause => cause.err.wrap (name ++ " killed")
  | .exit status stderr => .new (name ++ " failed: " ++ status ++ ": " ++ stderr)

/-- The standard output of a command.

Source: `exec.go` runCommand -/
def runCommand (name : String) (args : List String) : Tool (Except GoError String) :=
  Prog.mapError (RunFailure.err name) (tool (.run name args))

/-- A command gives its output, or the error that its failure is reported as. -/
theorem runCommand_always (name : String) (args : List String) :
    (runCommand name args).Always fun tr r =>
      ∃ answer : Except RunFailure String, tr = [⟨.run name args, answer⟩] ∧
        r = answer.mapError (RunFailure.err name) := by
  intro answer
  exact ⟨answer, rfl, rfl⟩

/-- Two errors in one: `fmt.Errorf("%w: %w", a, b)`. -/
def GoError.join (a b : GoError) : GoError := ⟨a.text ++ ": " ++ b.text, a.chain ++ b.chain⟩

/-- Two errors that are joined are what either of them is. -/
@[simp] theorem GoError.join_is (a b : GoError) (target : Sentinel) :
    (a.join b).is target = (a.is target || b.is target) := by
  simp only [GoError.is, GoError.join, List.contains_eq_mem, List.mem_append, Bool.decide_or]

end OctoConv
