import Mathlib.Logic.Basic
import OctoConv.Base.Keys
import OctoConv.Lib.Unicode

/-!
# Go errors

A Go `error` is a text and the chain of errors it wraps. The code under `internal/` asks two
questions of an error: what its text is, and whether a given sentinel is in its chain
(`errors.Is`; `errors.As` on a `minio.ErrorResponse` whose code is `NoSuchKey` is the same
question about a marker). `GoError` carries both. Texts of the outside stand in an error in quotes.
-/

namespace OctoConv

/-- The errors that some caller tests for. -/
inductive Sentinel
  /-- `asynq.SkipRetry` -/
  | skipRetry
  /-- `asynq.ErrDuplicateTask` -/
  | duplicateTask
  /-- `jobs.ErrNotFound` -/
  | notFound
  /-- `context.DeadlineExceeded` -/
  | deadlineExceeded
  /-- a `minio.ErrorResponse` with code `NoSuchKey` -/
  | noSuchKey
  /-- `convert.ErrAudioDurationExceeded` -/
  | audioDurationExceeded
  /-- `convert.ErrAVOutputMissingOrEmpty` -/
  | avOutputMissingOrEmpty
  /-- `convert.ErrAVTimecodeOutOfRange` -/
  | avTimecodeOutOfRange
  /-- `convert.ErrAVResolutionExceeded` -/
  | avResolutionExceeded
  /-- `convert.ErrAVReencodeResolutionExceeded` -/
  | avReencodeResolutionExceeded
  /-- `convert.ErrAVNoVideoStream` -/
  | avNoVideoStream
  /-- `convert.ErrAVTranscodeFailed` -/
  | avTranscodeFailed
  /-- `convert.ErrAVAudioExtractFailed` -/
  | avAudioExtractFailed
  /-- `convert.ErrAVThumbnailFailed` -/
  | avThumbnailFailed
deriving DecidableEq, Repr

/-- A Go error: its text and the sentinels in its chain. -/
structure GoError where
  /-- What `Error()` returns. -/
  text : String
  /-- The sentinels that `errors.Is` finds. -/
  chain : List Sentinel
deriving DecidableEq, Repr

namespace GoError

/-- `errors.New(text)`, and `fmt.Errorf` without a `%w`. -/
def new (text : String) : GoError := ⟨text, []⟩

/-- `fmt.Errorf("<context>: %w", err)`. -/
def wrap (context : String) (err : GoError) : GoError :=
  ⟨context ++ ": " ++ err.text, err.chain⟩

/-- `fmt.Errorf("%w: <text>", asynq.SkipRetry)`: only asynq's sentinel is in the chain, whatever
error the text was made from. -/
def skipRetry (text : String) : GoError :=
  ⟨"skip retry for the task: " ++ text, [.skipRetry]⟩

/-- `errors.Is(err, target)`. -/
def is (err : GoError) (target : Sentinel) : Bool := err.chain.contains target

/-- A context changes nothing about what an error is. -/
@[simp] theorem wrap_is (context : String) (err : GoError) (target : Sentinel) :
    (err.wrap context).is target = err.is target := rfl

/-- An error that skips the retry says so. -/
@[simp] theorem skipRetry_is (text : String) : (skipRetry text).is .skipRetry = true := rfl

/-- A new error is none of those that are asked for. -/
@[simp] theorem new_is (text : String) (target : Sentinel) : (new text).is target = false := rfl

end GoError

/-- `%q` of a text: quotes, backslashes and the characters that are not printed are escaped. Two things
are left out: bytes that are not UTF-8, which no `String` has and Go prints as `\xNN`, and code points
that no character has been given yet, which Go escapes and `Unicode.isPrint` lets through. -/
def goQuote (s : String) : String :=
  let hex (width n : Nat) : List Char :=
    (List.range width).map fun i => UUID.hexDigit (n >>> (4 * (width - 1 - i)))
  let escape (c : Char) : List Char :=
    if c = '"' then ['\\', '"'] else if c = '\\' then ['\\', '\\']
    else if c = '\n' then ['\\', 'n'] else if c = '\r' then ['\\', 'r']
    else if c = '\t' then ['\\', 't'] else if c = '\u0007' then ['\\', 'a']
    else if c = '\u0008' then ['\\', 'b'] else if c = '\u000b' then ['\\', 'v']
    else if c = '\u000c' then ['\\', 'f']
    else if c.toNat < 32 ∨ c.toNat = 127 then '\\' :: 'x' :: hex 2 c.toNat
    else if Unicode.isPrint c then [c]
    else if c.toNat < 0x10000 then '\\' :: 'u' :: hex 4 c.toNat
    else '\\' :: 'U' :: hex 8 c.toNat
  String.ofList ('"' :: s.toList.flatMap escape ++ ['"'])

end OctoConv
