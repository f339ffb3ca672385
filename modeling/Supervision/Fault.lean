import Supervision.Duration
import Supervision.Text.Quoted

/-!
# What can go wrong

`Fault` is how a work routine ends without success. `Payload` is what a panic carries: a text, or a
value that is no text. `GraceExceeded` is the one error of a teardown.
-/

namespace Supervision

/-- What a panic carries. -/
inductive Payload
  | text (message : String)
  | value
deriving DecidableEq, Repr

/-- The text of a panic, or `fallback` when it carries none. -/
def Payload.textOr (fallback : String) : Payload → String
  | .text message => message
  | .value => fallback

/-- Why a run did not succeed. -/
inductive Fault
  | failed (error : String)
  | canceled
  | panicked (message : String)
deriving DecidableEq, Repr

namespace Fault

/-- The fault of a work routine that panicked. -/
def ofPanic (payload : Payload) : Fault := .panicked (payload.textOr "non-string panic payload")

def message : Fault → String
  | .failed error => "execution failed: " ++ error
  | .canceled => "context cancelled"
  | .panicked message => "task panicked: " ++ message

/-- A short name for logs and metrics. -/
def label : Fault → String
  | .failed _ => "task_failed"
  | .canceled => "task_canceled"
  | .panicked _ => "task_panicked"

def isCanceled : Fault → Bool
  | .canceled => true
  | _ => false

/-- The fault with its fields. -/
def describe : Fault → String
  | .failed error => Text.labelled "Fail" [("error", Text.quoted error)]
  | .canceled => "Canceled"
  | .panicked message => Text.labelled "Panicked" [("message", Text.quoted message)]

end Fault

/-- Runs were still active when the grace period of a teardown ended. -/
structure GraceExceeded where
  grace : Duration
  stuck : List String
deriving DecidableEq, Repr

namespace GraceExceeded

def message (e : GraceExceeded) : String :=
  "shutdown grace " ++ e.grace.compact ++ " exceeded; still running: "
    ++ Text.bracketed (e.stuck.map Text.quoted)

/-- A short name for logs and metrics. -/
def label (_ : GraceExceeded) : String := "runtime_grace_exceeded"

/-- The error with its fields. -/
def describe (e : GraceExceeded) : String :=
  Text.labelled "GraceExceeded"
    [("grace", e.grace.compact), ("stuck", Text.bracketed (e.stuck.map Text.quoted))]

end GraceExceeded

end Supervision
