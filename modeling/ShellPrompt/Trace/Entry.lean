import ShellPrompt.Trace.Datum
/-!
The lines of a trace.
-/

set_option autoImplicit false

namespace ShellPrompt

structure TraceEntry where
  phase : Text
  subject : Text
  detail : Option Datum

def TraceEntry.line (entry : TraceEntry) : Text :=
  Text.concat [entry.phase, ": ", entry.subject,
    match entry.detail with
    | none => []
    | some detail => Text.concat [" -> ", detail.shown],
    ['\n']]

end ShellPrompt
