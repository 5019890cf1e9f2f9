import Lockout.Pattern.Meaning
import Lockout.Pattern.Reader
import Lockout.Pattern.Report
/-!
# From the text of a pattern to the pattern

A text is refused when it cannot be read, when a part of it has no meaning, when the pattern would take up too
much room, and last when it asks where words end beyond ASCII.
-/

namespace Lockout.Pattern

inductive Refusal
  | fault (text : String) (fault : Fault)
  | tooLarge
  | wordTable
  deriving DecidableEq, Repr

def Refusal.message : Refusal → String
  | fault text f => f.report text
  | tooLarge => "Compiled regex exceeds size limit of " ++ toString roomLimit ++ " bytes."
  | wordTable => "error building NFA"

def compile (text : String) : Except Refusal Pattern := do
  let tree ← (Tree.parse text).mapError (.fault text)
  let (pattern, _) ← (tree.meaning {}).mapError (.fault text)
  if roomLimit < pattern.room then throw .tooLarge
  if pattern.needsWordTable then throw .wordTable
  return pattern

end Lockout.Pattern
