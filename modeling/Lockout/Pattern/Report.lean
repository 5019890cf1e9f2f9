import Lockout.Pattern.Fault
import Lockout.Text
/-!
# Pointing at a fault

A fault is told by writing the pattern out, with carets under the place. A pattern of several lines gets line
numbers and stands between two rules; a fault that stretches over a line end is told by lines and columns.
-/

namespace Lockout.Pattern

def aligned (width n : Nat) : String :=
  String.ofList (List.replicate (width - (toString n).length) ' ') ++ toString n

/-- Carets under `spans` of one line, behind a margin. A span without any width still gets one. -/
def carets (margin : Nat) (spans : List Span) : String :=
  let draw (drawn : List Char) (span : Span) : List Char :=
    drawn ++ List.replicate (span.first.column - 1 - drawn.length) ' ' ++
      List.replicate (max 1 (span.last.column - span.first.column)) '^'
  String.ofList (List.replicate margin ' ' ++ spans.foldl draw [])

namespace Fault

def spans (fault : Fault) : List Span :=
  match fault.earlier with
  | some earlier => if earlier.before fault.span then [earlier, fault.span] else [fault.span, earlier]
  | none => [fault.span]

/-- Numbers are written only where there is more than one line; one more may begin behind the last end. -/
def numberWidth (text : String) : Nat :=
  let count := (Text.lines text).length + (if text.toList.getLast? = some '\n' then 1 else 0)
  if count ≤ 1 then 0 else (toString count).length

/-- A line of the pattern, and under it the carets that belong there. -/
def noted (fault : Fault) (width number : Nat) (line : String) : List String :=
  let lead := if width = 0 then "    " else aligned width number ++ ": "
  let marked := fault.spans.filter fun span => span.isOneLine && span.first.line = number
  let marks := if marked.isEmpty then [] else [carets lead.length marked]
  (lead ++ line) :: marks

/-- In words, where a span does not fit under one line. -/
def stretch (span : Span) : String :=
  "on line " ++ toString span.first.line ++ " (column " ++ toString span.first.column ++ ") through line " ++
    toString span.last.line ++ " (column " ++ toString (span.last.column - 1) ++ ")"

/-- The whole message, with a line end between any two of its lines. -/
def report (text : String) (fault : Fault) : String :=
  let width := numberWidth text
  let numbered := (Text.lines text).zipIdx 1
  let body := numbered.flatMap fun (line, number) => fault.noted width number line
  let rule := String.ofList (List.replicate 79 '~')
  let stretches := (fault.spans.filter fun span => !span.isOneLine).map stretch
  let told :=
    if text.contains '\n' then [rule] ++ body ++ [rule] ++ stretches else body
  "\n".intercalate (["regex parse error:"] ++ told ++ ["error: " ++ fault.cause.text])

end Fault

end Lockout.Pattern
