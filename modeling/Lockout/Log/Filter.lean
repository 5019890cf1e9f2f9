import Lockout.Log
import Lockout.Pattern.Compile
/-!
# Log filters

A request for log output is a list of directives, separated by commas: a level, which holds for all
messages, or the beginning of an origin, with or without a level of its own. Behind a slash may stand a
pattern that has to occur in a message. For each origin the directive that names most of it decides.
-/

namespace Lockout

/-- How much is shown: messages up to a level, or nothing. -/
abbrev Threshold := Option Level

namespace Threshold

/-- Thresholds are named like the levels, in letters of either case. -/
def ofName? (name : String) : Option Threshold :=
  if name.toUpper = "OFF" then some none
  else (Level.all.find? fun level => level.name = name.toUpper).map some

def admits (threshold : Threshold) (level : Level) : Bool :=
  match threshold with
  | some most => level.verbosity ≤ most.verbosity
  | none => false

end Threshold

namespace Log

/-- What is shown of the origins that begin with `stem`. -/
structure Directive where
  stem : String
  threshold : Threshold
  deriving DecidableEq, Repr

/-- A part of a request that is left out because it cannot be read. -/
inductive Fault
  | directive (text : String)
  | pattern (refusal : Pattern.Refusal)
  /-- More than one slash, which makes all of the request unreadable. -/
  | slashes (request : String)
  deriving DecidableEq, Repr

def Fault.message : Fault → String
  | directive text => "warning: invalid logging spec '" ++ text ++ "', ignoring it"
  | pattern refusal => "warning: invalid regex filter - " ++ refusal.message
  | slashes request => "warning: invalid logging spec '" ++ request ++ "', ignoring it (too many '/'s)"

/-- A word that names no threshold is a stem, and a stem by itself asks for everything. -/
def Directive.parse (text : String) : Except Fault Directive :=
  match text.splitOn "=" with
  | [word] => .ok <|
    match Threshold.ofName? word with
    | some threshold => ⟨"", threshold⟩
    | none => ⟨word, some .trace⟩
  | [stem, word] =>
    if (Text.trim word).isEmpty then .ok ⟨stem, some .trace⟩
    else
      match Threshold.ofName? (Text.trim word) with
      | some threshold => .ok ⟨stem, threshold⟩
      | none => .error (.directive (Text.trim word))
  | _ => .error (.directive text)

structure Filter where
  directives : List Directive := []
  /-- What has to occur in a message. -/
  pattern : Option Pattern := none
  deriving DecidableEq, Repr

namespace Filter

/-- The directives of a list together with what could not be read of it. -/
def directivesOf (texts : List String) : List Directive × List Fault :=
  let read := ((texts.map Text.trim).filter fun text => !text.isEmpty).map Directive.parse
  let faults := read.filterMap fun
    | .error fault => some fault
    | .ok _ => none
  (read.filterMap Except.toOption, faults)

/-- A filter together with what could not be read of its request. A pattern that is refused is left out. -/
def parse (request : String) : Filter × List Fault :=
  match request.splitOn "/" with
  | [list] =>
    let (directives, faults) := directivesOf (list.splitOn ",")
    ({ directives }, faults)
  | [list, text] =>
    let (directives, faults) := directivesOf (list.splitOn ",")
    match Pattern.compile text with
    | .ok pattern => ({ directives, pattern }, faults)
    | .error refusal => ({ directives }, faults ++ [.pattern refusal])
  | _ => ({}, [.slashes request])

/-- The longer stem goes first, and of equal ones the later. -/
def moreSpecific (best : Option Directive) (d : Directive) : Option Directive :=
  match best with
  | some b => if b.stem.length ≤ d.stem.length then some d else some b
  | none => some d

def decisive (f : Filter) (origin : String) : Option Directive :=
  (f.directives.filter fun d => d.stem.toList.isPrefixOf origin.toList).foldl moreSpecific none

/-- Without any directive errors are shown; an origin that no directive is about stays silent. -/
def threshold (f : Filter) (origin : String) : Threshold :=
  if f.directives.isEmpty then some .error
  else
    match f.decisive origin with
    | some d => d.threshold
    | none => none

def admits (f : Filter) (origin : String) (message : Message) : Bool :=
  (f.threshold origin).admits message.level && f.pattern.all fun pattern => pattern.occursIn message.text

end Filter

end Log

end Lockout
