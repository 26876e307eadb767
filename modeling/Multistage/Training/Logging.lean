/-
Multistage.Training.Logging — log levels and log lines.

A level is a number; six of them have names.  Records below the level of the
log are dropped, and so are records without a positive level and those whose
message has no places for its arguments; the others become lines with the
name of their level, the name of their source and the message with its
arguments filled in.
-/
import Multistage.Text.Case
import Multistage.Value.Template

namespace Multistage.Logging

/-! ## Levels -/

/-- Names of levels; the first name of a number is the one that is shown. -/
def levels : List (String × Int) :=
  [("CRITICAL", 50), ("FATAL", 50), ("ERROR", 40), ("WARNING", 30), ("WARN", 30),
   ("INFO", 20), ("DEBUG", 10), ("NOTSET", 0)]

/-- The level of progress messages. -/
def info : Int := 20

/-- The name shown for a level; one without a name is shown as it was
given. -/
def nameOf (level : Int) (given : Value) : String :=
  match levels.find? fun (_, n) => n = level with
  | some (name, _) => name
  | none => "Level " ++ given.text

/-- The level that a setting asks for: a name in any case, an unknown name
meaning progress messages, or a number.  Two names stand for other things than
levels. -/
def readLevel (given : Value) : Except Failure Int :=
  match given with
  | .string s =>
    match Text.upperKey s with
    | "BASIC_FORMAT" => .error (.badValue "the name of a format")
    | "_STYLES" => .error .wrongKind
    | key => .ok (((levels.find? fun (name, _) => name = key).map Prod.snd).getD info)
  | v => v.toInt

/-! ## Records -/

/-- A message with its level, the name of the level and that of its
source. -/
structure Record where
  level : Int
  levelName : String
  source : String
  message : String
  arguments : List Value

/-- The name of the log that has no source of its own. -/
def rootName : String := "root"

/-- The name of a source. -/
def readSource (v : Value) : Except Failure String :=
  if !v.truthy then .ok rootName
  else match v with
    | .string s => .ok s
    | _ => .error .wrongKind

/-- A record of a level, a source, a message and arguments; the level has to
be whole. -/
def Record.ofValues (level source message : Value) (arguments : List Value) :
    Except Failure Record := do
  let source ← readSource source
  match level.number with
  | .ok (.whole rank) =>
    return { level := rank, levelName := nameOf rank level, source, message := message.text
             arguments }
  | _ => throw .wrongKind

/-- The message of a record; without arguments it stands as it is. -/
def Record.text (r : Record) : Option String :=
  if r.arguments.isEmpty then some r.message else Template.fill r.message r.arguments

/-- The line of a record, if it has a message. -/
def Record.line (r : Record) : Option String :=
  r.text.map fun text => r.levelName ++ " | " ++ r.source ++ " | " ++ text

/-- The lines of the records that reach a level. -/
def lines (level : Int) (records : List Record) : List String :=
  (records.filter fun r => decide (0 < r.level ∧ level ≤ r.level)).filterMap Record.line

end Multistage.Logging
