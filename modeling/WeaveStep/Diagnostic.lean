import WeaveStep.Files.Failure
import WeaveStep.Text.Blank
import WeaveStep.Text.LetterCase

/-! # Diagnostics

What the weaver has to say: messages with a severity, and perhaps a location, lines of detail and a
cause.

* `Severity` is totally ordered by `Severity.level`; `Diagnostic.isFatal` is "error or worse".
* `Severity.ofTag?`: the severity that a console tag stands for.
* `Diagnostic.render`: a message as it is logged. -/

namespace WeaveStep

open Text

/-! ## Severity -/

/-- The kinds of weaver messages, from the least to the most severe. -/
inductive Severity
  | weaveInfo
  | debug
  | info
  | taskTag
  | warning
  | error
  | fail
  | abort
  deriving DecidableEq, Repr

namespace Severity

/-- The rank of a severity. -/
def level : Severity → Nat
  | weaveInfo => 5
  | debug => 10
  | info => 20
  | taskTag => 25
  | warning => 30
  | error => 40
  | fail => 50
  | abort => 60

/-- The name of a severity, in capitals. -/
def name : Severity → String
  | weaveInfo => "WEAVEINFO"
  | debug => "DEBUG"
  | info => "INFO"
  | taskTag => "TASKTAG"
  | warning => "WARNING"
  | error => "ERROR"
  | fail => "FAIL"
  | abort => "ABORT"

/-- All severities, in order. -/
def all : List Severity := [weaveInfo, debug, info, taskTag, warning, error, fail, abort]

/-- The severity of that name. -/
def ofName? (s : String) : Option Severity := all.find? (·.name = s)

/-- The capital letter of a small letter, as far as the names of severities need it: the ASCII
letters, and the two other small letters whose capital is an ASCII letter, the dotless i and the
long s. -/
def capital (c : Char) : Char :=
  if c = 'ı' then 'I' else if c = 'ſ' then 'S' else c.toUpper

/-- A tag as the name of a severity is spelled. -/
def spelled (tag : String) : String :=
  String.ofList ((smallLetters (trim tag)).toList.map capital)

/-- The severity that a console tag stands for. -/
def ofTag? (tag : String) : Option Severity :=
  if smallLetters (trim tag) = "task" then some taskTag else ofName? (spelled tag)

end Severity

/-! ## Diagnostics -/

/-- What lies behind a message. -/
inductive Cause
  /-- A stack trace the weaver printed. -/
  | trace (text : String)
  /-- The weaver could not be launched. -/
  | launch (why : FileFailure)
  /-- A failure elsewhere. -/
  | other (kind text : String)
  deriving Repr

namespace Cause

/-- The name of the kind of cause. -/
def kind : Cause → String
  | trace _ => "WeaverInternalError"
  | launch why => why.kind
  | other kind _ => kind

/-- The text of a cause. -/
def message : Cause → String
  | trace text => text
  | launch why => why.message
  | other _ text => text

end Cause

/-- One message of the weaver. -/
structure Diagnostic where
  severity : Severity
  text : String
  cause : Option Cause := none
  /-- Where in the sources, as file and line. -/
  location : Option String := none
  /-- The lines that go on the message. -/
  detail : List String := []
  deriving Repr

namespace Diagnostic

/-- Whether the message is an error or worse. -/
def isFatal (d : Diagnostic) : Bool := Severity.error.level ≤ d.severity.level

/-- The text with its location in front, unless that is empty. -/
def headline (d : Diagnostic) : String :=
  match d.location with
  | some location => if location = "" then d.text else location ++ " " ++ d.text
  | none => d.text

/-- The message as it is logged: the headline and the lines of detail. -/
def render (d : Diagnostic) : String := "\n".intercalate (d.headline :: d.detail)

end Diagnostic

end WeaveStep
