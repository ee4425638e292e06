import WeaveStep.Console.Line

/-! # Messages on the weaver's console

The weaver prints on two streams, and the lines of both reach us in one list.

* `collect`: the messages in a list of lines. A line with a tag, weave information and a summary
  begin a message; any other line goes on the last message of its stream, or begins one where there
  is none.
* `outcome`: the diagnostics of a finished run. A run that failed without an error message has one
  all the same: its first untagged message on the error stream becomes an abort, or its exit
  status is reported. -/

namespace WeaveStep.Console

open Text

/-- Where a line was printed. -/
inductive Stream
  | stdout
  | stderr
  | other (name : String)
  deriving DecidableEq, Repr

/-- The name of a stream. -/
def Stream.name : Stream → String
  | stdout => "stdout"
  | stderr => "stderr"
  | other name => name

/-- The stream of that name. -/
def Stream.ofName : String → Stream
  | "stdout" => stdout
  | "stderr" => stderr
  | name => other name

/-- A line as it was read, with its stream. -/
structure Line where
  stream : Stream
  text : String
  deriving DecidableEq, Repr

/-- A tag that stands for no severity. -/
structure UnknownTag where
  tag : String
  deriving DecidableEq, Repr

/-! ## Collecting -/

/-- A message that may still go on. -/
structure Message where
  severity : Severity
  text : String
  stream : Stream
  location : Option String := none
  /-- Whether the message says itself what it is. -/
  tagged : Bool := false
  detail : List String := []
  deriving DecidableEq, Repr

/-- What a line is, apart from the lines before it. -/
inductive Reading
  | blank
  /-- The line begins a message. -/
  | head (message : Message)
  /-- The line goes on a message, or begins one. -/
  | plain (line : String) (message : Message)

/-- Reads a line. -/
def Line.read (l : Line) : Except UnknownTag Reading :=
  let line := trimRightChars l.text.toList
  let stripped := trimChars l.text.toList
  let text := String.ofList stripped
  if stripped.isEmpty then .ok .blank
  else
    match tagged? stripped with
    | some found =>
      match Severity.ofTag? found.tag with
      | some severity =>
        .ok (.head ⟨severity, trim found.text, l.stream, found.location, true, []⟩)
      | none => .error ⟨found.tag⟩
    | none =>
      if isWeaveInfo line then .ok (.head ⟨.weaveInfo, text, l.stream, none, false, []⟩)
      else if isSummary stripped then .ok (.head ⟨.info, text, l.stream, none, true, []⟩)
      else .ok (.plain (String.ofList line) ⟨.info, text, l.stream, none, false, []⟩)

/-- Adds a line to the latest message of a stream, if there is one; the latest message comes
first. -/
def goOn? (stream : Stream) (line : String) : List Message → Option (List Message)
  | [] => none
  | m :: earlier =>
    if m.stream = stream then some ({ m with detail := m.detail ++ [line] } :: earlier)
    else (goOn? stream line earlier).map (m :: ·)

/-- Takes in a line; the latest message comes first. -/
def takeIn (latest : List Message) (l : Line) : Except UnknownTag (List Message) := do
  match ← l.read with
  | .blank => return latest
  | .head m => return m :: latest
  | .plain line m => return (goOn? l.stream line latest).getD (m :: latest)

/-- The messages in a list of lines, in the order of their first lines. -/
def collect (lines : List Line) : Except UnknownTag (List Message) :=
  List.reverse <$> lines.foldlM takeIn []

/-! ## Finished messages -/

/-- The diagnostic that a message is. A failure has its detail as its cause. -/
def Message.finish (m : Message) : Diagnostic where
  severity := m.severity
  text := m.text
  cause :=
    if m.detail ≠ [] ∧ Severity.fail.level ≤ m.severity.level then
      some (.trace ("\n".intercalate m.detail))
    else none
  location := m.location
  detail := m.detail

/-- The diagnostics in console text, all of it printed on one stream. -/
def parse (stream : Stream) (text : String) : Except UnknownTag (List Diagnostic) :=
  List.map Message.finish <$> collect ((lines text).map (Line.mk stream))

/-! ## Failed runs -/

/-- Whether a message is an error or worse. -/
def Message.isFatal (m : Message) : Bool := Severity.error.level ≤ m.severity.level

/-- Whether a message on the error stream gives no hint of what it is. -/
def Message.isUnexplained (m : Message) : Bool :=
  m.stream = .stderr && !m.tagged && m.severity = .info

/-- Makes the first unexplained message an abort, if there is one. -/
def promote? : List Message → Option (List Message)
  | [] => none
  | m :: later =>
    if m.isUnexplained then some ({ m with severity := .abort } :: later)
    else (promote? later).map (m :: ·)

/-- The message that reports an exit status. -/
def statusMessage (status : Int) : Message :=
  ⟨.error, "Weaver exited with status " ++ toString status, .stderr, none, true, []⟩

/-- The messages of a finished run: a failed one without an error message gets one. -/
def explained (status : Int) (messages : List Message) : List Message :=
  if status ≠ 0 ∧ !messages.any Message.isFatal then
    (promote? messages).getD (messages ++ [statusMessage status])
  else messages

/-- The diagnostics of a finished run. -/
def outcome (status : Int) (lines : List Line) : Except UnknownTag (List Diagnostic) :=
  (fun messages => (explained status messages).map Message.finish) <$> collect lines

end WeaveStep.Console
