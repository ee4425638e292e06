import WeaveStep.Text.Split

/-! # Launcher scripts

What a launcher script is made of. Its text is one of bytes: each character stands for one of them.

* `Word`: a word is kept as its pieces, since what they stand for is known only when the command is
  run.
* `Command`: simple commands, and those that are put together from others. -/

namespace WeaveStep.Launch

/-- A character that begins a name. -/
def beginsName (c : Char) : Bool := c.isAlpha || c = '_'

/-- A character of a name. -/
def isNameChar (c : Char) : Bool := c.isAlphanum || c = '_'

/-- Whether a text is a name. -/
def isName (s : String) : Bool :=
  s.toList.head?.any beginsName && s.toList.all isNameChar

/-- How a parameter is used. -/
inductive ParameterUse
  /-- Its value. -/
  | value
  /-- The number of its characters. -/
  | length
  /-- Its value, or a word where it has none. -/
  | orWord
  /-- Its value, or a word that it is set to where it has none. -/
  | orSet
  /-- Its value, or the end of the script where it has none. -/
  | orFail
  /-- A word where it has a value. -/
  | ifSet
  /-- Its value without its shortest or longest start that a pattern fits. -/
  | withoutStart (longest : Bool)
  /-- Its value without its shortest or longest end that a pattern fits. -/
  | withoutEnd (longest : Bool)
  /-- Its value, and a word behind it. -/
  | andWord
  /-- Nothing that means anything. -/
  | senseless
  deriving DecidableEq, Repr

/-- Where a descriptor is sent. -/
inductive Redirection
  | input
  | output
  /-- To a file that may lose what it holds. -/
  | overwrite
  | append
  | both
  /-- To where another descriptor goes. -/
  | copy
  /-- From text in the script itself, of this number. -/
  | document (number : Nat)
  deriving DecidableEq, Repr

mutual

/-- A piece of a word, within quotes or not. -/
inductive Piece
  | char (quoted : Bool) (c : Char)
  /-- Quotes with nothing between them. -/
  | emptyQuotes
  /-- A parameter; an empty value counts as none if `needsText`. -/
  | parameter (quoted : Bool) (name : String) (use : ParameterUse) (needsText : Bool)
      (word : List Piece)
  /-- What a command prints. -/
  | output (quoted : Bool) (body : Command)
  /-- The value of an expression. -/
  | sum (quoted : Bool) (expression : List Piece)

/-- A command of a script. -/
inductive Command
  | nothing
  | simple (line : Nat) (settings : List (String × List Piece)) (words : List (List Piece))
      (redirects : List (Nat × Redirection × List Piece))
  /-- A command with descriptors sent elsewhere. -/
  | redirected (line : Nat) (body : Command) (redirects : List (Nat × Redirection × List Piece))
  /-- A command in a process of its own. -/
  | apart (line : Nat) (body : Command) (redirects : List (Nat × Redirection × List Piece))
  /-- Commands each of which reads what the one before it prints. -/
  | pipe (commands : List Command)
  | inBackground (body : Command)
  | negated (body : Command)
  | sequence (first second : Command)
  | onSuccess (first second : Command)
  | onFailure (first second : Command)
  | choice (test success failure : Command)
  /-- A loop as long as a test succeeds, or until it does. -/
  | loop (until_ : Bool) (test body : Command)
  /-- A loop over words, or over the arguments. -/
  | each (line : Nat) (name : String) (items : Option (List (List Piece))) (body : Command)
  | cases (line : Nat) (subject : List Piece) (branches : List (List (List Piece) × Command))
  | define (name : String) (body : Command)

end

/-- A command and what follows it, if anything does. -/
def Command.andThen (first second : Command) : Command :=
  match second with
  | .nothing => first
  | second => .sequence first second

/-- The builtin commands an error in which ends a script, and whose settings stay. -/
def specialCommands : List String :=
  [".", ":", "break", "continue", "eval", "exec", "exit", "export", "local", "readonly", "return", "set",
    "shift", "times", "trap", "unset"]

/-- A word of a script. -/
abbrev Word := List Piece

/-- A redirection: the descriptor, where it is sent, and the word that says more of it. -/
abbrev Redirect := Nat × Redirection × Word

/-- Whether any part of a word stands within quotes. -/
def isQuoted (w : Word) : Bool :=
  w.any fun
    | .char quoted _ | .parameter quoted _ _ _ _ | .output quoted _ | .sum quoted _ => quoted
    | .emptyQuotes => true

/-- A word without quotes and without anything to be replaced, as text. -/
def plainText? (w : Word) : Option String :=
  String.ofList <$> w.mapM fun
    | .char false c => some c
    | _ => none

end WeaveStep.Launch
