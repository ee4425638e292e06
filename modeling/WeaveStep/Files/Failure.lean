import WeaveStep.Text.Quoted

/-! # File failures

Why the system refuses an operation on files, and how that is reported.

* `Errno`: the system's reasons, each with its number and wording.
* `FileFailure`: a refused operation with the paths it names, or a failure of an operation on whole
  trees. `FileFailure.message` is its text and `FileFailure.kind` the name of its kind. -/

namespace WeaveStep

open Text

/-! ## The system's reasons -/

/-- Why the system refuses an operation. -/
inductive Errno
  | noEntry
  | tooLong
  | badExecutable
  | denied
  | busy
  | taken
  | notDirectory
  | isDirectory
  | invalid
  | nameTooLong
  | notEmpty
  | tooManyLinks
  deriving DecidableEq, Repr

/-- The number of a reason. -/
def Errno.number : Errno → Nat
  | .noEntry => 2
  | .tooLong => 7
  | .badExecutable => 8
  | .denied => 13
  | .busy => 16
  | .taken => 17
  | .notDirectory => 20
  | .isDirectory => 21
  | .invalid => 22
  | .nameTooLong => 36
  | .notEmpty => 39
  | .tooManyLinks => 40

/-- The wording of a reason. -/
def Errno.text : Errno → String
  | .noEntry => "No such file or directory"
  | .tooLong => "Argument list too long"
  | .badExecutable => "Exec format error"
  | .denied => "Permission denied"
  | .busy => "Device or resource busy"
  | .taken => "File exists"
  | .notDirectory => "Not a directory"
  | .isDirectory => "Is a directory"
  | .invalid => "Invalid argument"
  | .nameTooLong => "File name too long"
  | .notEmpty => "Directory not empty"
  | .tooManyLinks => "Too many levels of symbolic links"

/-- The name of the kind of failure a reason makes. -/
def Errno.kind : Errno → String
  | .noEntry => "FileNotFoundError"
  | .denied => "PermissionError"
  | .taken => "FileExistsError"
  | .notDirectory => "NotADirectoryError"
  | .isDirectory => "IsADirectoryError"
  | _ => "OSError"

/-! ## Failures -/

/-- How a path object, as opposed to a plain path text, is shown. -/
def shownPath (path : String) : String := "PosixPath(" ++ quoted path ++ ")"

/-- What a refused operation names. -/
inductive Subject
  | nothing
  | path (path : String)
  | shown (path : String)
  | move (source target : String)
  deriving DecidableEq, Repr

/-- How a refusal goes on after its reason. -/
def Subject.text : Subject → String
  | .nothing => ""
  | .path p => ": " ++ quoted p
  | .shown p => ": " ++ shownPath p
  | .move a b => ": " ++ quoted a ++ " -> " ++ quoted b

/-- One part of a failed copy of a tree: an entry that could not be copied, with the reason in
words, or a character of a message that was taken apart. -/
inductive CopyFlaw
  | entry (source target reason : String)
  | letter (c : Char)
  deriving DecidableEq, Repr

/-- A part of a failed copy, as it is shown in a list. -/
def CopyFlaw.text : CopyFlaw → String
  | .entry source target reason =>
    "(" ++ quoted source ++ ", " ++ quoted target ++ ", " ++ quoted reason ++ ")"
  | .letter c => quoted (String.singleton c)

/-- Why an operation on files failed. -/
inductive FileFailure
  /-- The system refused. -/
  | refused (why : Errno) (subject : Subject)
  /-- A tree to be deleted is reached through a link. -/
  | treeIsLink
  /-- A file was to be copied onto itself; both are given as they are shown. -/
  | sameFile (source target : String)
  /-- Some entries of a tree were not copied. -/
  | copies (flaws : List CopyFlaw)
  /-- The directory that a copy was to be made in is not there. -/
  | noDirectory (path : String)
  /-- The path holds a null character. -/
  | nullCharacter
  /-- Following the links of the path never ends. -/
  | linkLoop (path : String)
  /-- A path without a name was to be given another one. -/
  | noName (path : String)
  /-- A program was to be launched, but none is named. -/
  | noProgram
  /-- A second failure while a first one was being dealt with. -/
  | after (earlier later : FileFailure)
  deriving Repr

namespace FileFailure

/-- The refusal of an operation on one path. -/
def refusal (why : Errno) (path : String) : FileFailure := .refused why (.path path)

/-- The name of the kind of failure. -/
def kind : FileFailure → String
  | refused why _ => why.kind
  | treeIsLink => "OSError"
  | sameFile _ _ => "SameFileError"
  | copies _ => "Error"
  | noDirectory _ => "FileNotFoundError"
  | nullCharacter => "ValueError"
  | linkLoop _ => "RuntimeError"
  | noName _ => "ValueError"
  | noProgram => "IndexError"
  | after _ later => later.kind

/-- The text of a failure. -/
def message : FileFailure → String
  | refused why subject =>
    "[Errno " ++ toString why.number ++ "] " ++ why.text ++ subject.text
  | treeIsLink => "Cannot call rmtree on a symbolic link"
  | sameFile a b => a ++ " and " ++ b ++ " are the same file"
  | copies flaws => "[" ++ ", ".intercalate (flaws.map CopyFlaw.text) ++ "]"
  | noDirectory path => "Directory does not exist: " ++ path
  | nullCharacter => "embedded null byte"
  | linkLoop path => "Symlink loop from " ++ quoted path
  | noName path => shownPath path ++ " has an empty name"
  | noProgram => "list index out of range"
  | after _ later => later.message

/-- Whether the failure is the system's, as opposed to a path that means nothing to it. -/
def isSystem : FileFailure → Bool
  | nullCharacter | linkLoop _ | noName _ | noProgram => false
  | after _ later => later.isSystem
  | _ => true

/-- Whether the failure is that something is not there. -/
def isMissing : FileFailure → Bool
  | refused why _ => why = .noEntry
  | noDirectory _ => true
  | after _ later => later.isMissing
  | _ => false

/-- Whether the system refused for the given reason. -/
def isRefusal (why : Errno) : FileFailure → Bool
  | refused why' _ => why' = why
  | _ => false

/-- The failures that were being dealt with when this one arose, and this one, in order. -/
def chain : FileFailure → List FileFailure
  | after earlier later => earlier.chain ++ later.chain
  | failure => [failure]

end FileFailure

end WeaveStep
