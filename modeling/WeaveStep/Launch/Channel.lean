import WeaveStep.Files.Walk
import WeaveStep.Launch.Field
import WeaveStep.Launch.Signal
import WeaveStep.World

/-! # Channels

What the descriptors of running scripts lead to: the console, devices, files that are read and
written bit by bit, and pipes. All text is one of bytes.

* `Pipe`: text on its way. A pipe that is full cuts the text off; `Pipe.isCut` says that a reader who
  comes to its end would have had to wait for more.
* `Channel.write?`, `Channel.source`, `Channel.advance`: writing to and reading from a channel. -/

namespace WeaveStep

/-! ## Files that are written to -/

namespace FileTree

/-- The tree with nothing in the file at a place. -/
def emptied (t : FileTree) (place : Location) : FileTree :=
  match t.get? place with
  | some (.file _ executable) => t.set place (.file [] executable)
  | _ => t

/-- What is done with a file that is there already when it is opened to be written to. -/
inductive Opening
  | keeps
  | empties
  /-- It is refused. -/
  | spares
  deriving DecidableEq

/-- The place of the file to be written to that a path leads to, in a tree where it is there. -/
def placeToWrite (t : FileTree) (path : String) (opening : Opening) :
    Except FileFailure (Location × FileTree) := do
  if path = "" then throw (.refusal .noEntry path)
  let start := t.startOf (.ofString path)
  let place ← t.locateNames .made path start (targetNames path)
  match t.get? place with
  | some .directory => throw (.refusal .isDirectory path)
  | some (.link _) => throw (.refusal .tooManyLinks path)
  | some (.device _) => return (place, t)
  | some (.file _ _) =>
    match opening with
    | .keeps => return (place, t)
    | .empties => return (place, t.emptied place)
    | .spares => throw (.refusal .taken path)
  | none =>
    if opening = .spares && (t.locateNames .own path start (targetNames path)).toOption ≠ some place then
      throw (.refusal .taken path)
    return (place, t.set place (.file [] false))

end FileTree

namespace Launch

open Text

/-! ## Pipes -/

/-- Text on its way from those who write it to those who read it. -/
structure Pipe where
  front : List Char := []
  /-- What comes after that, latest first. -/
  back : List (List Char) := []
  /-- How many more bytes it takes, if that is limited. -/
  room : Option Nat := none
  /-- Whether more was written than it could take. -/
  isCut : Bool := false

namespace Pipe

/-- A pipe that holds a text. -/
def ofText (s : String) : Pipe := { front := s.toList }

/-- The text in a pipe. -/
def text (p : Pipe) : List Char :=
  if p.back.isEmpty then p.front else p.front ++ p.back.reverse.flatten

/-- The pipe with a text put into it, as much of it as there is room for. -/
def put (p : Pipe) (s : List Char) : Pipe :=
  match p.room with
  | none => { p with back := s :: p.back }
  | some n =>
    let taken := s.take n
    { p with
      back := taken :: p.back
      room := some (n - taken.length)
      isCut := p.isCut || taken.length < s.length }

/-- The pipe without the characters that were read. -/
def drop (p : Pipe) (count : Nat) : Pipe := { p with front := p.text.drop count, back := [] }

end Pipe

/-! ## Channels -/

/-- How a file was opened. -/
structure OpenMode where
  reads : Bool := false
  writes : Bool := false
  /-- Whether all that is written goes to the end. -/
  atEnd : Bool := false

/-- Where a descriptor leads. -/
inductive Channel
  | console (stream : Console.Stream)
  | device (isFull : Bool)
  /-- A file, and how many bytes in it come before those that are next. -/
  | file (place : Location) (position : Nat) (mode : OpenMode)
  | pipe (pipe : Pipe)

/-- What is still to be read. -/
inductive Source
  | bytes (content : List UInt8)
  /-- Text, after which a reader has to wait if it was cut off. -/
  | text (s : List Char) (isCut : Bool)

/-- What comes of writing. -/
inductive Written
  | done
  | refused
  /-- The process that writes is sent a signal. -/
  | struck (signal : Nat)
  deriving DecidableEq

/-- Content with bytes written over it from some position on; zeros fill a gap. -/
def overwritten (content : List UInt8) (position : Nat) (bytes : List UInt8) : List UInt8 :=
  content.take position ++ List.replicate (position - content.length) 0 ++ bytes ++
    content.drop (position + bytes.length)

/-- Writes into a file, which takes bytes up to `limit`. -/
def writeFile (files : FileTree) (place : Location) (position : Nat) (mode : OpenMode)
    (limit : Option Nat) (text : List Char) : Written × Channel × FileTree :=
  match files.get? place with
  | some (.file content executable) =>
    let position := if mode.atEnd then content.length else position
    let bytes := textBytes (String.ofList text)
    let taken := match limit with
      | some limit => bytes.take (limit - position)
      | none => bytes
    let content := if taken.isEmpty then content else overwritten content position taken
    (if taken.length < bytes.length then .struck Signal.fileTooLarge else .done,
      .file place (position + taken.length) mode, files.set place (.file content executable))
  | _ => (.done, .file place position mode, files)

namespace Channel

/-- Writes a text to a channel. -/
def write (c : Channel) (files : FileTree) (limit : Option Nat) (text : List Char) :
    Written × Channel × FileTree :=
  match c with
  | .console _ => (.done, c, files)
  | .device isFull => (if isFull then .refused else .done, c, files)
  | .file place position mode =>
    if mode.writes then writeFile files place position mode limit text else (.refused, c, files)
  | .pipe p =>
    let p := p.put text
    (if p.isCut then .struck Signal.brokenPipe else .done, .pipe p, files)

/-- What is still to be read from a channel. -/
def source (c : Channel) (files : FileTree) : Source :=
  match c with
  | .pipe p => .text p.text p.isCut
  | .file place position mode =>
    match mode.reads, files.get? place with
    | true, some (.file content _) => .bytes (content.drop position)
    | _, _ => .bytes []
  | _ => .bytes []

/-- The channel after characters were read from it. -/
def advance (c : Channel) (count : Nat) : Channel :=
  match c with
  | .pipe p => .pipe (p.drop count)
  | .file place position mode => .file place (position + count) mode
  | c => c

end Channel

end Launch

end WeaveStep
