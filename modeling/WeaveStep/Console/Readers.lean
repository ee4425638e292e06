import WeaveStep.Console.Messages

/-! # Readers of the console

Each of the two streams of a process has a reader of its own, which takes one line after the other
and puts it at the end of the console's lines. The readers run at the same time, in steps that may
come in any order; only one of them at a time may touch the list, which a lock sees to.

* `Readers.step?`: the next step of one reader. A reader that waits for the lock has none.
* `Readers.run`: the steps of a schedule, which says who steps next.
* `Readers.IsFinished`: both readers have come to the end of their streams. -/

namespace WeaveStep.Console

/-- Where a reader stands. -/
inductive Stand
  /-- It is about to take its next line. -/
  | reading
  /-- It has a line and waits for the lock. -/
  | waiting (line : String)
  /-- It has a line and the lock. -/
  | holding (line : String)
  /-- Its line is on the list, and it still has the lock. -/
  | leaving
  deriving DecidableEq, Repr

/-- A reader, with the lines it has not taken. -/
structure Reader where
  stand : Stand := .reading
  ahead : List String := []
  deriving DecidableEq, Repr

/-- The readers of all streams, the lock and the console's lines so far. -/
structure Readers where
  reader : Stream → Reader
  locked : Bool := false
  console : List Line := []

namespace Readers

/-- The readers before they begin, with what is printed on the streams. -/
def start (out err : List String) : Readers where
  reader
    | .stdout => { ahead := out }
    | .stderr => { ahead := err }
    | .other _ => {}

/-- The readers with one of them changed. -/
def set (r : Readers) (s : Stream) (x : Reader) : Readers :=
  { r with reader := fun t => if t = s then x else r.reader t }

/-- The next step of the reader of a stream. -/
def step? (r : Readers) (s : Stream) : Option Readers :=
  match r.reader s with
  | ⟨.reading, []⟩ => none
  | ⟨.reading, line :: ahead⟩ => some (r.set s ⟨.waiting line, ahead⟩)
  | ⟨.waiting line, ahead⟩ =>
    if r.locked then none else some { r.set s ⟨.holding line, ahead⟩ with locked := true }
  | ⟨.holding line, ahead⟩ =>
    some { r.set s ⟨.leaving, ahead⟩ with console := r.console ++ [⟨s, line⟩] }
  | ⟨.leaving, ahead⟩ => some { r.set s ⟨.reading, ahead⟩ with locked := false }

/-- The steps of a schedule; nothing where a reader is to step that cannot. -/
def run (r : Readers) (schedule : List Stream) : Option Readers := schedule.foldlM step? r

/-- Whether all readers have come to the end of their streams. -/
def IsFinished (r : Readers) : Prop := ∀ s, r.reader s = {}

end Readers

end WeaveStep.Console
