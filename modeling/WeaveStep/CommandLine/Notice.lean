import WeaveStep.World

/-! # Notices

What a command prints for its user, set off by blank lines and in colours, and the exit codes that
go with it. -/

namespace WeaveStep

/-- The colours of notices. -/
inductive Colour
  | red
  | green
  | yellow
  deriving DecidableEq, Repr

/-- The sequence that switches a terminal to a colour. -/
def Colour.code : Colour → String
  | .red => "\x1b[1;31m"
  | .green => "\x1b[1;32m"
  | .yellow => "\x1b[1;33m"

/-- A text in a colour. -/
def Colour.paint (c : Colour) (s : String) : String := c.code ++ s ++ "\x1b[0m"

namespace Notice

variable {ε : Type}

/-- Prints what went wrong. -/
def error (title message : String) : Run ε Unit := do
  Run.print ""
  Run.print (Colour.red.paint ("✗ " ++ title))
  Run.print ""
  Run.print message
  Run.print ""

/-- Prints that all went well. -/
def success (message : String) : Run ε Unit := do
  Run.print ""
  Run.print (Colour.green.paint ("✓ " ++ message))

/-- Prints a warning. -/
def warning (message : String) : Run ε Unit := do
  Run.print ""
  Run.print (Colour.yellow.paint ("✗ " ++ message))

/-- Prints why a command line is refused. -/
def refusal (message : String) : Run ε Unit := Run.print (Colour.red.paint ("✗ Error: " ++ message))

/-- Prints that a file is missing, and gives the exit code. -/
def missingFile (message : String) : Run ε Nat := do
  error "Error: File not found" message
  return 1

/-- Prints that the user stopped the command, and gives the exit code. -/
def interrupted : Run ε Nat := do
  warning "Weave interrupted"
  return 130

/-- Prints a failure of some kind, with the trace that led to it if there is one, and gives the exit
code. -/
def unexpected (kind message : String) (trace : Option String) : Run ε Nat := do
  error "Unexpected error" (kind ++ ": " ++ message)
  if let some trace := trace then
    Run.print "Traceback:"
    Run.print trace
  return 1

end Notice

end WeaveStep
