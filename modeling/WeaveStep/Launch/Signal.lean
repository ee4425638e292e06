/-! # Signals

The signals that processes send one another, by their numbers. The end of a script counts as signal
zero.

* `Signal.name?`, `Signal.number?`: the names scripts know them by.
* `Signal.text`: what the end of a process by a signal is called. -/

namespace WeaveStep.Launch.Signal

/-- The least of the signals that have no meaning of their own, and the greatest. -/
def firstFree : Nat := 34

/-- The greatest signal. -/
def last : Nat := 64

/-- The names of the signals with a meaning, in the order of their numbers from zero on. -/
def meaningfulNames : List String :=
  ["EXIT", "HUP", "INT", "QUIT", "ILL", "TRAP", "ABRT", "BUS", "FPE", "KILL", "USR1", "SEGV", "USR2",
    "PIPE", "ALRM", "TERM", "16", "CHLD", "CONT", "STOP", "TSTP", "TTIN", "TTOU", "URG", "XCPU",
    "XFSZ", "VTALRM", "PROF", "WINCH", "IO", "PWR", "SYS", "32", "33"]

/-- The name of a signal without a meaning, which is counted from the least or the greatest of them,
whichever is closer. -/
def freeName (n : Nat) : String :=
  if n = firstFree then "RTMIN"
  else if n = last then "RTMAX"
  else if n < 50 then "RTMIN+" ++ toString (n - firstFree)
  else "RTMAX-" ++ toString (last - n)

/-- The names of all signals, in the order of their numbers from zero on. -/
def names : List String :=
  meaningfulNames ++ (List.range (last + 1 - firstFree)).map fun i => freeName (firstFree + i)

/-- The name of a signal. -/
def name? (n : Nat) : Option String := names[n]?

/-- The signal of a number or a name in any case of letters, among those from `least` on. -/
def number? (least : Nat) (s : String) : Option Nat :=
  if s ≠ "" && s.toList.all Char.isDigit then s.toNat?.filter (· ≤ last)
  else ((names.zipIdx.drop least).find? fun (name, _) => name = s.toUpper).map (·.2)

/-- The signals that end no process which does not answer them. -/
def isIdle (n : Nat) : Bool := [0, 17, 18, 19, 20, 21, 22, 23, 28].contains n

/-- The signal that no process can answer. -/
def kill : Nat := 9

/-- Whether processes may choose what a signal does to them. -/
def isOptional (n : Nat) : Bool := !([kill, 19, 32, 33].contains n)

/-- The signal of a process whose text nobody is left to read. -/
def brokenPipe : Nat := 13

/-- The signal of an ended process that was started by the one that gets it. -/
def childEnded : Nat := 17

/-- The signal of a process that writes more into a file than it may. -/
def fileTooLarge : Nat := 25

/-- The signals by which a user ends a process in the foreground. -/
def fromKeyboard : List Nat := [2, 3]

/-- What the end of a process by one of the signals with a meaning is called. -/
def texts : List String :=
  ["Hangup", "Interrupt", "Quit", "Illegal instruction", "Trace/breakpoint trap", "Aborted",
    "Bus error", "Floating point exception", "Killed", "User defined signal 1", "Segmentation fault",
    "User defined signal 2", "Broken pipe", "Alarm clock", "Terminated", "Stack fault",
    "Child exited", "Continued", "Stopped (signal)", "Stopped", "Stopped (tty input)",
    "Stopped (tty output)", "Urgent I/O condition", "CPU time limit exceeded",
    "File size limit exceeded", "Virtual timer expired", "Profiling timer expired",
    "Window changed", "I/O possible", "Power failure", "Bad system call"]

/-- What the end of a process by a signal is called. -/
def text (n : Nat) : String :=
  match texts[n - 1]? with
  | some text => text
  | none =>
    if n < firstFree then "Unknown signal " ++ toString n
    else "Real-time signal " ++ toString (n - firstFree)

/-- Whether nothing is told of the end of a process by a signal, since the user wanted it or it only
means that a pipe was given up. -/
def isQuiet (n : Nat) : Bool := n = 2 || n = brokenPipe

end WeaveStep.Launch.Signal
