import WeaveStep.Launch.Builtin.Arguments

/-! # Builtin commands on signals and jobs

Those that send signals and say how they are answered, and those that deal with jobs, except the one
that waits for them.

* `Builtin.job`: the job that a text such as `%1` means.
* `Builtin.shownJob`: a job as it is listed. -/

namespace WeaveStep.Launch.Builtin

open Text

/-! ## Jobs -/

/-- The job that a text means; without a text, the latest one. -/
def job (name : Option String) : Act Job := do
  let jobs := (← get).ownJobs
  let found (j : Option Job) (why : String) : Act Job :=
    match j with
    | some j => pure j
    | none => Act.fail why
  match name with
  | none => found jobs.head? "No current job"
  | some name =>
    let absent := "No such job: " ++ name
    match name.toList with
    | '%' :: rest =>
      if rest = [] || rest = ['+'] || rest = ['%'] then found jobs.head? "No current job"
      else if rest = ['-'] then found (jobs.drop 1).head? "No previous job"
      else
        let slot := if rest.all Char.isDigit then Sum.digitsValue 10 rest else 0
        if rest = ['?'] && jobs.length = 1 then found jobs.head? absent
        else found (jobs.find? fun j => slot ≠ 0 && j.slot = slot) absent
    | _ => Act.fail absent

/-- How a job stands. -/
def stateText (j : Job) : String :=
  match j.state with
  | .ended endings =>
    match endings.getLast? with
    | some (.struck signal) => Signal.text signal
    | some (.exited status) => if status = 0 then "Done" else "Done(" ++ toString status ++ ")"
    | none => "Done"
  | _ => "Running"

/-- How wide the state of a job is set, with what stands in front of it. -/
def stateWidth : Nat := 33

/-- A job as it is listed, with a mark for the latest ones, and the numbers of its processes or not. -/
def shownJob (mark : Char) (withNumbers : Bool) (j : Job) : String :=
  let front := "[" ++ toString j.slot ++ "] " ++ String.singleton mark ++ " "
  let padded (s : String) (length : Nat) : String :=
    s ++ String.ofList (List.replicate (max 1 (stateWidth - length)) ' ')
  if withNumbers then
    let first := front ++ toString (j.processes.headD 0) ++ " " ++ stateText j
    let further := (j.processes.drop 1).map fun n =>
      let number := toString n ++ " "
      let indent := String.ofList (List.replicate front.length ' ')
      padded (" |\n" ++ indent ++ number) (front.length + number.length)
    String.join (padded first first.length :: further) ++ "\n"
  else
    let pipe := String.join ((j.processes.drop 1).map fun _ => " | ")
    padded (front ++ stateText j) (front.length + (stateText j).length) ++ pipe ++ "\n"

/-- Lists jobs; those that have ended are forgotten then. -/
def jobs (arguments : List String) : Act Nat := do
  let (found, names) ← letters "lp" arguments
  let show_ (j : Job) : Act Unit := do
    let own := (← get).ownJobs
    let isAt (n : Nat) : Bool := (own[n]?).any (·.slot = j.slot)
    let mark := if isAt 0 then '+' else if isAt 1 then '-' else ' '
    if found.getLast? = some 'p' then
      discard (Act.print (toString (j.processes.headD 0) ++ "\n").toList)
    else
      discard (Act.print (shownJob mark (found.getLast? = some 'l') j).toList)
      if j.isEnded then modify (·.dropJob j)
  if names.isEmpty then
    for j in (← get).ownJobs do show_ j
  else
    for name in names do show_ (← job (some name))
  return 0

/-- Goes on with a job, which is never done, since jobs are not controlled. -/
def goOn (arguments : List String) : Act Nat := do
  let (_, arguments) ← letters "" arguments
  let _ ← job arguments.head?
  Act.fail ("job " ++ arguments.headD "(null)" ++ " not created under job control")

/-! ## Signals -/

/-- What the command that sends signals is asked for: the signal, whether signals are to be listed,
and the arguments left. -/
def signalCall (arguments : List String) : Act (Option Nat × Bool × List String) := do
  match arguments with
  | [] => return (none, false, [])
  | s :: rest =>
    match s.toList with
    | '-' :: name =>
      match Signal.number? 1 (String.ofList name) with
      | some signal => return (some signal, false, rest)
      | none =>
        let (found, rest) ← options [('l', false), ('s', true)] arguments
        let signals ← (found.filter (·.1 = 's')).mapM fun (_, name) => do
          match Signal.number? 1 name with
          | some signal => pure signal
          | none => Act.fail ("invalid signal number or name: " ++ name)
        return (signals.getLast?, (found.map (·.1)).contains 'l', rest)
    | _ => return (none, false, arguments)

/-- Lists the signals, or names one that is given by its number or by a status. -/
def listSignals (arguments : List String) : Act Nat := do
  match arguments with
  | [] => Act.print (String.join ("0\n" :: (Signal.names.drop 1).map (· ++ "\n"))).toList
  | s :: _ =>
    let n ← Act.number s
    match Signal.name? (if 128 < n then n - 128 else n) with
    | some name =>
      if name = "EXIT" then Act.fail ("invalid signal number or exit status: " ++ s)
      Act.print (name ++ "\n").toList
    | none => Act.fail ("invalid signal number or exit status: " ++ s)

/-- Sends a signal to the process of a number, or to those of a job, which are in no group of their
own. -/
def send (signal : Nat) (target : String) : Act Nat := do
  let absent : Act Nat := do
    Act.complain "No such process\n"
    return 1
  match target.toList with
  | '%' :: _ =>
    let _ ← job (some target)
    absent
  | '-' :: digits =>
    let _ ← Act.number (String.ofList digits)
    absent
  | _ =>
    let n ← Act.number target
    let sh ← get
    if !sh.isProcess n then absent
    else
      if signal ≠ 0 then set { sh with sent := sh.sent ++ [(n, signal)] }
      Act.receive
      return 0

/-- Sends signals. -/
def kill (arguments : List String) : Act Nat := do
  let (signal, lists, targets) ← signalCall arguments
  if arguments.isEmpty || (lists && signal.isSome && !targets.isEmpty) || (!lists && targets.isEmpty) then
    Act.fail "Usage: kill [-s sigspec | -signum | -sigspec] [pid | job]... or\nkill -l [exitstatus]"
  if lists then listSignals targets
  else
    let mut status := 0
    for target in targets do
      if (← send (signal.getD 15) target) ≠ 0 then status := 1
    return status

/-- Says what signals are answered with. -/
def trap (arguments : List String) : Act Nat := do
  let (_, arguments) ← letters "" arguments
  let set (action : Option String) : List String → Act Nat := fun names => do
    for s in names do
      match Signal.number? 0 s with
      | some signal => modify fun sh =>
        { sh with traps := (action.map (signal, ·)).toList ++ sh.traps.filter (·.1 ≠ signal) }
      | none =>
        Act.tell ("trap: " ++ s ++ ": bad trap\n")
        return 1
    return 0
  match arguments with
  | [] =>
    let traps := (← get).traps
    let lines := (List.range (Signal.last + 1)).filterMap fun n => do
      let action ← traps.lookup n
      return "trap -- " ++ quoted action ++ " " ++ (← Signal.name? n) ++ "\n"
    Act.print (String.join lines).toList
  | [name] => set none [name]
  | action :: names =>
    if action.toList.all Char.isDigit && (Signal.number? 0 action).isSome then
      set none (action :: names)
    else set (if action = "-" then none else some action) names

end WeaveStep.Launch.Builtin
