/-! # Switches

What can be switched on and off in a shell; each switch has a name, and most have a letter.

* `Switch.listing`: the switches with how they stand.
* `SwitchCall`: what the letters of arguments ask for; `SwitchCall.read` reads those of one. -/

namespace WeaveStep.Launch

/-- What can be switched on and off. -/
inductive Switch
  | errexit
  | noglob
  | ignoreeof
  | interactive
  | monitor
  | noexec
  | stdin
  | xtrace
  | verbose
  | vi
  | emacs
  | noclobber
  | allexport
  | notify
  | nounset
  | privileged
  | nolog
  | debug
  deriving DecidableEq, Repr

namespace Switch

/-- The switches, each with its name and its letter, if it has one. -/
def table : List (Switch × String × Option Char) := [
  (errexit, "errexit", some 'e'), (noglob, "noglob", some 'f'), (ignoreeof, "ignoreeof", some 'I'),
  (interactive, "interactive", some 'i'), (monitor, "monitor", some 'm'), (noexec, "noexec", some 'n'),
  (stdin, "stdin", some 's'), (xtrace, "xtrace", some 'x'), (verbose, "verbose", some 'v'),
  (vi, "vi", some 'V'), (emacs, "emacs", some 'E'), (noclobber, "noclobber", some 'C'),
  (allexport, "allexport", some 'a'), (notify, "notify", some 'b'), (nounset, "nounset", some 'u'),
  (privileged, "privileged", some 'p'), (nolog, "nolog", none), (debug, "debug", none)]

/-- The switch of a name. -/
def ofName? (name : String) : Option Switch := (table.find? (·.2.1 = name)).map (·.1)

/-- The switch of a letter. -/
def ofLetter? (c : Char) : Option Switch := (table.find? (·.2.2 = some c)).map (·.1)

/-- The letters of the switches that are on. -/
def letters (on : List Switch) : List Char :=
  table.reverse.filterMap fun (switch, _, letter) => if on.contains switch then letter else none

/-- A switch turned on or off. -/
def turned (on : List Switch) (switch : Switch) (value : Bool) : List Switch :=
  on.filter (· ≠ switch) ++ if value then [switch] else []

/-- How wide the names of switches are set. -/
def nameWidth : Nat := 16

/-- The switches with how they stand, to be read or as commands that set them so. -/
def listing (on : List Switch) (asCommands : Bool) : String :=
  let line (entry : Switch × String × Option Char) : String :=
    let isOn := on.contains entry.1
    let name := entry.2.1
    if asCommands then (if isOn then "set -o " else "set +o ") ++ name ++ "\n"
    else
      let gap := String.ofList (List.replicate (nameWidth - name.length) ' ')
      name ++ gap ++ (if isOn then "on\n" else "off\n")
  (if asCommands then "" else "Current option settings\n") ++ String.join (table.map line)

end Switch

/-- What letters ask for. -/
structure SwitchCall where
  switches : List Switch := []
  /-- What was switched off. -/
  off : List Switch := []
  /-- Whether the script is the next argument itself. -/
  isText : Bool := false
  /-- What is to be printed. -/
  listings : String := ""

/-- The call with a switch turned on or off. -/
def SwitchCall.turn (call : SwitchCall) (switch : Switch) (value : Bool) : SwitchCall :=
  { call with
    switches := Switch.turned call.switches switch value
    off := Switch.turned call.off switch (!value) }

/-- The switches that are on as a shell starts: jobs are under control where it is interactive, unless
that is switched off. -/
def SwitchCall.onAtStart (call : SwitchCall) : List Switch :=
  if call.switches.contains .interactive && !call.off.contains .monitor then
    Switch.turned call.switches .monitor true
  else call.switches

/-- The switches with how they stand. As long as a shell starts, all count as on that were not switched
off. -/
def SwitchCall.listing (call : SwitchCall) (isStart asCommands : Bool) : String :=
  let on := if isStart then (Switch.table.map (·.1)).filter (!call.off.contains ·) else call.switches
  Switch.listing on asCommands

/-- Reads the letters of one argument, which switch on or off; gives the arguments left as well, or what
is wrong then. Some letters mean something only where the shell is called. -/
def SwitchCall.read (call : SwitchCall) (value isStart : Bool) (arguments : List String) :
    List Char → Except (SwitchCall × String) (SwitchCall × List String)
  | [] => .ok (call, arguments)
  | c :: rest =>
    if isStart && c = 'c' then { call with isText := true }.read value isStart arguments rest
    else if isStart && c = 'l' then call.read value isStart arguments rest
    else if c = 'o' then
      match arguments with
      | [] =>
        let listings := call.listings ++ call.listing isStart (!value)
        { call with listings }.read value isStart [] rest
      | name :: arguments =>
        match Switch.ofName? name with
        | some switch => (call.turn switch value).read value isStart arguments rest
        | none => .error (call, "Illegal option " ++ (if value then "-o " else "+o ") ++ name)
    else
      match Switch.ofLetter? c with
      | some switch => (call.turn switch value).read value isStart arguments rest
      | none => .error (call, "Illegal option -" ++ String.singleton c)

end WeaveStep.Launch
