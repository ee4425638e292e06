import WeaveStep.CommandLine.Execute
import WeaveStep.Proofs.World

/-!
# Telling the user

What is told to the user is printed, which cannot fail, and the exit code of a failed command is that
of its ending (`says_tell`).
-/

namespace WeaveStep

open World

section

variable {ε : Type}

theorem says_error (title message : String) : Says (Notice.error title message : Run ε Unit) () :=
  (says_print _).bind <| (says_print _).bind <| (says_print _).bind <| (says_print _).bind <|
    says_print _

theorem says_success (message : String) : Says (Notice.success message : Run ε Unit) () :=
  (says_print _).bind (says_print _)

theorem says_warning (message : String) : Says (Notice.warning message : Run ε Unit) () :=
  (says_print _).bind (says_print _)

/-- The exit code of an ending. -/
def CommandFailure.Ending.code : CommandFailure.Ending → Nat
  | .interrupted => 130
  | _ => 1

/-- A failed command exits with the code of its ending. -/
theorem says_tell (verbose : Bool) (e : CommandFailure) :
    Says (e.tell verbose : Run ε Nat) e.ending.code := by
  unfold CommandFailure.tell
  cases e.ending with
  | aborted => exact (says_error _ _).bind (says_pure 1)
  | reported => exact (says_error _ _).bind (says_pure 1)
  | missing => exact (says_error _ _).bind (says_pure 1)
  | interrupted => exact (says_warning _).bind (says_pure 130)
  | unexpected =>
    cases verbose with
    | false => exact (says_error _ _).bind (says_pure 1)
    | true => exact (says_error _ _).bind ((says_print _).bind ((says_print _).bind (says_pure 1)))

end

end WeaveStep
