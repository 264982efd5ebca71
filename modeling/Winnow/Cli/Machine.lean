import Winnow.Cli.Run

/-!
# Machines

What a command comes to is a function of its line and of the files. A process needs more than that:
a stack for nested calls, room for values and threads, and an output that takes what is printed. A
machine may be short of any of these, and the resulting error is handled by few commands.
-/

namespace Winnow.Cli

/-- What a machine can run short of. -/
inductive Shortage
  /-- Calls are nested too deeply. -/
  | stack
  /-- There is no room for a value or for a further thread. -/
  | room
  deriving DecidableEq, Repr

/-- Why a text cannot be printed. -/
inductive PrintFault
  /-- The output has no code for one of the characters. -/
  | notEncodable
  /-- The output is closed or full. -/
  | notWritable
  deriving DecidableEq, Repr

/-- How a process ends. -/
inductive Fate
  | ended (ending : Ending)
  /-- The machine gives out, which nothing handles. -/
  | gaveOut (s : Shortage)
  /-- The output cannot be printed, and nothing handles that. -/
  | unprinted (f : PrintFault)
  deriving DecidableEq, Repr

structure Machine where
  /-- What a command runs short of. -/
  shortage : Files.Disk → Command → Option Shortage
  /-- Why a text cannot be printed. -/
  printFault : String → Option PrintFault
  printFault_empty : printFault "" = none

namespace Command

/-- The code that a command gives if its output cannot be printed. Two commands print where they
handle errors: to one a character without a code is a wrong value, to the other an output that
cannot be written is a file that cannot be read. -/
def codeOnPrintFault : Command → PrintFault → Option Nat
  | .build .., .notEncodable => some 2
  | .query c, .notWritable => if c.mode = .first ∨ c.mode = .only then some 1 else none
  | _, _ => none

end Command

namespace Machine

/-- A machine that is short of nothing. -/
def ideal : Machine := ⟨fun _ _ => none, fun _ => none, rfl⟩

/-- How a process ends once its output is to be printed. -/
def print (m : Machine) (c : Command) (o : Outcome) : Fate :=
  match m.printFault o.output with
  | none => .ended o.ending
  | some f => match c.codeOnPrintFault f with
    | some code => .ended (.exit code)
    | none => .unprinted f

/-- How a process with a command line ends. -/
def run (m : Machine) (disk : Files.Disk) (line : List String) : Fate :=
  match Invocation.read line with
  | .error r => .ended (.refused r)
  | .ok i => match m.shortage disk i.command with
    | some s => .gaveOut s
    | none => m.print i.command (Cli.run disk line)

end Machine

end Winnow.Cli
