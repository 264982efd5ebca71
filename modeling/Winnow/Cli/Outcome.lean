import Winnow.Cli.Command

/-!
# Outcomes

What a run of the program comes to: what it prints, what it logs, and how it ends.
-/

namespace Winnow.Cli

/-- A message for the log. -/
structure Message where
  level : Level
  text : String
  deriving DecidableEq, Repr

/-- How a run ends. -/
inductive Ending
  | exit (code : Nat)
  /-- The command line is not run. -/
  | refused (r : Refusal)
  /-- An error that nothing handles. -/
  | escaped (e : Error)
  deriving DecidableEq, Repr

structure Outcome where
  ending : Ending
  output : String := ""
  log : List Message := []
  deriving DecidableEq, Repr

namespace Outcome

/-- A run that prints something and ends well. -/
def printed (output : String) : Outcome := { ending := .exit 0, output }

/-- A run that ends with a logged error. -/
def failed (code : Nat) (text : String) : Outcome :=
  { ending := .exit code, log := [⟨.error, text⟩] }

def escaped (e : Error) : Outcome := { ending := .escaped e }

/-- The outcome of a computation whose errors nothing handles. -/
def ofExcept : Except Error Outcome → Outcome
  | .ok o => o
  | .error e => escaped e

/-- The outcome behind a message. -/
def after (m : Message) (o : Outcome) : Outcome := { o with log := m :: o.log }

/-- Keeps the messages from a level on. -/
def restrict (threshold : Level) (o : Outcome) : Outcome :=
  { o with log := o.log.filter fun m => threshold.rank ≤ m.level.rank }

end Outcome

/-- The code that a process ends with: a line that is not run counts as misuse, an error that
nothing handles as failure. -/
def Ending.code : Ending → Nat
  | .exit code => code
  | .refused .help => 0
  | .refused .usage => 2
  | .escaped _ => 1

end Winnow.Cli
