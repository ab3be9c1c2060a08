import Std.Time.DateTime.Timestamp
import Workflow.Cli.Program

/-!
# `Workflow.Main` — the program

The outer layer of the command line: it answers the questions of a session from the file system and prints the
report.
-/

namespace Workflow.Cli

/-- What stands under a name in the file system. -/
def openFile (name : String) : IO File := do
  try
    return .regular (← IO.FS.readFile name) true
  catch _ =>
    return .absent

/-- Answers the questions of a session from the file system. -/
def Session.play {α : Type} : Session α → IO α
  | .done value => return value
  | .ask name next => do (next (← openFile name)).play

/-- The directory of settings. -/
def configHome? : IO (Option String) := do
  match ← IO.getEnv "XDG_CONFIG_HOME", ← IO.getEnv "HOME" with
  | some directory, _ => return some directory
  | none, some home => return some (home ++ "/.config")
  | none, none => return none

/-- The chance that the standard generator yields from a seed: each place has a generator of its own. -/
def standardChance (seed : Nat) : Chance where
  number place :=
    let key := place.foldl (fun key position => key * 1000003 + position + 1) seed
    (randNat (mkStdGen key) 0 (Nat.pow 2 128 - 1)).1
  seeded seed bound := (randNat (mkStdGen seed) 0 (bound - 1)).1

/-- What the program finds in place. -/
def surroundings : IO Surroundings := do
  let config ← IO.getEnv configVariable
  let configHome ← configHome?
  let now ← Std.Time.Timestamp.now
  let seed := (← IO.getRandomBytes 8).foldl (fun seed byte => seed * 256 + byte.toNat) 0
  return {
    environment := fun name => if name = configVariable then config else none
    configHome
    epochMillis := now.toMillisecondsSinceUnixEpoch.val.toNat
    chance := (standardChance seed).at
    moveLimit := Nat.pow 2 40 }

end Workflow.Cli

/-- Carries out a command line, prints the report, and ends with its code. -/
def main (arguments : List String) : IO UInt32 := do
  let report ← (Workflow.Cli.program (← Workflow.Cli.surroundings) arguments).play
  report.errors.forM IO.eprintln
  report.output.forM IO.println
  return UInt32.ofNat report.exitCode
