import CandyDrop.Command.Line
import CandyDrop.Command.LogLevel
import CandyDrop.Command.Report

/-!
# The program

Reads the command line, opens the log, runs the command and says how it ended. The exit status is
zero after a success, one after a failure and two if the command line was not understood.
-/

namespace CandyDrop.Program

/-- The folder of the records of drops, in the folder where the program runs. -/
def cacheFolder : String := "./.cache"

/-- The file that the log is written to. -/
def logFile : String := "candy-cli.log"

/-- Writes a line to the log. -/
def log (line : String) : Script Unit := do
  match ← Script.request (.append logFile (line ++ "\n")) with
  | none => return ()
  | some reason => .fail (.unwritable reason)

/-- Opens the log; what is written to it must be chosen by a level alone. A text that is no filter
is refused before the file is made. -/
def openLog (level : Option String) : Script Unit := do
  let restricted ← Script.ofExcept .logLevel (LogFilter.isRestricted (level.getD ""))
  log "candy-cli started"
  if restricted then .fail (.logLevel .notALevel) else return ()

/-- Opens the log and runs the command. -/
def perform (here : Surroundings) (invocation : Invocation) : Script Unit := do
  openLog invocation.logLevel
  invocation.command.run here

/-- Says what a command line asks for or what is wrong with it. -/
def answerFault (fault : LineFault) : Script Nat := do
  match fault with
  | .help | .version =>
    Script.say fault.message
    return 0
  | _ =>
    Script.complain fault.message
    return 2

/-- Runs a command and says how it ended. -/
def execute (here : Surroundings) (invocation : Invocation) : Script Nat := do
  match ← (perform here invocation).attempt with
  | .ok () =>
    Script.say "\n✅ Command successful."
    return 0
  | .error failure =>
    Script.say ("\n🛑 Error running command (re-run needed): " ++ Report.ofMessage failure.message)
    return 1

/-- Runs the program for the words of a command line, and gives its exit status. -/
def run (here : Surroundings) (words : List String) : Script Nat :=
  match Invocation.ofWords words with
  | .ok invocation => execute here invocation
  | .error fault => answerFault fault

end CandyDrop.Program
