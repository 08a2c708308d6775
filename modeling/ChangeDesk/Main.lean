import ChangeDesk.Command.Line
import ChangeDesk.Command.Run
import ChangeDesk.Text.Utf8

/-!
# The program

Reads the command line and the files it names, carries the command out and prints what comes of
it. Requests are not sent from here: to this program every server is unreachable.
-/

namespace ChangeDesk.Program

/-- The text of a file. -/
def readText (path : String) : IO (Except FileFault String) := do
  try
    let bytes ← IO.FS.readBinFile path
    match Text.decodeStrict? bytes.toList with
    | some text => return .ok text
    | none => return .error .notText
  catch
    | .noFileOrDirectory .. => return .error .missing
    | .inappropriateType .. => return .error .isDirectory
    | fault => return .error (.other (toString fault))

/-- The directory of the stored profiles. -/
def profileDirectory : IO String := do
  return (← IO.getEnv "HOME").getD "." ++ "/.revmeta"

/-- The file of the stored profiles. -/
def profilePath : IO String := do
  return (← profileDirectory) ++ "/profiles.toml"

/-- What a command finds. -/
def look (command : Command) : IO Surroundings := do
  let profiles ← readText (← profilePath)
  let files ← command.paths.mapM fun path => do
    return (path, ← readText path)
  return {
    profiles := match profiles with
      | .ok text => .ok (some text)
      | .error .missing => .ok none
      | .error fault => .error fault
    file := fun path => (files.lookup path).getD (.error .missing) }

/-- The outcome where no server can be reached. -/
def offline {α : Type} (w : Http.Wire α) : α :=
  Id.run (w.interpret fun _ => pure (.error .unreachable))

/-- Stores the profiles, prints and reports. -/
def finish (ending : Ending) : IO UInt32 := do
  if let some text := ending.stored then
    IO.FS.createDirAll (← profileDirectory)
    IO.FS.writeFile (← profilePath) text
  IO.print ending.output
  IO.eprint ending.report
  return ending.code

end ChangeDesk.Program

open ChangeDesk in
def main (words : List String) : IO UInt32 := do
  match Command.ofWords words with
  | .error fault => Program.finish (.misused fault.message)
  | .ok command =>
    Program.finish (.ofResult (Program.offline (command.run (← Program.look command))))
