import TagWire.Command.Outcome

/-!
# The program

The command line on the files and settings of the system.
-/

namespace TagWire

/-- The fault of a failed access to a file. -/
def FileFault.ofSystem : IO.Error → FileFault
  | .noFileOrDirectory _ _ _ | .noSuchThing _ _ _ => .notFound
  | .inappropriateType _ code _ =>
    if code == 21 then .isDirectory else .other "Not a directory (os error 20)"
  | e => .other e.toString

/-- Does something with a file. -/
def tryFile {α : Type} (act : IO α) : IO (Except FileFault α) := do
  try return .ok (← act) catch e => return .error (.ofSystem e)

/-- The files of the system. -/
def systemFiles : Files IO where
  read path := tryFile do return (← IO.FS.readBinFile path).toList
  write path bytes := tryFile (IO.FS.writeBinFile path ⟨bytes.toArray⟩)

end TagWire

/-- Runs the command that the arguments ask for. -/
def main (args : List String) : IO UInt32 := do
  let depth ← IO.getEnv TagWire.Limits.depthSetting
  let length ← IO.getEnv TagWire.Limits.lengthSetting
  let setting := fun name =>
    if name == TagWire.Limits.depthSetting then depth
    else if name == TagWire.Limits.lengthSetting then length
    else none
  let outcome ← TagWire.Command.run TagWire.systemFiles setting args
  (← IO.getStdout).write ⟨outcome.output.toArray⟩
  IO.eprint outcome.report
  return outcome.code.toUInt32
