import Overlay.CommandLine.Run

/-! The program: it runs on the files and the environment of the machine. -/

namespace Overlay

/-- Why the machine cannot open a file. --/
def FileFault.ofError : IO.Error → FileFault
  | .noFileOrDirectory .. => .notFound
  | .inappropriateType _ 21 _ => .isDirectory
  | .inappropriateType .. => .notADirectory
  | error => .other (toString error)

/-- The result of an access to the machine's files. --/
def FileFault.ofAccess {α : Type} (access : IO α) : IO (Except FileFault α) := do
  match ← access.toBaseIO with
  | .ok a => return .ok a
  | .error e => return .error (.ofError e)

/-- The machine's files. --/
def machineFiles : Files IO where
  read path := FileFault.ofAccess (IO.FS.readBinFile path)
  write path content := FileFault.ofAccess (IO.FS.writeBinFile path content)

end Overlay

open Overlay in
def main (words : List String) : IO UInt32 := do
  let environment ← IO.getEnv CommandLine.pointerSizeVariable
  let execution ← CommandLine.run machineFiles environment words
  IO.print execution.output
  IO.eprint execution.errors
  match execution.ending with
  | .exit code => return code.toUInt32
  | .aborted abort =>
    IO.eprintln abort.message
    return 1
