import Overlay.Text.Quoted

/-! Access to files. A program that reads and writes files does so through a record of the two operations,
    and so works on the files of a machine as well as on a file system that is a value. -/

namespace Overlay

/-- Why a file cannot be opened. --/
inductive FileFault where
  | notFound
  | notADirectory
  | isDirectory
  | other (description : String)
deriving DecidableEq, Repr

/-- The message for a path that cannot be opened. --/
def FileFault.message (fault : FileFault) (path : String) : String :=
  let description := match fault with
    | .notFound => "[Errno 2] No such file or directory"
    | .notADirectory => "[Errno 20] Not a directory"
    | .isDirectory => "[Errno 21] Is a directory"
    | .other description => description
  s!"{description}: {Text.quote path}"

/-- Reading and writing whole files by their paths. --/
structure Files (m : Type → Type) where
  read : String → m (Except FileFault ByteArray)
  write : String → ByteArray → m (Except FileFault Unit)

end Overlay
