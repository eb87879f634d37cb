import Overlay.Compile.Stages
import Overlay.Files.Access
import Overlay.Text.Newline

/-! Compilation from a source, a file or a stream of events to a header. Each stage takes what the one before
    it gives, the first failure ends it all, and a file is written only when there is a header. -/

namespace Overlay

/-! ### From declarations to a header -/

/-- The header of a compilation, or how it failed; its warnings and all that was said about it. --/
structure Draft where
  code : Except Failure String
  warnings : List String
  notices : List Notice

namespace Settings

/-- The header of a program that is built. --/
def draftProgram (s : Settings) (p : Program) : Except Failure String × List Notice :=
  let laidOut := s.layoutOf p
  match laidOut.program with
  | .error fault => (.error (.ofLayout fault), laidOut.notices)
  | .ok resolved =>
    let written := s.headerOf resolved (some laidOut.sizes)
    match written.code with
    | .error fault => (.error (.ofRendering fault), laidOut.notices ++ written.notices)
    | .ok code => (.ok code, laidOut.notices ++ written.notices)

/-- The header of the declarations of a stream of events. --/
def draftEvents (s : Settings) (events : Trail TreeFault Event) : Draft :=
  let built := build s.strict events
  match built.program with
  | .error fault => ⟨.error (.ofBuilding fault), built.warnings, built.notices⟩
  | .ok program =>
    let (code, notices) := s.draftProgram program
    ⟨code, built.warnings, built.notices ++ notices⟩

/-- The header of the declarations of a source. --/
def draft (s : Settings) (source : String) : Draft :=
  let lexed := lex source
  if lexed.faults.isEmpty then
    match parse lexed.tokens with
    | .ok file => s.draftEvents (file.events none)
    | .error fault => ⟨.error (.ofParsing fault), [], []⟩
  else ⟨.error (.ofLexing lexed.faults), [], []⟩

end Settings

/-! ### Results -/

/-- The result of a compilation: a header and the file that it is written to, or errors. --/
inductive Outcome where
  | success (code : String) (outputFile : Option String) (warnings : List String)
  | failure (errors warnings : List String)
deriving DecidableEq, Repr

/-- The result of a compilation, unless it is aborted, and all that was said about it. --/
structure Compilation where
  outcome : Except Abort Outcome
  notices : List Notice

/-- A compilation that fails. --/
def Compilation.failed (failure : Failure) (warnings : List String) (notices : List Notice) : Compilation :=
  match failure with
  | .errors messages => ⟨.ok (.failure messages warnings), notices⟩
  | .aborted abort => ⟨.error abort, notices⟩

/-- The failure of an access to the file at `path`; `what` names the access. --/
def Failure.ofAccess (what path : String) (fault : FileFault) : Failure :=
  .errors [s!"Failed to {what}: {fault.message path}"]

/-- Whether no file can have a path, because it holds a null character. --/
def holdsNull (path : String) : Bool := path.toList.contains '\x00'

namespace Settings
variable {m : Type → Type} [Monad m]

/-- Ends a compilation: writes the header if there is one and `output` names a file. A header is a list of Unicode scalar
    values, so it can always be encoded, and a write fails only where the file cannot be opened. --/
def deliver (files : Files m) (output : Option String) (d : Draft) : m Compilation := do
  match d.code with
  | .error failure => return .failed failure d.warnings d.notices
  | .ok code =>
    let success := Outcome.success code output d.warnings
    match output.filter (!·.isEmpty) with
    | none => return ⟨.ok success, d.notices⟩
    | some path =>
      if holdsNull path then return .failed (.aborted .nullInPath) d.warnings d.notices
      match ← files.write path code.toUTF8 with
      | .ok () => return ⟨.ok success, d.notices ++ [.wrote path]⟩
      | .error fault => return .failed (.ofAccess "write output file" path fault) d.warnings d.notices

/-- Compiles a stream of events. --/
def compileStream (s : Settings) (files : Files m) (events : Trail TreeFault Event) (output : Option String) :
    m Compilation :=
  deliver files output (s.draftEvents events)

/-- Compiles a source. --/
def compileText (s : Settings) (files : Files m) (source : String) (output : Option String) :
    m Compilation :=
  deliver files output (s.draft source)

/-- Compiles the source in a file. --/
def compilePath (s : Settings) (files : Files m) (path : String) (output : Option String) : m Compilation := do
  if holdsNull path then return .failed (.aborted .nullInPath) [] []
  match ← files.read path with
  | .error fault => return .failed (.ofAccess "read source file" path fault) [] []
  | .ok content =>
    match Utf8.decode content.toList with
    | .error fault => return .failed (.aborted (.undecodable fault)) [] []
    | .ok characters => s.compileText files (String.ofList (Text.unifyNewlines characters)) output

end Settings
end Overlay
