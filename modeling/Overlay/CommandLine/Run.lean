import Overlay.CommandLine.Arguments
import Overlay.Compile.Compilation

/-! A run of the program: from the words of the command line to what is printed. -/

namespace Overlay
namespace CommandLine

/-! ### Fixed texts -/

/-- How the program is used, in short. --/
def usageText : String :=
  "usage: relc [-h] -o OUTPUT [--include INCLUDES] [--pointer-size POINTER_SIZE]\n" ++
  "            [--no-size-assert] [--lenient] [-v]\n" ++
  "            source\n"

/-- How the program is used. --/
def helpText : String :=
  usageText ++
  "\nRELang compiler\n" ++
  "\npositional arguments:\n" ++
  "  source                Input .rel declaration file\n" ++
  "\noptions:\n" ++
  "  -h, --help            show this help message and exit\n" ++
  "  -o OUTPUT             Output C++ header\n" ++
  "  --include INCLUDES    Emit an #include for PATH (repeatable; use <PATH> for\n" ++
  "                        system headers)\n" ++
  "  --pointer-size POINTER_SIZE\n" ++
  "                        Pointer size in bytes of the target binary (default:\n" ++
  "                        $RELC_POINTER_SIZE or 4)\n" ++
  "  --no-size-assert      Do not emit class size assertions\n" ++
  "  --lenient             Warn instead of failing on misplaced modifiers/return\n" ++
  "                        types/calling conventions\n" ++
  "  -v, --verbose         Debug logging\n"

/-- The environment variable with the pointer size to use unless the command line gives another. --/
def pointerSizeVariable : String := "RELC_POINTER_SIZE"

/-! ### Runs -/

/-- How a run ends. --/
inductive Ending where
  | exit (code : Nat)
  | aborted (abort : Abort)
deriving DecidableEq, Repr

/-- How a run ends and what it prints before. --/
structure Execution where
  ending : Ending
  output : String
  errors : String
deriving DecidableEq, Repr

/-- Lines as a text. --/
def unlines (lines : List String) : String := String.join (lines.map (· ++ "\n"))

/-- The name of the output in messages. --/
def outputName : Value String → String
  | .given path => path
  | .missing => "[]"

/-- What is printed for a compilation; `log` are the notices that are shown. --/
def Execution.ofOutcome (output : Value String) (outcome : Except Abort Outcome) (log : List Notice) :
    Execution :=
  let errors := unlines (log.map Notice.line)
  match outcome with
  | .ok (.success _ _ warnings) =>
    ⟨.exit 0, unlines (warnings.map ("Warning: " ++ ·) ++ [s!"Done: {outputName output}"]), errors⟩
  | .ok (.failure messages warnings) =>
    ⟨.exit 1, unlines (warnings.map ("Warning: " ++ ·) ++ messages.map ("Error: " ++ ·)), errors⟩
  | .error abort => ⟨.aborted abort, "", errors⟩

/-- What is printed when no compilation follows from the command line. --/
def Execution.ofStop : Stop → Execution
  | .help => ⟨.exit 0, helpText, ""⟩
  | .usage fault => ⟨.exit 2, "", s!"{usageText}relc: error: {fault.detail}\n"⟩

/-- The include that a value asks for. --/
def includeOf : Value String → Include
  | .given text => .path text
  | .missing => .missing

/-- The settings that arguments ask for. --/
def Arguments.settings (a : Arguments) (environment : Option String) : Except SetupFault Settings :=
  Settings.new a.strict ⟨a.sizeAssertions, a.includes.map includeOf⟩ (a.pointerSize.bind Value.toOption) environment

/-- Compiles what arguments ask for. --/
def Arguments.execute {m : Type → Type} [Monad m] (a : Arguments) (files : Files m)
    (environment : Option String) : m Execution := do
  if a.pointerSize = some .missing then return ⟨.aborted .missingPointerSize, "", ""⟩
  match a.settings environment with
  | .error fault => return ⟨.exit 1, s!"Error: {fault.message}\n", ""⟩
  | .ok settings =>
    let compilation ← settings.compilePath files a.source a.output.toOption
    return .ofOutcome a.output compilation.outcome (Notice.shown a.verbose compilation.notices)

/-- Runs the program. `environment` is the pointer size that the environment asks for. --/
def run {m : Type → Type} [Monad m] (files : Files m) (environment : Option String) (words : List String) :
    m Execution :=
  match readArguments words with
  | .error stop => return .ofStop stop
  | .ok arguments => arguments.execute files environment

end CommandLine
end Overlay
