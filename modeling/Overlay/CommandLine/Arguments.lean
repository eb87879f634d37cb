import Overlay.CommandLine.Option
import Overlay.Text.Numeral
import Overlay.Text.Quoted

/-! The arguments of the command line: one source, options anywhere, and no word besides. The first wrong
    word is a usage fault, unless help is asked for before it. -/

namespace Overlay
namespace CommandLine

/-- A value that is given to an option. An attached `--` counts as a value, but is dropped from it, so that
    nothing is left. --/
inductive Value (α : Type) where
  | given (a : α)
  | missing
deriving DecidableEq, Repr

namespace Value

/-- The value of an attached text. --/
def ofAttached (text : String) : Value String := if text == "--" then .missing else .given text

/-- What is given. --/
def toOption {α : Type} : Value α → Option α
  | .given a => some a
  | .missing => none

end Value

/-- What the command line asks for. --/
structure Arguments where
  source : String
  output : Value String
  includes : List (Value String)
  pointerSize : Option (Value Int)
  sizeAssertions : Bool
  strict : Bool
  verbose : Bool
deriving DecidableEq, Repr

/-- Why the command line asks for nothing that can be done. --/
inductive UsageFault where
  | ambiguous (word : String) (names : List String)
  | missingValue (opt : Opt)
  | ignoredText (opt : Opt) (text : String)
  | notANumber (opt : Opt) (text : String)
  | missing (titles : List String)
  | unrecognized (words : List String)
deriving DecidableEq, Repr

/-- The fault in words. --/
def UsageFault.detail : UsageFault → String
  | .ambiguous word names => s!"ambiguous option: {word} could match " ++ String.intercalate ", " names
  | .missingValue opt => s!"argument {opt.title}: expected one argument"
  | .ignoredText opt text => s!"argument {opt.title}: ignored explicit argument {Text.quote text}"
  | .notANumber opt text => s!"argument {opt.title}: invalid int value: {Text.quote text}"
  | .missing titles => "the following arguments are required: " ++ String.intercalate ", " titles
  | .unrecognized words => "unrecognized arguments: " ++ String.intercalate " " words

/-- Why no compilation follows from the command line. --/
inductive Stop where
  | help
  | usage (fault : UsageFault)
deriving DecidableEq, Repr

/-! ### What has been given -/

/-- What the words so far have given; `extras` are the words that mean nothing. --/
structure Given where
  source : Option String
  output : Option (Value String)
  includes : List (Value String)
  pointerSize : Option (Value Int)
  sizeAssertions : Bool
  strict : Bool
  verbose : Bool
  extras : List String
deriving DecidableEq, Repr

namespace Given

/-- Before the first word. --/
def nothing : Given := ⟨none, none, [], none, true, true, false, []⟩

/-- Adds words that mean nothing. --/
def ignore (g : Given) (words : List String) : Given := { g with extras := g.extras ++ words }

/-- Applies an option without a value. Help ends the reading. --/
def switch (g : Given) (opt : Opt) : Except Stop Given :=
  match opt with
  | .help => .error .help
  | .noSizeAssert => .ok { g with sizeAssertions := false }
  | .lenient => .ok { g with strict := false }
  | .verbose => .ok { g with verbose := true }
  | .output | .includeFile | .pointerSize => .ok g

/-- Applies options without a value in order. --/
def switchAll (g : Given) : List Opt → Except Stop Given
  | [] => .ok g
  | opt :: opts =>
    match g.switch opt with
    | .ok next => next.switchAll opts
    | .error stop => .error stop

/-- The pointer size that a value gives. --/
def pointerSizeOf : Value String → Except Stop (Value Int)
  | .missing => .ok .missing
  | .given text =>
    match Numeral.decimal text with
    | .ok size => .ok (.given size)
    | .error _ => .error (.usage (.notANumber .pointerSize text))

/-- Applies an option with a value. --/
def assign (g : Given) (opt : Opt) (value : Value String) : Except Stop Given :=
  match opt with
  | .output => .ok { g with output := some value }
  | .includeFile => .ok { g with includes := g.includes ++ [value] }
  | .pointerSize => (pointerSizeOf value).map fun size => { g with pointerSize := some size }
  | .help | .noSizeAssert | .lenient | .verbose => .ok g

end Given

/-! ### Options in one word -/

/-- What a word gives: options without a value, and then perhaps one with a value, which may be attached. --/
structure Cluster where
  flags : List Opt
  final : Option (Opt × Option (Value String))
deriving DecidableEq, Repr

/-- Adds an option without a value at the front. --/
def Cluster.after (c : Cluster) (opt : Opt) : Cluster := { c with flags := opt :: c.flags }

/-- An option that nothing is attached to. --/
def Cluster.single (opt : Opt) : Cluster := if opt.takesValue then ⟨[], some (opt, none)⟩ else ⟨[opt], none⟩

/-- The options that begin with `opt`, which a text is attached to. The text is the value, or else, behind a
    short name, a list of short names. --/
def expand (opt : Opt) (isLong : Bool) : List Char → Except UsageFault Cluster
  | [] => if opt.takesValue then .ok ⟨[], some (opt, some (.given ""))⟩ else .error (.ignoredText opt "")
  | c :: rest =>
    let text := String.ofList (c :: rest)
    if opt.takesValue then .ok ⟨[], some (opt, some (.ofAttached text))⟩
    else if isLong then .error (.ignoredText opt text)
    else match optionOf? ['-', c], rest with
      | none, _ => .error (.ignoredText opt text)
      | some next, [] => .ok ((Cluster.single next).after opt)
      | some next, c' :: more => (expand next false (c' :: more)).map (·.after opt)

/-- The options of a word. --/
def OptionWord.cluster (w : OptionWord) : Except UsageFault Cluster :=
  match w.attached with
  | none => .ok (.single w.opt)
  | some text => expand w.opt w.isLong text

/-! ### All words -/

/-- The words with what they are. --/
def classifyAll : List String → Except Stop (List (String × Word))
  | [] => .ok []
  | word :: words =>
    if word == "--" then .ok ((word, .separator) :: words.map (·, .value))
    else match classify word.toList with
      | .error names => .error (.usage (.ambiguous word names))
      | .ok kind => (classifyAll words).map ((word, kind) :: ·)

/-- Applies the options of a word; a value that is not attached is taken from the words after it. --/
def applyWord (g : Given) (w : OptionWord) (words : List (String × Word)) :
    Except Stop (Given × List (String × Word)) :=
  match w.cluster with
  | .error fault => .error (.usage fault)
  | .ok cluster =>
    match cluster.final, words with
    | none, _ => (g.switchAll cluster.flags).map (·, words)
    | some (opt, some value), _ => do return (← (← g.switchAll cluster.flags).assign opt value, words)
    | some (opt, none), (value, .value) :: rest => do
      return (← (← g.switchAll cluster.flags).assign opt (.given value), rest)
    | some (opt, none), _ => .error (.usage (.missingValue opt))

/-- Whether a word may be or surround the source. --/
def isPlain : Word → Bool
  | .value | .separator => true
  | _ => false

/-- Takes the source from the front: a value, with a separator before or after it. --/
def takeSource : List (String × Word) → Option (String × List (String × Word))
  | (_, .separator) :: (value, .value) :: rest => some (value, rest)
  | (value, .value) :: (_, .separator) :: rest => some (value, rest)
  | (value, .value) :: rest => some (value, rest)
  | _ => none

/-- Reads the words one after the other. `fuel` bounds the number of steps, each of which takes a word. --/
def readWords : Nat → Given → List (String × Word) → Except Stop Given
  | 0, g, _ => .ok g
  | _, g, [] => .ok g
  | fuel + 1, g, (word, kind) :: rest =>
    let words := (word, kind) :: rest
    match kind with
    | .unknown => readWords fuel (g.ignore [word]) rest
    | .option w =>
      match applyWord g w rest with
      | .ok (next, left) => readWords fuel next left
      | .error stop => .error stop
    | .value | .separator =>
      match g.source, takeSource words with
      | none, some (source, left) => readWords fuel { g with source := some source } left
      | _, _ =>
        let plain := words.takeWhile (isPlain ·.2)
        readWords fuel (g.ignore (plain.map (·.1))) (words.dropWhile (isPlain ·.2))

/-- The arguments, if nothing is missing and every word means something. --/
def Given.arguments (g : Given) : Except Stop Arguments :=
  match g.source, g.output with
  | some source, some output =>
    if g.extras.isEmpty then
      .ok ⟨source, output, g.includes, g.pointerSize, g.sizeAssertions, g.strict, g.verbose⟩
    else .error (.usage (.unrecognized g.extras))
  | source, output =>
    .error (.usage (.missing ((if source.isNone then ["source"] else []) ++ (if output.isNone then ["-o"] else []))))

/-- Reads the command line. --/
def readArguments (words : List String) : Except Stop Arguments := do
  let classified ← classifyAll words
  (← readWords classified.length .nothing classified).arguments

end CommandLine
end Overlay
