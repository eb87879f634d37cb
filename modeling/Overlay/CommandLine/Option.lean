import Overlay.Text.Numeric

/-! The options of the command line. An option is given by one of its names, by an abbreviation of a long
    name that fits no other, or in a cluster of short names; its value follows in the next word, after an
    equals sign, or right after a short name. The first equals sign of a word only parts a name from what
    is attached to it if a name of an option stands before it. -/

namespace Overlay
namespace CommandLine

/-- An option. --/
inductive Opt where
  | help
  | output
  | includeFile
  | pointerSize
  | noSizeAssert
  | lenient
  | verbose
deriving DecidableEq, Repr

/-- The names of the options, in the order in which they are tried. --/
def optionNames : List (String × Opt) :=
  [("-h", .help), ("--help", .help), ("-o", .output), ("--include", .includeFile),
   ("--pointer-size", .pointerSize), ("--no-size-assert", .noSizeAssert), ("--lenient", .lenient),
   ("-v", .verbose), ("--verbose", .verbose)]

namespace Opt

/-- Whether an option has a value. --/
def takesValue : Opt → Bool
  | .output | .includeFile | .pointerSize => true
  | _ => false

/-- The names of an option, as messages give them. --/
def title (opt : Opt) : String :=
  String.intercalate "/" ((optionNames.filter (·.2 == opt)).map (·.1))

end Opt

/-- A word that gives an option: the option, the name that it is given by, and the text attached to it. --/
structure OptionWord where
  opt : Opt
  name : List Char
  attached : Option (List Char)
deriving DecidableEq, Repr

/-- Whether an option is given by a long name. --/
def OptionWord.isLong (w : OptionWord) : Bool := ['-', '-'].isPrefixOf w.name

/-- What a word of the command line is. The words after the first `--` are all values. --/
inductive Word where
  | value
  | separator
  | option (word : OptionWord)
  | unknown
deriving DecidableEq, Repr

/-- Splits a word at its first equals sign. --/
def splitEquals (word : List Char) : List Char × Option (List Char) :=
  match word.dropWhile (· != '=') with
  | [] => (word, none)
  | _ :: text => (word.takeWhile (· != '='), some text)

/-- Whether a word is a number below zero. --/
def isNegativeNumber (word : List Char) : Bool :=
  let isDecimal (c : Char) : Bool := (Text.decimalValue? c).isSome
  let isNumber (cs : List Char) : Bool := !cs.isEmpty && cs.all isDecimal
  match word with
  | '-' :: rest =>
    let body := if rest.getLast? == some '\n' then rest.dropLast else rest
    isNumber body || match body.dropWhile isDecimal with
      | '.' :: fraction => isNumber fraction
      | _ => false
  | _ => false

/-- The options that a word may abbreviate or begin a cluster with. --/
def candidates (word : List Char) : List OptionWord :=
  match word with
  | '-' :: '-' :: _ =>
    let (start, text) := splitEquals word
    (optionNames.filter fun entry => start.isPrefixOf entry.1.toList).map fun (name, opt) =>
      ⟨opt, name.toList, text⟩
  | _ =>
    (optionNames.filter fun entry => entry.1.toList == word.take 2).map fun (name, opt) =>
      ⟨opt, name.toList, some (word.drop 2)⟩

/-- The option of a name. --/
def optionOf? (name : List Char) : Option Opt := optionNames.lookup (String.ofList name)

/-- What a word before the first `--` is; or the names of several options that it may mean. --/
def classify (word : List Char) : Except (List String) Word :=
  match word with
  | [] | ['-'] => .ok .value
  | '-' :: _ =>
    match optionOf? word with
    | some opt => .ok (.option ⟨opt, word, none⟩)
    | none =>
      match splitEquals word with
      | (name, some text) =>
        match optionOf? name with
        | some opt => .ok (.option ⟨opt, name, some text⟩)
        | none => guess
      | (_, none) => guess
  | _ => .ok .value
where
  guess : Except (List String) Word :=
    match candidates word with
    | [] => .ok (if isNegativeNumber word || word.contains ' ' then .value else .unknown)
    | [found] => .ok (.option found)
    | several => .error (several.map fun found => String.ofList found.name)

end CommandLine
end Overlay
