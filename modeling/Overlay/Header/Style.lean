import Overlay.Layout.Target
import Overlay.Text.Numeral

/-! How a header is written: indentation, the fixed lines, and the words for an instance; and what it
    contains besides the declarations. -/

namespace Overlay

/-- The spelling of a header, with the most digits of a number of elements if there is a limit, and the
    target that it is for. --/
structure Style where
  indent : String
  banner : String
  includeGuard : String
  packOpening : List String
  packClosing : List String
  sizeMessage : String
  instanceType : String
  instanceName : String
  digitLimit : Option Nat
  target : Target
deriving DecidableEq, Repr

namespace Style

/-- The spelling that is used unless another is given. --/
def ofTarget (target : Target) : Style where
  indent := "    "
  banner := "// DO NOT EDIT. THIS FILE WAS GENERATED BY THE RELANG COMPILER"
  includeGuard := "#pragma once"
  packOpening := ["#pragma pack(push)", "#pragma pack(1)"]
  packClosing := ["#pragma pack(pop)"]
  sizeMessage := "Unexpected class size"
  instanceType := "decltype(this)"
  instanceName := "this"
  digitLimit := some Numeral.digitLimit
  target := target

/-- A text behind `depth` indents; an empty one stays empty. --/
def indented (s : Style) (depth : Nat) (text : String) : String :=
  if text.isEmpty then "" else String.join (List.replicate depth s.indent) ++ text

theorem indented_of_ne (s : Style) (depth : Nat) {text : String} (h : text ≠ "") :
    s.indented depth text = String.join (List.replicate depth s.indent) ++ text := if_neg (by simpa using h)

end Style

/-- Another header to include; no header can be written with one whose path is missing. --/
inductive Include where
  | path (text : String)
  | missing
deriving DecidableEq, Repr

/-- What a header contains besides the declarations. --/
structure HeaderOptions where
  sizeAssertions : Bool
  includes : List Include
deriving DecidableEq, Repr

end Overlay
