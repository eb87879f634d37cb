import Overlay.Header.Style
import Overlay.Text.Hexadecimal

/-! The lines of a header. What a line is for stays known until it is written: the labels, the assertions
    and the raw code of a header can be told from all else, whatever their text. -/

namespace Overlay

/-- A line of a header: code behind indents, a label of an access region, the assertion of the size of a
    class, or the code of a raw block. The code of a raw block is one line, even if it holds line feeds. --/
inductive HeaderLine where
  | code (depth : Nat) (text : String)
  | access (isPublic : Bool)
  | assertion (className : String) (size : Int)
  | raw (text : String)
deriving DecidableEq, Repr

namespace HeaderLine

/-- An empty line. --/
def blank : HeaderLine := .code 0 ""

/-- The label of an access region. --/
def label (isPublic : Bool) : String := if isPublic then "public:" else "private:"

/-- The line as it is written. --/
def text (style : Style) : HeaderLine → String
  | .code depth text => style.indented depth text
  | .access isPublic => label isPublic
  | .assertion className size =>
    s!"static_assert(sizeof({className}) == {Hexadecimal.address size}, \"{style.sizeMessage}\");"
  | .raw text => text

section
variable {style : Style}

@[simp] theorem text_blank : blank.text style = "" := rfl

@[simp] theorem text_access (isPublic : Bool) :
    (access isPublic).text style = if isPublic then "public:" else "private:" := rfl

@[simp] theorem text_assertion (className : String) (size : Int) : (assertion className size).text style =
    s!"static_assert(sizeof({className}) == {Hexadecimal.address size}, \"{style.sizeMessage}\");" := rfl

theorem text_assertion_ofTarget (target : Target) (className : String) (size : Int) :
    (assertion className size).text (.ofTarget target) =
      s!"static_assert(sizeof({className}) == {Hexadecimal.address size}, \"Unexpected class size\");" := by
  simp [Style.ofTarget, toString, String.append_assoc]

@[simp] theorem text_raw (text : String) : (raw text).text style = text := rfl

theorem text_code (depth : Nat) {text : String} (h : text ≠ "") :
    (code depth text).text style = String.join (List.replicate depth style.indent) ++ text :=
  style.indented_of_ne depth h

@[simp] theorem text_code_zero (text : String) : (code 0 text).text style = text := by
  by_cases h : text = ""
  · rw [h]
    rfl
  · rw [text_code 0 h]
    simp

end
end HeaderLine
end Overlay
