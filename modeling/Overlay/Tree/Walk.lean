import Mathlib.Data.PFun
import Overlay.Tree.Grammar

/-! Reading a tree on a walk over tokens. A walk is at a place of a list of tokens and goes on by one place at a time,
    but stays at the last one. Its repetitions ask for nothing but the token at their place: one whose items take no
    token does not come to an end, and then there is no outcome. -/

namespace Overlay

/-- A walk over tokens: the place that it is at, and those that it was at before, the latest first. --/
structure Walk where
  tokens : List Token
  place : Nat
  before : List Nat
deriving DecidableEq, Repr

/-- Reading a part of a tree on a walk: what is read or why not, and the walk after it, if it comes to an end. --/
abbrev Walking := ExceptT ParseFault (StateT Walk Part)

namespace Walk

/-- Before the first token is taken. --/
def start (tokens : List Token) : Walk := ⟨tokens, 0, []⟩

/-- The token at the place. --/
def current (w : Walk) : Option Token := w.tokens[w.place]?

/-- Goes to the next token, if there is one. --/
def advance (w : Walk) : Walk :=
  if w.place + 1 < w.tokens.length then { w with place := w.place + 1, before := w.place :: w.before } else w

/-- Whether the current token is of a kind. --/
def isAt (kind : TokenKind) (w : Walk) : Bool := w.current.any (·.kind == kind)

/-- Whether the current token is one of the keywords `words`. --/
def isAtKeyword (words : List String) (w : Walk) : Bool := w.current.any (·.isKeywordOf words)

end Walk

namespace Walking

/-! ### Moving over tokens -/

/-- Moves over the current token. --/
def moveOn : Walking Unit := modify Walk.advance

/-- Takes a token that `fits`. --/
def expectWhere (fits : Token → Bool) (what : Expected) : Walking Token := do
  match (← get).current with
  | none => throw ⟨.expected what, none⟩
  | some t =>
    if fits t then
      moveOn
      return t
    else throw ⟨.expected what, some t⟩

/-- Takes a token of a kind. --/
def expect (kind : TokenKind) (what : Expected) : Walking Token := expectWhere (·.kind == kind) what

/-- Takes a token of a kind if it is the current one. --/
def accept (kind : TokenKind) : Walking Bool := do
  if (← get).isAt kind then
    moveOn
    return true
  else return false

/-- Takes one of the keywords `words` if it is the current token. --/
def acceptKeyword (words : List String) : Walking (Option Token) := do
  let w ← get
  if w.isAtKeyword words then
    moveOn
    return w.current
  else return none

/-- Blames the current token. --/
def fail {α : Type} (cause : ParseCause) : Walking α := do
  throw ⟨cause, (← get).current⟩

/-- One turn of a repetition: it ends with what it took, or takes one more item and goes on from there. --/
def turn {α : Type} (more : Walk → Bool) (item : Walking α) :
    List α × Walk →. (Except ParseFault (List α) × Walk) ⊕ (List α × Walk) := fun (taken, w) =>
  if more w then
    (item w).map fun
      | (.error fault, next) => .inl (.error fault, next)
      | (.ok a, next) => .inr (taken ++ [a], next)
  else .some (.inl (.ok taken, w))

/-- Takes items as long as the walk fulfils `more`. --/
def repeatWhile {α : Type} (more : Walk → Bool) (item : Walking α) : Walking (List α) := fun w =>
  (turn more item).fix ([], w)

/-! ### Types, parameters and addresses -/

/-- A type. --/
def typeName : Walking TypeName := do
  let name ← expect .identifier .typeName
  let stars ← repeatWhile (Walk.isAt .star) moveOn
  return ⟨name.text, stars.length, name.position⟩

/-- A parameter. --/
def parameter : Walking ParameterNode := do
  let type ← typeName
  let name ← expect .identifier .parameterName
  return ⟨name.text, type, type.position⟩

/-- The parameters before a closing parenthesis. --/
def parameters : Walking (List ParameterNode) := do
  if (← get).isAt .rightParen then return []
  let first ← parameter
  let others ← repeatWhile (Walk.isAt .comma) (do moveOn; parameter)
  return first :: others

/-- An address, if one begins at the current token. --/
def address : Walking (Option Address) := do
  if ← accept .atSign then
    let literal ← expect .number .address
    if Parser.isHexadecimal literal.text then return some ⟨literal.text, literal.position⟩
    else throw ⟨.addressNotHexadecimal literal.text, some literal⟩
  else return none

/-! ### Declarations -/

/-- What is left of a function after its opening parenthesis. --/
def functionAfter (modifier : Option Token) (type : TypeName) (convention : Option Token) (name : Token) :
    Walking FunctionNode := do
  let parameters ← parameters
  let _ ← expect .rightParen .parametersEnd
  let address ← address
  let _ ← expect .semicolon .functionEnd
  return { name := name.text, returnType := type, parameters, modifier := modifier.map (·.text),
           callingConvention := convention.map (·.text), address,
           position := (modifier.map (·.position)).getD type.position }

/-- What is left of a variable after its name. Nothing that belongs to functions may stand before. --/
def variableAfter (modifier : Option Token) (type : TypeName) (convention : Option Token) (name : Token) :
    Walking VariableNode := do
  if let some token := modifier then throw ⟨.modifiedVariable token.text, some token⟩
  if let some token := convention then throw ⟨.calledVariable, some token⟩
  let address ← address
  let _ ← expect .semicolon .variableEnd
  return ⟨name.text, type, address, type.position⟩

/-- A function or a variable. --/
def functionOrVariable : Walking Node := do
  let modifier ← acceptKeyword functionModifiers
  let type ← typeName
  let convention ← acceptKeyword callingConventions
  let name ← expect .identifier .declarationName
  if ← accept .leftParen then return .ofFunction (← functionAfter modifier type convention name)
  else return .ofVariable (← variableAfter modifier type convention name)

/-- A function, a variable or a raw block. --/
def declaration : Walking Node := do
  match (← get).current with
  | some t =>
    if t.kind == .rawBlock then
      moveOn
      return .ofRawBlock ⟨t.text, t.position⟩
    else functionOrVariable
  | none => functionOrVariable

/-! ### Classes and files -/

/-- A member of the class `name`, or a semicolon. --/
def member (name : String) : Walking (Option Node) := do
  let w ← get
  if w.isAt .endOfInput then fail (.openClass name)
  else if w.isAt .semicolon then
    moveOn
    return none
  else if w.isAtKeyword [classKeyword] then fail .nestedClass
  else some <$> declaration

/-- The bases of a class, if a colon begins them at the current token. --/
def bases : Walking (List String) := do
  if ← accept .colon then
    let first ← expect .identifier .baseName
    let others ← repeatWhile (Walk.isAt .comma) (do moveOn; expect .identifier .baseName)
    return (first :: others).map (·.text)
  else return []

/-- A class. --/
def classNode : Walking ClassNode := do
  let opening ← expectWhere (·.isKeyword classKeyword) .classKeyword
  let name ← expect .identifier .className
  let bases ← bases
  let _ ← expect .leftBrace .classBody
  let members ← repeatWhile (fun w => !w.isAt .rightBrace) (member name.text)
  let _ ← expect .rightBrace .classEnd
  let _ ← accept .semicolon
  return ⟨name.text, bases, members.filterMap id, opening.position⟩

/-- A declaration outside of classes, or a semicolon. --/
def topLevel : Walking (Option Node) := do
  let w ← get
  if w.isAt .semicolon then
    moveOn
    return none
  else if w.isAtKeyword [classKeyword] then (fun node => some (.ofClass node)) <$> classNode
  else some <$> declaration

/-- The declarations up to the end of input. --/
def declarations : Walking (List Node) := do
  let items ← repeatWhile (fun w => w.current.isSome && !w.isAt .endOfInput) topLevel
  return items.filterMap id

/-- The tree of a file, read from its first token on. --/
def file (tokens : List Token) : Part (Except ParseFault FileNode × Walk) :=
  ((fun declarations => ⟨declarations, fileStart tokens⟩) <$> declarations) (.start tokens)

end Walking
end Overlay
