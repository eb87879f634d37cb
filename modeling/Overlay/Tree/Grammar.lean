import Overlay.Source.Token
import Overlay.Tree.Node

/-! The grammar of declaration files. A parser works on the tokens that are left, the current one first, and
    never leaves the last token: an accepted token stays in place if it is the last one. A repetition ends
    when an item has taken no token.

        file      = { class | function | variable | raw block | ";" }
        class     = "class" name [ ":" name { "," name } ] "{" { member } "}" [ ";" ]
        member    = function | variable | raw block | ";"
        function  = [ modifier ] type [ calling convention ] name "(" [ parameters ] ")" [ address ] ";"
        variable  = type name [ address ] ";"
        parameters = type name { "," type name }
        type      = name { "*" }
        address   = "@" hexadecimal number -/

namespace Overlay

/-! ### Faults -/

/-- What the parser expects at a place. --/
inductive Expected where
  | classKeyword
  | className
  | baseName
  | classBody
  | classEnd
  | declarationName
  | parametersEnd
  | functionEnd
  | variableEnd
  | typeName
  | parameterName
  | address
deriving DecidableEq, Repr

/-- The expectation in words. --/
def Expected.text : Expected → String
  | .classKeyword => "'class'"
  | .className => "class name"
  | .baseName => "base class name"
  | .classBody => "'\x7b' after class header"
  | .classEnd => "'\x7d' after class body"
  | .declarationName => "declaration name"
  | .parametersEnd => "')' after parameter list"
  | .functionEnd => "';' after function declaration"
  | .variableEnd => "';' after variable declaration"
  | .typeName => "type name"
  | .parameterName => "parameter name"
  | .address => "address after '@'"

/-- Why tokens do not form a tree. --/
inductive ParseCause where
  | expected (what : Expected)
  | openClass (name : String)
  | nestedClass
  | modifiedVariable (modifier : String)
  | calledVariable
  | addressNotHexadecimal (text : String)
deriving DecidableEq, Repr

/-- The cause in words. --/
def ParseCause.detail : ParseCause → String
  | .expected what => s!"Expected {what.text}"
  | .openClass name => s!"Unterminated class '{name}'"
  | .nestedClass => "Nested classes are not supported"
  | .modifiedVariable modifier => s!"'{modifier}' is only valid on functions"
  | .calledVariable => "Calling conventions are only valid on functions"
  | .addressNotHexadecimal text => s!"Address '{text}' must be hexadecimal (0x...)"

/-- A cause and the token to blame, if there is a token at all. --/
structure ParseFault where
  cause : ParseCause
  token : Option Token
deriving DecidableEq, Repr

/-- The message for a fault. --/
def ParseFault.message (f : ParseFault) : String :=
  match f.token with
  | some t => s!"{f.cause.detail} at {t.position.text}"
  | none => f.cause.detail

/-! ### Moving over tokens -/

/-- Takes tokens from the front of those that are left; a fault leaves those that were left then. --/
abbrev Parser := EStateM ParseFault (List Token)

namespace Parser

/-- The tokens after the current one, or the last one. --/
def next : List Token → List Token
  | _ :: t :: rest => t :: rest
  | ts => ts

/-- Whether the current token is of a kind. --/
def isAt (kind : TokenKind) (ts : List Token) : Bool := ts.head?.any (·.kind == kind)

/-- Whether the current token is one of the keywords `words`. --/
def isAtKeyword (words : List String) (ts : List Token) : Bool := ts.head?.any (·.isKeywordOf words)

/-- The current token. --/
def current : Parser (Option Token) := fun ts => .ok ts.head? ts

/-- Moves over the current token. --/
def moveOn : Parser Unit := fun ts => .ok () (next ts)

/-- Takes a token that `fits`. --/
def expectWhere (fits : Token → Bool) (what : Expected) : Parser Token := fun ts =>
  match ts.head? with
  | none => .error ⟨.expected what, none⟩ ts
  | some t => if fits t then .ok t (next ts) else .error ⟨.expected what, some t⟩ ts

/-- Takes a token of a kind. --/
def expect (kind : TokenKind) (what : Expected) : Parser Token := expectWhere (·.kind == kind) what

/-- Takes a token of a kind if it is the current one. --/
def accept (kind : TokenKind) : Parser Bool := fun ts =>
  if isAt kind ts then .ok true (next ts) else .ok false ts

/-- Takes one of the keywords `words` if it is the current token. --/
def acceptKeyword (words : List String) : Parser (Option Token) := fun ts =>
  if isAtKeyword words ts then .ok ts.head? (next ts) else .ok none ts

/-- Blames the current token. --/
def fail {α : Type} (cause : ParseCause) : Parser α := fun ts => .error ⟨cause, ts.head?⟩ ts

/-- Takes items as long as the tokens left fulfil `more` and the item before has taken a token. --/
def repeatWhile {α : Type} (more : List Token → Bool) (item : Parser α) (ts : List Token) :
    EStateM.Result ParseFault (List Token) (List α) :=
  if more ts then
    match item ts with
    | .error fault rest => .error fault rest
    | .ok a rest =>
      if rest.length < ts.length then
        match repeatWhile more item rest with
        | .error fault final => .error fault final
        | .ok as final => .ok (a :: as) final
      else .ok [a] rest
  else .ok [] ts
termination_by ts.length

/-! ### Types, parameters and addresses -/

/-- A type. --/
def typeName : Parser TypeName := do
  let name ← expect .identifier .typeName
  let stars ← repeatWhile (isAt .star) moveOn
  return ⟨name.text, stars.length, name.position⟩

/-- A parameter. --/
def parameter : Parser ParameterNode := do
  let type ← typeName
  let name ← expect .identifier .parameterName
  return ⟨name.text, type, type.position⟩

/-- The parameters before a closing parenthesis. --/
def parameters : Parser (List ParameterNode) := fun ts =>
  if isAt .rightParen ts then .ok [] ts
  else (do
    let first ← parameter
    let others ← repeatWhile (isAt .comma) (do moveOn; parameter)
    return first :: others : Parser (List ParameterNode)) ts

/-- Whether the text of a number is `0x` and at least one more character. --/
def isHexadecimal (text : String) : Bool :=
  match text.toList with
  | '0' :: 'x' :: _ :: _ => true
  | '0' :: 'X' :: _ :: _ => true
  | _ => false

/-- An address, if one begins at the current token. --/
def address : Parser (Option Address) := do
  if ← accept .atSign then
    let literal ← expect .number .address
    if isHexadecimal literal.text then return some ⟨literal.text, literal.position⟩
    else throw ⟨.addressNotHexadecimal literal.text, some literal⟩
  else return none

/-! ### Declarations -/

/-- What is left of a function after its opening parenthesis. --/
def functionAfter (modifier : Option Token) (type : TypeName) (convention : Option Token) (name : Token) :
    Parser FunctionNode := do
  let parameters ← parameters
  let _ ← expect .rightParen .parametersEnd
  let address ← address
  let _ ← expect .semicolon .functionEnd
  return { name := name.text, returnType := type, parameters, modifier := modifier.map (·.text),
           callingConvention := convention.map (·.text), address,
           position := (modifier.map (·.position)).getD type.position }

/-- What is left of a variable after its name. Nothing that belongs to functions may stand before. --/
def variableAfter (modifier : Option Token) (type : TypeName) (convention : Option Token) (name : Token) :
    Parser VariableNode := do
  if let some token := modifier then throw ⟨.modifiedVariable token.text, some token⟩
  if let some token := convention then throw ⟨.calledVariable, some token⟩
  let address ← address
  let _ ← expect .semicolon .variableEnd
  return ⟨name.text, type, address, type.position⟩

/-- A function or a variable. --/
def functionOrVariable : Parser Node := do
  let modifier ← acceptKeyword functionModifiers
  let type ← typeName
  let convention ← acceptKeyword callingConventions
  let name ← expect .identifier .declarationName
  if ← accept .leftParen then return .ofFunction (← functionAfter modifier type convention name)
  else return .ofVariable (← variableAfter modifier type convention name)

/-- A function, a variable or a raw block. --/
def declaration : Parser Node := fun ts =>
  match ts.head? with
  | some t =>
    if t.kind == .rawBlock then .ok (.ofRawBlock ⟨t.text, t.position⟩) (next ts)
    else functionOrVariable ts
  | none => functionOrVariable ts

/-! ### Classes and files -/

/-- A member of the class `name`, or a semicolon. --/
def member (name : String) : Parser (Option Node) := fun ts =>
  if isAt .endOfInput ts then fail (.openClass name) ts
  else if isAt .semicolon ts then .ok none (next ts)
  else if isAtKeyword [classKeyword] ts then fail .nestedClass ts
  else (some <$> declaration) ts

/-- The bases of a class, if a colon begins them at the current token. --/
def bases : Parser (List String) := do
  if ← accept .colon then
    let first ← expect .identifier .baseName
    let others ← repeatWhile (isAt .comma) (do moveOn; expect .identifier .baseName)
    return (first :: others).map (·.text)
  else return []

/-- A class. --/
def classNode : Parser ClassNode := do
  let opening ← expectWhere (·.isKeyword classKeyword) .classKeyword
  let name ← expect .identifier .className
  let bases ← bases
  let _ ← expect .leftBrace .classBody
  let members ← repeatWhile (fun ts => !isAt .rightBrace ts) (member name.text)
  let _ ← expect .rightBrace .classEnd
  let _ ← accept .semicolon
  return ⟨name.text, bases, members.filterMap id, opening.position⟩

/-- A declaration outside of classes, or a semicolon. --/
def topLevel : Parser (Option Node) := fun ts =>
  if isAt .semicolon ts then .ok none (next ts)
  else if isAtKeyword [classKeyword] ts then ((fun node => some (.ofClass node)) <$> classNode) ts
  else (some <$> declaration) ts

/-- The declarations up to the end of input. --/
def declarations : Parser (List Node) := do
  let items ← repeatWhile (fun ts => !ts.isEmpty && !isAt .endOfInput ts) topLevel
  return items.filterMap id

end Parser

/-! ### Files -/

/-- Where a file of these tokens begins. --/
def fileStart (tokens : List Token) : Position := (tokens.head?.map (·.position)).getD .start

/-- The tree of a file's tokens. --/
def parse (tokens : List Token) : Except ParseFault FileNode :=
  match Parser.declarations tokens with
  | .ok declarations _ => .ok ⟨declarations, fileStart tokens⟩
  | .error fault _ => .error fault

end Overlay
