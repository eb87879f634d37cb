import Overlay.Tree.Grammar

/-! The grammar of declaration files as rules of derivation. A rule says which tokens a part of a file may consist of,
    and which part of the tree they then stand for. It does not say how the tokens are read: an option may be there or
    not, and a repetition may go on or end, whatever comes next. -/

namespace Overlay
namespace Grammar

/-- What a rule derives: tokens, and what they stand for. --/
abbrev Rule (α : Type) := List Token → α → Prop

variable {α : Type}

/-! ### Options and repetitions -/

/-- `[ item ]` --/
inductive Opt (item : Rule α) : Rule (Option α) where
  | absent : Opt item [] none
  | present {ts : List Token} {a : α} (ofItem : item ts a) : Opt item ts (some a)

/-- `[ items ]`, where nothing stands for no items. --/
inductive OptList (items : Rule (List α)) : Rule (List α) where
  | absent : OptList items [] []
  | present {ts : List Token} {as : List α} (ofItems : items ts as) : OptList items ts as

/-- `{ item }` --/
inductive Many (item : Rule α) : Rule (List α) where
  | nil : Many item [] []
  | cons {ts us : List Token} {a : α} {as : List α} (first : item ts a) (others : Many item us as) :
      Many item (ts ++ us) (a :: as)

/-- `"," item` --/
inductive AfterComma (item : Rule α) : Rule α where
  | intro {comma : Token} {ts : List Token} {a : α} (isComma : comma.kind = .comma) (ofItem : item ts a) :
      AfterComma item (comma :: ts) a

/-- `item { "," item }` --/
inductive Separated (item : Rule α) : Rule (List α) where
  | intro {ts us : List Token} {a : α} {as : List α} (first : item ts a) (others : Many (AfterComma item) us as) :
      Separated item (ts ++ us) (a :: as)

/-! ### Single tokens -/

/-- A token of a kind. --/
inductive OfKind (kind : TokenKind) : Rule Token where
  | intro {t : Token} (isKind : t.kind = kind) : OfKind kind [t] t

/-- One of the keywords `words`. --/
inductive Keyword (words : List String) : Rule Token where
  | intro {t : Token} (isKeyword : t.kind = .keyword) (isWord : t.text ∈ words) : Keyword words [t] t

/-- The text of a number that is hexadecimal: `0x` or `0X` and at least one more character. --/
def HexText (text : String) : Prop := ∃ x digits, text.toList = '0' :: x :: digits ∧ (x = 'x' ∨ x = 'X') ∧ digits ≠ []

/-! ### Types, parameters and addresses -/

/-- `type = name { "*" }` --/
inductive TypeRule : Rule TypeName where
  | intro {name : Token} {stars : List Token} (isName : name.kind = .identifier)
      (areStars : ∀ t ∈ stars, t.kind = .star) : TypeRule (name :: stars) ⟨name.text, stars.length, name.position⟩

/-- `parameter = type name` --/
inductive ParameterRule : Rule ParameterNode where
  | intro {ts : List Token} {type : TypeName} {name : Token} (ofType : TypeRule ts type)
      (isName : name.kind = .identifier) : ParameterRule (ts ++ [name]) ⟨name.text, type, type.position⟩

/-- `address = "@" hexadecimal number` --/
inductive AddressRule : Rule Address where
  | intro {sign literal : Token} (isSign : sign.kind = .atSign) (isNumber : literal.kind = .number)
      (isHex : HexText literal.text) : AddressRule [sign, literal] ⟨literal.text, literal.position⟩

/-! ### Declarations -/

/-- `function = [ modifier ] type [ calling convention ] name "(" [ parameters ] ")" [ address ] ";"` --/
inductive FunctionRule : Rule FunctionNode where
  | intro {modifier convention : Option Token} {type : TypeName} {name leftParen rightParen semicolon : Token}
      {parameters : List ParameterNode} {address : Option Address} {ms ts cs ps as : List Token}
      (ofModifier : Opt (Keyword functionModifiers) ms modifier) (ofType : TypeRule ts type)
      (ofConvention : Opt (Keyword callingConventions) cs convention) (isName : name.kind = .identifier)
      (opens : leftParen.kind = .leftParen) (ofParameters : OptList (Separated ParameterRule) ps parameters)
      (closes : rightParen.kind = .rightParen) (ofAddress : Opt AddressRule as address)
      (ends : semicolon.kind = .semicolon) :
      FunctionRule (ms ++ ts ++ cs ++ name :: leftParen :: ps ++ rightParen :: as ++ [semicolon])
        { name := name.text, returnType := type, parameters, modifier := modifier.map (·.text),
          callingConvention := convention.map (·.text), address,
          position := (modifier.map (·.position)).getD type.position }

/-- `variable = type name [ address ] ";"` --/
inductive VariableRule : Rule VariableNode where
  | intro {type : TypeName} {name semicolon : Token} {address : Option Address} {ts as : List Token}
      (ofType : TypeRule ts type) (isName : name.kind = .identifier) (ofAddress : Opt AddressRule as address)
      (ends : semicolon.kind = .semicolon) :
      VariableRule (ts ++ name :: as ++ [semicolon]) ⟨name.text, type, address, type.position⟩

/-- `declaration = function | variable | raw block` --/
inductive DeclarationRule : Rule Node where
  | ofFunction {ts : List Token} {f : FunctionNode} (h : FunctionRule ts f) : DeclarationRule ts (.ofFunction f)
  | ofVariable {ts : List Token} {v : VariableNode} (h : VariableRule ts v) : DeclarationRule ts (.ofVariable v)
  | ofRawBlock {t : Token} (isRawBlock : t.kind = .rawBlock) : DeclarationRule [t] (.ofRawBlock ⟨t.text, t.position⟩)

/-- `member = declaration | ";"`; a semicolon stands for nothing. --/
inductive MemberRule : Rule (Option Node) where
  | ofDeclaration {ts : List Token} {n : Node} (h : DeclarationRule ts n) : MemberRule ts (some n)
  | ofSemicolon {t : Token} (isSemicolon : t.kind = .semicolon) : MemberRule [t] none

/-! ### Classes and files -/

/-- `bases = ":" name { "," name }` --/
inductive BasesRule : Rule (List String) where
  | intro {colon : Token} {ts names : List Token} (isColon : colon.kind = .colon)
      (ofNames : Separated (OfKind .identifier) ts names) : BasesRule (colon :: ts) (names.map (·.text))

/-- `class = "class" name [ bases ] "{" { member } "}" [ ";" ]` --/
inductive ClassRule : Rule ClassNode where
  | intro {opening name leftBrace rightBrace : Token} {bases : List String} {members : List (Option Node)}
      {ending : Option Token} {os bs ms es : List Token} (ofOpening : Keyword [classKeyword] os opening)
      (isName : name.kind = .identifier) (ofBases : OptList BasesRule bs bases) (opens : leftBrace.kind = .leftBrace)
      (ofMembers : Many MemberRule ms members) (closes : rightBrace.kind = .rightBrace)
      (ofEnding : Opt (OfKind .semicolon) es ending) :
      ClassRule (os ++ name :: bs ++ leftBrace :: ms ++ rightBrace :: es)
        ⟨name.text, bases, members.filterMap id, opening.position⟩

/-- `item = class | member` --/
inductive ItemRule : Rule (Option Node) where
  | ofClass {ts : List Token} {c : ClassNode} (h : ClassRule ts c) : ItemRule ts (some (.ofClass c))
  | ofMember {ts : List Token} {n : Option Node} (h : MemberRule ts n) : ItemRule ts n

/-- `file = { item }` --/
inductive FileRule : Rule (List Node) where
  | intro {ts : List Token} {items : List (Option Node)} (ofItems : Many ItemRule ts items) :
      FileRule ts (items.filterMap id)

end Grammar
end Overlay
