import Overlay.Tree.Grammar

/-! Trees with other lines and columns. Renumbering changes the places of tokens and of nodes by one function and
    nothing else. A parser asks for the kind and the text of a token only, so the tree of renumbered tokens is the
    renumbered tree, and a fault is the same fault with a renumbered token to blame. -/

namespace Overlay

section
variable (g : Int → Int)

/-! ### Renumbering -/

def Position.renumber (p : Position) : Position := ⟨g p.line, g p.column⟩

def Token.renumber (t : Token) : Token := { t with position := t.position.renumber g }

def ParseFault.renumber (f : ParseFault) : ParseFault := { f with token := f.token.map (Token.renumber g) }

def TypeName.renumber (t : TypeName) : TypeName := { t with position := t.position.renumber g }

def Address.renumber (a : Address) : Address := { a with position := a.position.renumber g }

def ParameterNode.renumber (p : ParameterNode) : ParameterNode :=
  { p with type := p.type.renumber g, position := p.position.renumber g }

def FunctionNode.renumber (f : FunctionNode) : FunctionNode :=
  { f with
    returnType := f.returnType.renumber g
    parameters := f.parameters.map (ParameterNode.renumber g)
    address := f.address.map (Address.renumber g)
    position := f.position.renumber g }

def VariableNode.renumber (v : VariableNode) : VariableNode :=
  { v with
    type := v.type.renumber g
    address := v.address.map (Address.renumber g)
    position := v.position.renumber g }

def RawBlockNode.renumber (r : RawBlockNode) : RawBlockNode := { r with position := r.position.renumber g }

mutual

def ClassNode.renumber : ClassNode → ClassNode
  | ⟨name, bases, members, p⟩ => ⟨name, bases, Node.renumberAll members, p.renumber g⟩

def FileNode.renumber : FileNode → FileNode
  | ⟨declarations, p⟩ => ⟨Node.renumberAll declarations, p.renumber g⟩

def Node.renumber : Node → Node
  | .ofFile file => .ofFile file.renumber
  | .ofClass c => .ofClass c.renumber
  | .ofFunction f => .ofFunction (f.renumber g)
  | .ofVariable v => .ofVariable (v.renumber g)
  | .ofRawBlock r => .ofRawBlock (r.renumber g)
  | .ofParameter p => .ofParameter (p.renumber g)
  | .ofAddress a => .ofAddress (a.renumber g)
  | .ofType t => .ofType (t.renumber g)

def Node.renumberAll : List Node → List Node
  | [] => []
  | n :: ns => n.renumber :: Node.renumberAll ns

end

theorem Node.renumberAll_eq (ns : List Node) : Node.renumberAll g ns = ns.map (Node.renumber g) := by
  induction ns with
  | nil => rfl
  | cons n ns ih => rw [Node.renumberAll, ih, List.map_cons]

end

namespace Parser
variable {g : Int → Int} {α β : Type} {r : α → α} {r' : β → β}

/-- A result changed by `r`, with renumbered tokens. --/
def renumberResult (g : Int → Int) (r : α → α) :
    EStateM.Result ParseFault (List Token) α → EStateM.Result ParseFault (List Token) α
  | .ok a rest => .ok (r a) (rest.map (Token.renumber g))
  | .error fault rest => .error (fault.renumber g) (rest.map (Token.renumber g))

/-- On renumbered tokens, `q` does what `p` does on the tokens themselves, with its result changed by `r`. --/
def Renumbers (g : Int → Int) (r : α → α) (p q : Parser α) : Prop :=
  ∀ ts, q (ts.map (Token.renumber g)) = renumberResult g r (p ts)

/-! ### Composed parsers -/

theorem renumbers_pure {a b : α} (h : r a = b) : Renumbers g r (pure a) (pure b) := h ▸ fun _ => rfl

theorem renumbers_bind {p q : Parser α} {f f' : α → Parser β} (hp : Renumbers g r p q)
    (hf : ∀ a, Renumbers g r' (f a) (f' (r a))) : Renumbers g r' (p >>= f) (q >>= f') := by
  intro ts
  change EStateM.bind q f' _ = renumberResult g r' (EStateM.bind p f ts)
  unfold EStateM.bind
  rw [hp ts]
  cases p ts with
  | ok a rest => exact hf a rest
  | error fault rest => rfl

theorem renumbers_map {p q : Parser α} {f f' : α → β} (hp : Renumbers g r p q) (hf : ∀ a, f' (r a) = r' (f a)) :
    Renumbers g r' (f <$> p) (f' <$> q) := by
  intro ts
  change EStateM.map f' q _ = renumberResult g r' (EStateM.map f p ts)
  unfold EStateM.map
  rw [hp ts]
  cases p ts with
  | ok a rest => exact congrArg (fun b => EStateM.Result.ok b _) (hf a)
  | error fault rest => rfl

theorem renumbers_ite {c : Prop} [Decidable c] {p p' q q' : Parser α} (hp : Renumbers g r p q)
    (hp' : Renumbers g r p' q') : Renumbers g r (if c then p else p') (if c then q else q') := by
  by_cases hc : c
  · rw [if_pos hc, if_pos hc]
    exact hp
  · rw [if_neg hc, if_neg hc]
    exact hp'

theorem renumbers_throw {fault fault' : ParseFault} (h : fault.renumber g = fault') :
    Renumbers g r (throw fault) (throw fault') := h ▸ fun _ => rfl

/-! ### Moving over tokens -/

theorem next_renumber : ∀ ts : List Token, next (ts.map (Token.renumber g)) = (next ts).map (Token.renumber g)
  | [] | [_] | _ :: _ :: _ => rfl

theorem head?_renumber (ts : List Token) : (ts.map (Token.renumber g)).head? = ts.head?.map (Token.renumber g) :=
  List.head?_map

theorem isAt_renumber (kind : TokenKind) (ts : List Token) : isAt kind (ts.map (Token.renumber g)) = isAt kind ts := by
  rw [isAt, head?_renumber, Option.any_map]
  rfl

theorem isAtKeyword_renumber (words : List String) (ts : List Token) :
    isAtKeyword words (ts.map (Token.renumber g)) = isAtKeyword words ts := by
  rw [isAtKeyword, head?_renumber, Option.any_map]
  rfl

theorem renumbers_moveOn : Renumbers g id moveOn moveOn := fun ts => by rw [moveOn, next_renumber]; rfl

theorem renumbers_expectWhere {fits : Token → Bool} {what : Expected} (hfits : ∀ t, fits (t.renumber g) = fits t) :
    Renumbers g (Token.renumber g) (expectWhere fits what) (expectWhere fits what) := by
  intro ts
  unfold expectWhere
  rw [head?_renumber, next_renumber]
  cases ts.head? with
  | none => rfl
  | some t =>
    rw [Option.map_some]
    dsimp only
    rw [hfits]
    split <;> rfl

theorem renumbers_expect {kind : TokenKind} {what : Expected} :
    Renumbers g (Token.renumber g) (expect kind what) (expect kind what) := renumbers_expectWhere fun _ => rfl

theorem renumbers_accept {kind : TokenKind} : Renumbers g id (accept kind) (accept kind) := by
  intro ts
  unfold accept
  rw [isAt_renumber, next_renumber]
  split <;> rfl

theorem renumbers_acceptKeyword {words : List String} :
    Renumbers g (Option.map (Token.renumber g)) (acceptKeyword words) (acceptKeyword words) := by
  intro ts
  unfold acceptKeyword
  rw [isAtKeyword_renumber, next_renumber, head?_renumber]
  split <;> rfl

theorem renumbers_fail {cause : ParseCause} : Renumbers g r (fail cause) (fail cause) := by
  intro ts
  unfold fail
  rw [head?_renumber]
  rfl

theorem renumbers_repeatWhile {more : List Token → Bool} (hmore : ∀ ts, more (ts.map (Token.renumber g)) = more ts)
    {item : Parser α} (hitem : Renumbers g r item item) :
    Renumbers g (List.map r) (repeatWhile more item) (repeatWhile more item) := by
  intro ts
  fun_induction repeatWhile more item ts with
  | case1 ts hgo fault rest hfault =>
    rw [repeatWhile, hmore, if_pos hgo, hitem, hfault]
    rfl
  | case2 ts hgo a middle hok hlt fault final hfault ih =>
    rw [repeatWhile, hmore, if_pos hgo, hitem, hok]
    simp only [renumberResult, List.length_map, if_pos hlt, ih, hfault]
  | case3 ts hgo a middle hok hlt as final hrest ih =>
    rw [repeatWhile, hmore, if_pos hgo, hitem, hok]
    simp only [renumberResult, List.length_map, if_pos hlt, ih, hrest, List.map_cons]
  | case4 ts hgo a middle hok hlt =>
    rw [repeatWhile, hmore, if_pos hgo, hitem, hok]
    simp only [renumberResult, List.length_map, if_neg hlt, List.map_cons, List.map_nil]
  | case5 ts hstop =>
    rw [repeatWhile, hmore, if_neg hstop]
    rfl

/-! ### Parts of a tree -/

theorem renumbers_typeName : Renumbers g (TypeName.renumber g) typeName typeName := by
  refine renumbers_bind renumbers_expect fun name => ?_
  refine renumbers_bind (renumbers_repeatWhile (isAt_renumber _) renumbers_moveOn) fun stars => renumbers_pure ?_
  rw [List.length_map]
  rfl

theorem renumbers_parameter : Renumbers g (ParameterNode.renumber g) parameter parameter :=
  renumbers_bind renumbers_typeName fun _ => renumbers_bind renumbers_expect fun _ => renumbers_pure rfl

theorem renumbers_parameters : Renumbers g (List.map (ParameterNode.renumber g)) parameters parameters := by
  intro ts
  unfold parameters
  rw [isAt_renumber]
  split
  · rfl
  · have hitem : Renumbers g (ParameterNode.renumber g) (do moveOn; parameter) (do moveOn; parameter) :=
      renumbers_bind renumbers_moveOn fun _ => renumbers_parameter
    have hothers := renumbers_repeatWhile (isAt_renumber (g := g) .comma) hitem
    refine renumbers_bind renumbers_parameter (fun first => ?_) ts
    exact renumbers_bind hothers fun others => renumbers_pure (a := first :: others) rfl

theorem renumbers_address : Renumbers g (Option.map (Address.renumber g)) address address := by
  refine renumbers_bind renumbers_accept fun found => renumbers_ite ?_ (renumbers_pure rfl)
  exact renumbers_bind renumbers_expect fun literal => renumbers_ite (renumbers_pure rfl) (renumbers_throw rfl)

theorem renumbers_functionAfter {modifier convention : Option Token} {type : TypeName} {name : Token} :
    Renumbers g (FunctionNode.renumber g) (functionAfter modifier type convention name)
      (functionAfter (modifier.map (Token.renumber g)) (type.renumber g) (convention.map (Token.renumber g))
        (name.renumber g)) := by
  refine renumbers_bind renumbers_parameters fun parameters => renumbers_bind renumbers_expect fun _ => ?_
  refine renumbers_bind renumbers_address fun address => renumbers_bind renumbers_expect fun _ => renumbers_pure ?_
  cases modifier <;> cases convention <;> rfl

theorem renumbers_variableAfter {modifier convention : Option Token} {type : TypeName} {name : Token} :
    Renumbers g (VariableNode.renumber g) (variableAfter modifier type convention name)
      (variableAfter (modifier.map (Token.renumber g)) (type.renumber g) (convention.map (Token.renumber g))
        (name.renumber g)) := by
  unfold variableAfter
  cases modifier with
  | some t => exact renumbers_throw rfl
  | none =>
    cases convention with
    | some t => exact renumbers_throw rfl
    | none =>
      exact renumbers_bind renumbers_address fun address =>
        renumbers_bind renumbers_expect fun _ => renumbers_pure rfl

theorem renumbers_functionOrVariable : Renumbers g (Node.renumber g) functionOrVariable functionOrVariable := by
  refine renumbers_bind renumbers_acceptKeyword fun modifier => renumbers_bind renumbers_typeName fun type => ?_
  refine renumbers_bind renumbers_acceptKeyword fun convention => renumbers_bind renumbers_expect fun name => ?_
  refine renumbers_bind renumbers_accept fun found => renumbers_ite ?_ ?_
  · exact renumbers_bind renumbers_functionAfter fun f => renumbers_pure rfl
  · exact renumbers_bind renumbers_variableAfter fun v => renumbers_pure rfl

theorem renumbers_declaration : Renumbers g (Node.renumber g) declaration declaration := by
  intro ts
  unfold declaration
  rw [head?_renumber, next_renumber]
  cases ts.head? with
  | none => exact renumbers_functionOrVariable ts
  | some t =>
    rw [Option.map_some]
    dsimp only
    change (if t.kind == .rawBlock then _ else _) = _
    split
    · rfl
    · exact renumbers_functionOrVariable ts

theorem renumbers_someDeclaration :
    Renumbers g (Option.map (Node.renumber g)) (some <$> declaration) (some <$> declaration) :=
  renumbers_map renumbers_declaration fun _ => rfl

theorem renumbers_member {name : String} :
    Renumbers g (Option.map (Node.renumber g)) (member name) (member name) := by
  intro ts
  unfold member
  rw [isAt_renumber, isAt_renumber, isAtKeyword_renumber, next_renumber]
  split
  · exact renumbers_fail ts
  · split
    · rfl
    · split
      · exact renumbers_fail ts
      · exact renumbers_someDeclaration ts

theorem renumbers_bases : Renumbers g id bases bases := by
  refine renumbers_bind renumbers_accept fun found => renumbers_ite ?_ (renumbers_pure rfl)
  have hitem : Renumbers g (Token.renumber g) (do moveOn; expect .identifier .baseName)
      (do moveOn; expect .identifier .baseName) := renumbers_bind renumbers_moveOn fun _ => renumbers_expect
  refine renumbers_bind renumbers_expect fun first => ?_
  refine renumbers_bind (renumbers_repeatWhile (isAt_renumber _) hitem) fun others => renumbers_pure ?_
  rw [← List.map_cons, List.map_map]
  rfl

theorem filterMap_renumber (found : List (Option Node)) :
    (found.map (Option.map (Node.renumber g))).filterMap id = (found.filterMap id).map (Node.renumber g) := by
  rw [List.filterMap_map, List.map_filterMap]
  rfl

theorem renumbers_classNode : Renumbers g (ClassNode.renumber g) classNode classNode := by
  refine renumbers_bind (renumbers_expectWhere fun _ => rfl) fun opening => ?_
  refine renumbers_bind renumbers_expect fun name => renumbers_bind renumbers_bases fun bases => ?_
  have hmore : ∀ ts : List Token, (!isAt .rightBrace (ts.map (Token.renumber g))) = !isAt .rightBrace ts := fun ts => by
    rw [isAt_renumber]
  refine renumbers_bind renumbers_expect fun _ => renumbers_bind (renumbers_repeatWhile hmore renumbers_member) ?_
  intro members
  refine renumbers_bind renumbers_expect fun _ => renumbers_bind renumbers_accept fun _ => renumbers_pure ?_
  rw [filterMap_renumber, ClassNode.renumber, Node.renumberAll_eq]
  rfl

theorem renumbers_topLevel : Renumbers g (Option.map (Node.renumber g)) topLevel topLevel := by
  intro ts
  unfold topLevel
  rw [isAt_renumber, isAtKeyword_renumber, next_renumber]
  split
  · rfl
  · split
    · have hclass : Renumbers g (Option.map (Node.renumber g)) ((fun node => some (.ofClass node)) <$> classNode)
          ((fun node => some (.ofClass node)) <$> classNode) := renumbers_map renumbers_classNode fun _ => rfl
      exact hclass ts
    · exact renumbers_someDeclaration ts

theorem renumbers_declarations : Renumbers g (List.map (Node.renumber g)) declarations declarations := by
  have hmore : ∀ ts : List Token, (!(ts.map (Token.renumber g)).isEmpty && !isAt .endOfInput (ts.map (Token.renumber g))) =
      (!ts.isEmpty && !isAt .endOfInput ts) := fun ts => by
    rw [isAt_renumber, List.isEmpty_map]
  refine renumbers_bind (renumbers_repeatWhile hmore renumbers_topLevel) fun found => renumbers_pure ?_
  exact (filterMap_renumber found).symm

end Parser

/-- The tree of renumbered tokens is the renumbered tree. --/
theorem parse_renumber (g : Int → Int) {tokens : List Token} (h : tokens ≠ []) :
    parse (tokens.map (Token.renumber g)) =
      ((parse tokens).map (FileNode.renumber g)).mapError (ParseFault.renumber g) := by
  have hstart : fileStart (tokens.map (Token.renumber g)) = (fileStart tokens).renumber g := by
    obtain ⟨t, ts, rfl⟩ := List.exists_cons_of_ne_nil h
    rfl
  unfold parse
  rw [Parser.renumbers_declarations tokens, hstart]
  cases Parser.declarations tokens with
  | ok declarations rest =>
    refine congrArg Except.ok ?_
    rw [FileNode.renumber, Node.renumberAll_eq]
  | error fault rest => rfl

end Overlay
