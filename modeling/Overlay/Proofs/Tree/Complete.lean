import Overlay.Proofs.Tree.Sound

/-! What the grammar derives, the parser takes, and gives what the tokens stand for. The parser looks at the token that
    comes next to end a repetition or to leave an option out, so each statement says which tokens may follow. Only the
    semicolon after a class may be taken although the rule has left it out: it then stands for nothing in the list of
    declarations, where the rule has it. -/

namespace Overlay
namespace Parser
open Grammar
variable {α β : Type} {ts us rest : List Token}

/-! ### Single steps -/

theorem bind_ok {p : Parser α} {f : α → Parser β} {a : α} (h : p ts = .ok a us) : (p >>= f) ts = f a us := by
  change EStateM.bind p f ts = f a us
  unfold EStateM.bind
  rw [h]

theorem map_ok {p : Parser α} {f : α → β} {a : α} (h : p ts = .ok a us) : (f <$> p) ts = .ok (f a) us := by
  change EStateM.map f p ts = .ok (f a) us
  unfold EStateM.map
  rw [h]

@[simp] theorem isAt_cons (kind : TokenKind) (t : Token) : isAt kind (t :: ts) = (t.kind == kind) := rfl

@[simp] theorem isAtKeyword_cons (words : List String) (t : Token) :
    isAtKeyword words (t :: ts) = t.isKeywordOf words := rfl

theorem next_cons {t : Token} (h : ts ≠ []) : next (t :: ts) = ts := by
  obtain ⟨u, us, rfl⟩ := List.exists_cons_of_ne_nil h
  rfl

theorem expectWhere_cons {fits : Token → Bool} {what : Expected} {t : Token} (ht : fits t = true) (h : ts ≠ []) :
    expectWhere fits what (t :: ts) = .ok t ts := by
  simp [expectWhere, ht, next_cons h]

theorem expect_cons {kind : TokenKind} {what : Expected} {t : Token} (ht : t.kind = kind) (h : ts ≠ []) :
    expect kind what (t :: ts) = .ok t ts :=
  expectWhere_cons (by simp [ht]) h

theorem moveOn_cons {t : Token} (h : ts ≠ []) : moveOn (t :: ts) = .ok () ts := by
  simp [moveOn, next_cons h]

theorem accept_cons {kind : TokenKind} {t : Token} (ht : t.kind = kind) (h : ts ≠ []) :
    accept kind (t :: ts) = .ok true ts := by
  simp [accept, ht, next_cons h]

theorem accept_none {kind : TokenKind} (h : isAt kind ts = false) : accept kind ts = .ok false ts := by
  simp [accept, h]

theorem acceptKeyword_opt {words : List String} {found : Option Token} (h : Opt (Keyword words) ts found)
    (hrest : rest ≠ []) (hstop : isAtKeyword words rest = false) :
    acceptKeyword words (ts ++ rest) = .ok found rest := by
  cases h with
  | absent => simp [acceptKeyword, hstop]
  | present h =>
    obtain ⟨hkeyword, hword⟩ := h
    simp [acceptKeyword, Token.isKeywordOf, hkeyword, hword, next_cons hrest]

/-! ### Repetitions -/

theorem repeatWhile_stop {more : List Token → Bool} {item : Parser α} (h : more ts = false) :
    repeatWhile more item ts = .ok [] ts := by
  rw [repeatWhile, if_neg (by simp [h])]

theorem repeatWhile_cons {more : List Token → Bool} {item : Parser α} {a : α} {as : List α} (hmore : more ts = true)
    (hitem : item ts = .ok a us) (hlt : us.length < ts.length) (hrest : repeatWhile more item us = .ok as rest) :
    repeatWhile more item ts = .ok (a :: as) rest := by
  rw [repeatWhile, if_pos hmore, hitem]
  simp only [if_pos hlt, hrest]

/-- A repetition takes all items, if the parser takes each of them whatever follows. --/
theorem repeatWhile_many {more : List Token → Bool} {item : Parser α} {rule : Rule α} {as : List α}
    (hitem : ∀ ts a us, rule ts a → us ≠ [] → more (ts ++ us) = true ∧ item (ts ++ us) = .ok a us)
    (hne : ∀ ts a, rule ts a → ts ≠ []) (h : Many rule ts as) (hrest : rest ≠ []) (hstop : more rest = false) :
    repeatWhile more item (ts ++ rest) = .ok as rest := by
  induction h with
  | nil => exact repeatWhile_stop hstop
  | @cons ts us a as first _ ih =>
    rw [List.append_assoc]
    obtain ⟨hmore, htaken⟩ := hitem ts a (us ++ rest) first (by simp [hrest])
    have hpos := List.length_pos_iff.mpr (hne ts a first)
    exact repeatWhile_cons hmore htaken (by simp; omega) ih

theorem afterComma_ne_nil {rule : Rule α} {a : α} (h : AfterComma rule ts a) : ts ≠ [] := by
  cases h
  exact List.cons_ne_nil _ _

/-- Items with commas between them are taken, if the parser takes each of them whatever follows. --/
theorem separated_ok {p : Parser α} {rule : Rule α} {as : List α} (f : List α → β)
    (hp : ∀ ts a us, rule ts a → us ≠ [] → p (ts ++ us) = .ok a us) (h : Separated rule ts as) (hrest : rest ≠ [])
    (hstop : isAt .comma rest = false) :
    (do
      let first ← p
      let others ← repeatWhile (isAt .comma) (do moveOn; p)
      return f (first :: others) : Parser β) (ts ++ rest) = .ok (f as) rest := by
  obtain ⟨hfirst, hothers⟩ := h
  rw [List.append_assoc, bind_ok (hp _ _ _ hfirst (by simp [hrest])),
    bind_ok (repeatWhile_many ?_ ?_ hothers hrest hstop)]
  · rfl
  · rintro _ a us ⟨hcomma, hitem⟩ hus
    refine ⟨by simp [hcomma], ?_⟩
    rw [List.cons_append, bind_ok (moveOn_cons (by simp [hus]))]
    exact hp _ _ _ hitem hus
  · exact fun _ _ => afterComma_ne_nil

/-! ### Types, parameters and addresses -/

theorem many_of_stars : ∀ {stars : List Token}, (∀ t ∈ stars, t.kind = .star) →
    ∃ units : List Unit, units.length = stars.length ∧
      Many (fun taken _ => ∃ t : Token, taken = [t] ∧ t.kind = .star) stars units
  | [], _ => ⟨[], rfl, .nil⟩
  | t :: ts, h => by
    obtain ⟨ht, hts⟩ := List.forall_mem_cons.mp h
    obtain ⟨units, hlength, hmany⟩ := many_of_stars hts
    exact ⟨() :: units, by simp [hlength], .cons ⟨t, rfl, ht⟩ hmany⟩

theorem typeName_ok {type : TypeName} (h : TypeRule ts type) (hrest : rest ≠ []) (hstop : isAt .star rest = false) :
    typeName (ts ++ rest) = .ok type rest := by
  obtain ⟨hname, hstars⟩ := h
  obtain ⟨units, hlength, hmany⟩ := many_of_stars hstars
  rw [typeName, List.cons_append, bind_ok (expect_cons hname (by simp [hrest])),
    bind_ok (repeatWhile_many ?_ ?_ hmany hrest hstop), hlength]
  · rfl
  · rintro _ _ us ⟨t, rfl, ht⟩ hus
    exact ⟨by simp [ht], moveOn_cons hus⟩
  · rintro _ _ ⟨t, rfl, -⟩
    exact List.cons_ne_nil _ _

theorem parameter_ok {p : ParameterNode} (h : ParameterRule ts p) (hrest : rest ≠ []) :
    parameter (ts ++ rest) = .ok p rest := by
  obtain ⟨htype, hname⟩ := h
  rw [parameter, List.append_assoc, bind_ok (typeName_ok htype (by simp) (by simp [hname])), List.singleton_append,
    bind_ok (expect_cons hname hrest)]
  rfl

/-- A type begins with its name. --/
theorem TypeRule.begins {type : TypeName} (h : TypeRule ts type) : ∃ t us, ts = t :: us ∧ t.kind = .identifier := by
  obtain ⟨hname, -⟩ := h
  exact ⟨_, _, rfl, hname⟩

theorem parameters_ok {ps : List ParameterNode} (h : OptList (Separated ParameterRule) ts ps) (hrest : rest ≠ [])
    (hstop : isAt .rightParen rest = true) : parameters (ts ++ rest) = .ok ps rest := by
  cases h with
  | absent => simp [parameters, hstop]
  | present h =>
    have hcomma : isAt .comma rest = false := by
      obtain ⟨t, us, rfl, ht⟩ := head_of_isAt hstop
      simp [ht]
    have hbegins : isAt .rightParen (ts ++ rest) = false := by
      obtain ⟨⟨htype, -⟩, -⟩ := h
      obtain ⟨t, us, rfl, ht⟩ := TypeRule.begins htype
      simp [ht]
    rw [parameters, hbegins]
    exact separated_ok (fun ps => ps) (fun _ _ _ => parameter_ok) h hrest hcomma

theorem address_ok {a : Option Address} (h : Opt AddressRule ts a) (hrest : rest ≠ [])
    (hstop : isAt .atSign rest = false) : address (ts ++ rest) = .ok a rest := by
  cases h with
  | absent =>
    rw [address, List.nil_append, bind_ok (accept_none hstop)]
    rfl
  | present h =>
    obtain ⟨hsign, hnumber, hhex⟩ := h
    simp only [address, List.cons_append, List.nil_append]
    rw [bind_ok (accept_cons hsign (by simp)), if_pos rfl, bind_ok (expect_cons hnumber hrest),
      if_pos (isHexadecimal_iff.mpr hhex)]
    rfl

/-! ### Declarations -/

section
variable {modifier convention : Option Token} {type : TypeName} {name : Token} {ms cs : List Token}

/-- What stands before the parenthesis of a function or the end of a variable is taken first. --/
theorem functionOrVariable_named (ofModifier : Opt (Keyword functionModifiers) ms modifier) (ofType : TypeRule us type)
    (ofConvention : Opt (Keyword callingConventions) cs convention) (isName : name.kind = .identifier)
    (hrest : rest ≠ []) :
    functionOrVariable (ms ++ (us ++ (cs ++ name :: rest))) =
      (do
        if ← accept .leftParen then return .ofFunction (← functionAfter modifier type convention name)
        else return .ofVariable (← variableAfter modifier type convention name) : Parser Node) rest := by
  have hmodifier : isAtKeyword functionModifiers (us ++ (cs ++ name :: rest)) = false := by
    obtain ⟨t, us, rfl, ht⟩ := TypeRule.begins ofType
    simp [Token.isKeywordOf, ht]
  have hstar : isAt .star (cs ++ name :: rest) = false := by
    cases ofConvention with
    | absent => simp [isName]
    | present h =>
      obtain ⟨hkeyword, -⟩ := h
      simp [hkeyword]
  rw [functionOrVariable, bind_ok (acceptKeyword_opt ofModifier (by simp) hmodifier),
    bind_ok (typeName_ok ofType (by simp) hstar),
    bind_ok (acceptKeyword_opt ofConvention (by simp) (by simp [Token.isKeywordOf, isName])),
    bind_ok (expect_cons isName hrest)]

end

theorem functionOrVariable_function {f : FunctionNode} (h : FunctionRule ts f) (hrest : rest ≠ []) :
    functionOrVariable (ts ++ rest) = .ok (.ofFunction f) rest := by
  obtain ⟨ofModifier, ofType, ofConvention, isName, opens, ofParameters, closes, ofAddress, ends⟩ := h
  simp only [List.append_assoc, List.cons_append, List.nil_append]
  rw [functionOrVariable_named ofModifier ofType ofConvention isName (by simp), bind_ok (accept_cons opens (by simp)),
    if_pos rfl]
  refine bind_ok ?_
  rw [functionAfter, bind_ok (parameters_ok ofParameters (by simp) (by simp [closes])),
    bind_ok (expect_cons closes (by simp)), bind_ok (address_ok ofAddress (by simp) (by simp [ends])),
    bind_ok (expect_cons ends hrest)]
  rfl

theorem functionOrVariable_variable {v : VariableNode} (h : VariableRule ts v) (hrest : rest ≠ []) :
    functionOrVariable (ts ++ rest) = .ok (.ofVariable v) rest := by
  obtain ⟨ofType, isName, ofAddress, ends⟩ := h
  rename_i type name semicolon address us as
  have hparen : isAt .leftParen (as ++ semicolon :: rest) = false := by
    cases ofAddress with
    | absent => simp [ends]
    | present h =>
      obtain ⟨hsign, -⟩ := h
      simp [hsign]
  simp only [List.append_assoc, List.cons_append, List.nil_append]
  have hrest' : as ++ semicolon :: rest ≠ [] := by simp
  have hnamed := functionOrVariable_named .absent ofType .absent isName hrest'
  simp only [List.nil_append] at hnamed
  rw [hnamed, bind_ok (accept_none hparen), if_neg Bool.false_ne_true]
  refine bind_ok ?_
  change (Parser.address >>= _) _ = _
  rw [bind_ok (address_ok ofAddress (by simp) (by simp [ends])), bind_ok (expect_cons ends hrest)]
  rfl

theorem FunctionRule.begins {f : FunctionNode} (h : FunctionRule ts f) :
    ∃ t us, ts = t :: us ∧ (t.kind = .identifier ∨ t.kind = .keyword ∧ t.text ∈ functionModifiers) := by
  obtain ⟨ofModifier, ofType, -, -, -, -, -, -, -⟩ := h
  cases ofModifier with
  | absent =>
    obtain ⟨t, us, rfl, ht⟩ := TypeRule.begins ofType
    exact ⟨t, _, rfl, Or.inl ht⟩
  | present h =>
    obtain ⟨hkeyword, hword⟩ := h
    exact ⟨_, _, rfl, Or.inr ⟨hkeyword, hword⟩⟩

theorem VariableRule.begins {v : VariableNode} (h : VariableRule ts v) :
    ∃ t us, ts = t :: us ∧ t.kind = .identifier := by
  obtain ⟨ofType, -, -, -⟩ := h
  obtain ⟨t, us, rfl, ht⟩ := TypeRule.begins ofType
  exact ⟨t, _, rfl, ht⟩

theorem DeclarationRule.begins {n : Node} (h : DeclarationRule ts n) :
    ∃ t us, ts = t :: us ∧
      (t.kind = .rawBlock ∨ t.kind = .identifier ∨ t.kind = .keyword ∧ t.text ∈ functionModifiers) := by
  cases h with
  | ofFunction h =>
    obtain ⟨t, us, heq, ht⟩ := FunctionRule.begins h
    exact ⟨t, us, heq, Or.inr ht⟩
  | ofVariable h =>
    obtain ⟨t, us, heq, ht⟩ := VariableRule.begins h
    exact ⟨t, us, heq, Or.inr (Or.inl ht)⟩
  | ofRawBlock h => exact ⟨_, _, rfl, Or.inl h⟩

theorem declaration_ok {n : Node} (h : DeclarationRule ts n) (hrest : rest ≠ []) :
    declaration (ts ++ rest) = .ok n rest := by
  cases h with
  | ofFunction h =>
    rw [← functionOrVariable_function h hrest]
    obtain ⟨t, us, rfl, ht⟩ := FunctionRule.begins h
    have hraw : (t.kind == .rawBlock) = false := by rcases ht with ht | ⟨ht, -⟩ <;> simp [ht]
    simp [declaration, hraw]
  | ofVariable h =>
    rw [← functionOrVariable_variable h hrest]
    obtain ⟨t, us, rfl, ht⟩ := VariableRule.begins h
    simp [declaration, ht]
  | ofRawBlock h => simp [declaration, h, next_cons hrest]

/-- A declaration is none of the things that are looked for before one. --/
theorem looks_past {n : Node} (h : DeclarationRule ts n) (rest : List Token) :
    isAt .endOfInput (ts ++ rest) = false ∧ isAt .semicolon (ts ++ rest) = false ∧
      isAt .rightBrace (ts ++ rest) = false ∧ isAtKeyword [classKeyword] (ts ++ rest) = false := by
  obtain ⟨t, us, rfl, ht⟩ := DeclarationRule.begins h
  rcases ht with ht | ht | ⟨ht, hword⟩
  · simp [Token.isKeywordOf, ht]
  · simp [Token.isKeywordOf, ht]
  · refine ⟨by simp [ht], by simp [ht], by simp [ht], ?_⟩
    have hne : t.text ≠ classKeyword := by
      rintro heq
      rw [heq] at hword
      exact absurd hword (by decide)
    simp [Token.isKeywordOf, hne]

/-! ### Classes and files -/

theorem member_ok {name : String} {n : Option Node} (h : MemberRule ts n) (hrest : rest ≠ []) :
    isAt .rightBrace (ts ++ rest) = false ∧ member name (ts ++ rest) = .ok n rest := by
  cases h with
  | ofDeclaration h =>
    obtain ⟨hend, hsemicolon, hbrace, hclass⟩ := looks_past h rest
    refine ⟨hbrace, ?_⟩
    simp only [member, hend, hsemicolon, hclass, Bool.false_eq_true, if_false]
    exact map_ok (declaration_ok h hrest)
  | ofSemicolon h => simp [member, h, next_cons hrest]

theorem bases_ok {names : List String} (h : OptList BasesRule ts names) (hrest : rest ≠ [])
    (hstop : isAt .leftBrace rest = true) : bases (ts ++ rest) = .ok names rest := by
  obtain ⟨t, us, rfl, ht⟩ := head_of_isAt hstop
  cases h with
  | absent =>
    rw [bases, List.nil_append, bind_ok (accept_none (by simp [ht]))]
    rfl
  | present h =>
    obtain ⟨hcolon, hnames⟩ := h
    have hname : ∀ ts a us, OfKind .identifier ts a → us ≠ [] → expect .identifier .baseName (ts ++ us) = .ok a us := by
      rintro _ a us ⟨hkind⟩ hus
      exact expect_cons hkind hus
    rw [bases, List.cons_append, bind_ok (accept_cons hcolon (by simp)), if_pos rfl]
    exact separated_ok (fun names => names.map (·.text)) hname hnames hrest (by simp [ht])

/-- The tokens after a semicolon that may stand here. --/
def afterSemicolon (ts : List Token) : List Token := if isAt .semicolon ts then next ts else ts

/-- A class is taken with the semicolon after it, if there is one, which the rule may leave to what follows. --/
theorem classNode_ok {c : ClassNode} (h : ClassRule ts c) (hrest : rest ≠ []) :
    classNode (ts ++ rest) = .ok c rest ∨ classNode (ts ++ rest) = .ok c (afterSemicolon rest) := by
  obtain ⟨ofOpening, isName, ofBases, opens, ofMembers, closes, ofEnding⟩ := h
  rename_i opening name leftBrace rightBrace bases members ending os bs ms es
  obtain ⟨hkeyword, hword⟩ := ofOpening
  have hopening : opening.isKeyword classKeyword = true := by
    simpa [Token.isKeyword, hkeyword] using hword
  have hmembers : repeatWhile (fun ts => !isAt .rightBrace ts) (member name.text) (ms ++ rightBrace :: (es ++ rest)) =
      .ok members (rightBrace :: (es ++ rest)) :=
    repeatWhile_many (fun ts n us h hus => by simpa using member_ok h hus) (fun _ _ => MemberRule.ne_nil) ofMembers
      (by simp) (by simp [closes])
  simp only [List.append_assoc, List.cons_append, List.nil_append]
  rw [classNode, bind_ok (expectWhere_cons hopening (by simp)), bind_ok (expect_cons isName (by simp)),
    bind_ok (bases_ok ofBases (by simp) (by simp [opens])), bind_ok (expect_cons opens (by simp)), bind_ok hmembers,
    bind_ok (expect_cons closes (by simp [hrest]))]
  cases ofEnding with
  | absent =>
    refine Or.inr (bind_ok (a := isAt .semicolon rest) ?_)
    simp only [List.nil_append, accept, afterSemicolon]
    split <;> simp [*]
  | present h =>
    obtain ⟨hkind⟩ := h
    exact Or.inl (bind_ok (accept_cons hkind hrest))

theorem ClassRule.begins {c : ClassNode} (h : ClassRule ts c) :
    ∃ t us, ts = t :: us ∧ t.kind = .keyword ∧ t.text = classKeyword := by
  obtain ⟨⟨hkeyword, hword⟩, -⟩ := h
  exact ⟨_, _, rfl, hkeyword, List.mem_singleton.mp hword⟩

/-- An item that begins with a semicolon is the semicolon alone. --/
theorem ItemRule.of_semicolon {n : Option Node} (h : ItemRule ts n) (hat : isAt .semicolon (ts ++ rest) = true) :
    n = none ∧ ∃ t, ts = [t] := by
  cases h with
  | ofClass h =>
    obtain ⟨t, us, rfl, ht, -⟩ := ClassRule.begins h
    simp [ht] at hat
  | ofMember h =>
    cases h with
    | ofDeclaration h => exact absurd hat (by simp [(looks_past h rest).2.1])
    | ofSemicolon => exact ⟨rfl, _, rfl⟩

theorem topLevel_ok {n : Option Node} (h : ItemRule ts n) (hrest : rest ≠ []) :
    atItem (ts ++ rest) = true ∧
      (topLevel (ts ++ rest) = .ok n rest ∨ topLevel (ts ++ rest) = .ok n (afterSemicolon rest)) := by
  cases h with
  | ofClass h =>
    have hnode := classNode_ok h hrest
    obtain ⟨t, us, rfl, ht, hword⟩ := ClassRule.begins h
    refine ⟨by simp [atItem, ht], ?_⟩
    have hclass : topLevel (t :: us ++ rest) =
        ((fun node => some (.ofClass node)) <$> classNode) (t :: us ++ rest) := by
      simp [topLevel, Token.isKeywordOf, ht, hword]
    rw [hclass]
    exact hnode.imp map_ok map_ok
  | ofMember h =>
    cases h with
    | ofDeclaration h =>
      obtain ⟨hend, hsemicolon, -, hclass⟩ := looks_past h rest
      have hne := DeclarationRule.ne_nil h
      refine ⟨by simp [atItem, hend, hne], Or.inl ?_⟩
      simp only [topLevel, hsemicolon, hclass, Bool.false_eq_true, if_false]
      exact map_ok (declaration_ok h hrest)
    | ofSemicolon h => exact ⟨by simp [atItem, h], Or.inl (by simp [topLevel, h, next_cons hrest])⟩

theorem declarations_cons {n : Option Node} {nodes : List Node} (hmore : atItem ts = true)
    (htop : topLevel ts = .ok n us) (hlt : us.length < ts.length) (hrest : declarations us = .ok nodes rest) :
    declarations ts = .ok (n.toList ++ nodes) rest := by
  obtain ⟨items, hitems, rfl⟩ := declarations_eq_ok_iff.mp hrest
  refine declarations_eq_ok_iff.mpr ⟨n :: items, repeatWhile_cons hmore htop hlt hitems, ?_⟩
  cases n <;> rfl

theorem afterSemicolon_length_le (ts : List Token) : (afterSemicolon ts).length ≤ ts.length := by
  unfold afterSemicolon
  split
  · cases ts with
    | nil => simp [next]
    | cons t us => cases us <;> simp [next]
  · exact Nat.le_refl _

/-- The parser gives all declarations of a file, also where a semicolon before them was taken with a class. --/
theorem declarations_ok {items : List (Option Node)} {eof : Token} (heof : eof.kind = .endOfInput)
    (h : Many ItemRule ts items) :
    declarations (ts ++ [eof]) = .ok (items.filterMap id) [eof] ∧
      declarations (afterSemicolon (ts ++ [eof])) = .ok (items.filterMap id) [eof] := by
  induction h with
  | nil =>
    have hend : declarations [eof] = .ok [] [eof] := bind_ok (repeatWhile_stop (by simp [heof]))
    simpa [afterSemicolon, heof] using hend
  | @cons ts us n items first _ ih =>
    obtain ⟨ihPlain, ihAfter⟩ := ih
    have hnodes : (n :: items).filterMap id = n.toList ++ items.filterMap id := by cases n <;> rfl
    rw [hnodes, List.append_assoc]
    have hpos := List.length_pos_iff.mpr (ItemRule.ne_nil first)
    have hrest : us ++ [eof] ≠ [] := by simp
    have hplain : declarations (ts ++ (us ++ [eof])) = .ok (n.toList ++ items.filterMap id) [eof] := by
      obtain ⟨hmore, htop | htop⟩ := topLevel_ok first hrest
      · exact declarations_cons hmore htop (by simp; omega) ihPlain
      · refine declarations_cons hmore htop ?_ ihAfter
        have := afterSemicolon_length_le (us ++ [eof])
        simp at this ⊢
        omega
    refine ⟨hplain, ?_⟩
    unfold afterSemicolon
    split
    · -- The first item is a semicolon, so all that is left of the tokens is what follows it.
      rename_i hat
      obtain ⟨rfl, t, rfl⟩ := ItemRule.of_semicolon first hat
      rwa [List.singleton_append, next_cons hrest]
    · exact hplain

/-! ### What is accepted -/

theorem closed_append {eof : Token} (heof : eof.kind = .endOfInput) : Closed (ts ++ [eof]) := ⟨eof, by simp, heof⟩

/-- Tokens that end where the only end of input is. --/
theorem eq_of_append_end {eof : Token} (hts : ∀ t ∈ ts, t.kind ≠ .endOfInput) (hend : isAt .endOfInput rest = true)
    (h : ts ++ [eof] = us ++ rest) : ts = us ∧ rest = [eof] := by
  obtain ⟨t, after, rfl, ht⟩ := head_of_isAt hend
  rcases List.append_eq_append_iff.mp h with ⟨more, rfl, hmore⟩ | ⟨more, rfl, hmore⟩
  · cases more with
    | nil => simpa using hmore.symm
    | cons u more =>
      obtain ⟨-, hnil⟩ := List.cons.inj hmore
      simp at hnil
  · cases more with
    | nil => simpa using hmore
    | cons u more =>
      obtain ⟨rfl, -⟩ := List.cons.inj hmore
      exact absurd ht (hts t (by simp))

theorem declarations_iff_derives {eof : Token} (hts : ∀ t ∈ ts, t.kind ≠ .endOfInput) (heof : eof.kind = .endOfInput)
    {nodes : List Node} : (∃ rest, declarations (ts ++ [eof]) = .ok nodes rest) ↔ FileRule ts nodes := by
  constructor
  · rintro ⟨rest, hok⟩
    obtain ⟨hend, taken, htaken, hfile⟩ := declarations_reads (closed_append heof) hok
    obtain ⟨rfl, -⟩ := eq_of_append_end hts hend htaken
    exact hfile
  · rintro ⟨ofItems⟩
    exact ⟨[eof], (declarations_ok heof ofItems).1⟩

end Parser

open Grammar

theorem parse_eq_ok_iff {tokens : List Token} {file : FileNode} :
    parse tokens = .ok file ↔
      (∃ rest, Parser.declarations tokens = .ok file.declarations rest) ∧ file.position = fileStart tokens := by
  obtain ⟨declarations, position⟩ := file
  unfold parse
  split
  · rename_i nodes rest hok
    rw [hok]
    constructor
    · intro h
      cases h
      exact ⟨⟨rest, rfl⟩, rfl⟩
    · rintro ⟨⟨rest', hrest⟩, rfl⟩
      cases hrest
      rfl
  · rename_i fault rest hfault
    rw [hfault]
    exact iff_of_false (fun h => by cases h) fun ⟨⟨_, h⟩, _⟩ => by cases h

/-- The parser accepts what the grammar derives, and no other tokens: it gives the tree of the derivation, and a fault
    where there is none. --/
theorem parse_iff_derives {ts : List Token} {eof : Token} (hts : ∀ t ∈ ts, t.kind ≠ .endOfInput)
    (heof : eof.kind = .endOfInput) :
    (∀ file, parse (ts ++ [eof]) = .ok file ↔
      FileRule ts file.declarations ∧ file.position = fileStart (ts ++ [eof])) ∧
    ((∃ fault, parse (ts ++ [eof]) = .error fault) ↔ ¬∃ nodes, FileRule ts nodes) := by
  have haccepts : ∀ file, parse (ts ++ [eof]) = .ok file ↔
      FileRule ts file.declarations ∧ file.position = fileStart (ts ++ [eof]) := fun file => by
    rw [parse_eq_ok_iff, Parser.declarations_iff_derives hts heof]
  refine ⟨haccepts, ?_⟩
  constructor
  · rintro ⟨fault, hfault⟩ ⟨nodes, hnodes⟩
    cases hfault.symm.trans ((haccepts ⟨nodes, _⟩).mpr ⟨hnodes, rfl⟩)
  · intro hnone
    cases hparse : parse (ts ++ [eof]) with
    | ok file => exact absurd ⟨_, ((haccepts file).mp hparse).1⟩ hnone
    | error fault => exact ⟨fault, rfl⟩

/-! A class with a base and one field, and a variable that is marked as a function. -/

def fieldTokens : List Token :=
  [⟨.keyword, "class", ⟨1, 1⟩⟩, ⟨.identifier, "A", ⟨1, 7⟩⟩, ⟨.colon, ":", ⟨1, 9⟩⟩, ⟨.identifier, "B", ⟨1, 11⟩⟩,
    ⟨.leftBrace, "\x7b", ⟨1, 13⟩⟩, ⟨.identifier, "int", ⟨2, 5⟩⟩, ⟨.star, "*", ⟨2, 8⟩⟩, ⟨.identifier, "x", ⟨2, 10⟩⟩,
    ⟨.atSign, "@", ⟨2, 12⟩⟩, ⟨.number, "0x4", ⟨2, 14⟩⟩, ⟨.semicolon, ";", ⟨2, 17⟩⟩, ⟨.rightBrace, "\x7d", ⟨3, 1⟩⟩,
    ⟨.semicolon, ";", ⟨3, 2⟩⟩]

def staticTokens : List Token :=
  [⟨.keyword, "static", ⟨1, 1⟩⟩, ⟨.identifier, "int", ⟨1, 8⟩⟩, ⟨.identifier, "x", ⟨1, 12⟩⟩, ⟨.semicolon, ";", ⟨1, 13⟩⟩]

theorem parse_iff_derives_field :
    (∀ t ∈ fieldTokens, t.kind ≠ .endOfInput) ∧ (∀ t ∈ staticTokens, t.kind ≠ .endOfInput) ∧
    FileRule fieldTokens [.ofClass ⟨"A", ["B"],
      [.ofVariable ⟨"x", ⟨"int", 1, ⟨2, 5⟩⟩, some ⟨"0x4", ⟨2, 14⟩⟩, ⟨2, 5⟩⟩], ⟨1, 1⟩⟩] ∧
    ¬∃ nodes, FileRule staticTokens nodes := by
  have hfield : ∀ t ∈ fieldTokens, t.kind ≠ .endOfInput := by decide
  have hstatic : ∀ t ∈ staticTokens, t.kind ≠ .endOfInput := by decide
  let eof : Token := ⟨.endOfInput, "", ⟨3, 3⟩⟩
  have hparse : parse (fieldTokens ++ [eof]) = .ok ⟨[.ofClass ⟨"A", ["B"],
      [.ofVariable ⟨"x", ⟨"int", 1, ⟨2, 5⟩⟩, some ⟨"0x4", ⟨2, 14⟩⟩, ⟨2, 5⟩⟩], ⟨1, 1⟩⟩], ⟨1, 1⟩⟩ := by
    with_unfolding_all rfl
  have hfault : parse (staticTokens ++ [eof]) = .error ⟨.modifiedVariable "static", staticTokens.head?⟩ := by
    with_unfolding_all rfl
  exact ⟨hfield, hstatic, (((parse_iff_derives hfield rfl).1 _).mp hparse).1,
    (parse_iff_derives hstatic rfl).2.mp ⟨_, hfault⟩⟩

end Overlay
