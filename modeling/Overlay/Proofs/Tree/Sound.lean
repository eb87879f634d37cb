import Overlay.Proofs.Tree.Derivation

/-! What the parser takes, the grammar derives. A part of the parser that succeeds has taken tokens off the front of
    those that were left, and a rule derives what it gives from the tokens that it has taken. The end of input is never
    taken, so the parser always stands at one of the tokens. -/

namespace Overlay
namespace Parser
open Grammar
variable {α β : Type} {ts rest : List Token}

/-! ### Tokens that are left -/

/-- Tokens that end with the end of input. --/
def Closed (ts : List Token) : Prop := ∃ t, ts.getLast? = some t ∧ t.kind = .endOfInput

/-- The parser moves on from every token but the end of input. --/
theorem Closed.next {t : Token} (h : Closed (t :: ts)) (ht : t.kind ≠ .endOfInput) :
    Parser.next (t :: ts) = ts ∧ Closed ts := by
  obtain ⟨last, hlast, hkind⟩ := h
  cases ts with
  | nil =>
    obtain rfl : t = last := by simpa using hlast
    exact absurd hkind ht
  | cons u us => exact ⟨rfl, last, by rwa [List.getLast?_cons_cons] at hlast, hkind⟩

/-- The rule derives what the parser gives, from the tokens that it takes. --/
def Reads (p : Parser α) (rule : Rule α) : Prop :=
  ∀ ts a rest, Closed ts → p ts = .ok a rest → Closed rest ∧ ∃ taken, ts = taken ++ rest ∧ rule taken a

/-- The rule derives what the parser gives, where the tokens that are left fulfil `more`. --/
def ReadsWhile (more : List Token → Bool) (p : Parser α) (rule : Rule α) : Prop :=
  ∀ ts a rest, Closed ts → more ts = true → p ts = .ok a rest →
    Closed rest ∧ ∃ taken, ts = taken ++ rest ∧ rule taken a

theorem Reads.while {more : List Token → Bool} {p : Parser α} {rule : Rule α} (h : Reads p rule) :
    ReadsWhile more p rule := fun ts a rest hts _ => h ts a rest hts

/-! ### Composed parsers -/

section
variable {p : Parser α} {rule : Rule β}

theorem reads_pure {b : β} (h : rule [] b) : Reads (pure b) rule := by
  intro ts a rest hts hok
  cases hok
  exact ⟨hts, [], rfl, h⟩

theorem reads_bind {first : Rule α} {f : α → Parser β} (hp : Reads p first)
    (hf : ∀ taken a, first taken a → Reads (f a) fun us b => rule (taken ++ us) b) : Reads (p >>= f) rule := by
  intro ts b rest hts hok
  change EStateM.bind p f ts = .ok b rest at hok
  unfold EStateM.bind at hok
  split at hok
  · rename_i a middle hmiddle
    obtain ⟨hclosed, taken, rfl, hfirst⟩ := hp ts a middle hts hmiddle
    obtain ⟨hrest, more, rfl, hrule⟩ := hf taken a hfirst middle b rest hclosed hok
    exact ⟨hrest, taken ++ more, (List.append_assoc _ _ _).symm, hrule⟩
  · cases hok

theorem reads_map {f : α → β} (hp : Reads p fun taken a => rule taken (f a)) : Reads (f <$> p) rule := by
  intro ts b rest hts hok
  change EStateM.map f p ts = .ok b rest at hok
  unfold EStateM.map at hok
  split at hok
  · rename_i a middle hmiddle
    cases hok
    exact hp ts a _ hts hmiddle
  · cases hok

theorem reads_ite {c : Prop} [Decidable c] {p q : Parser β} (hp : c → Reads p rule) (hq : ¬c → Reads q rule) :
    Reads (if c then p else q) rule := by
  by_cases hc : c
  · rw [if_pos hc]
    exact hp hc
  · rw [if_neg hc]
    exact hq hc

theorem reads_throw {fault : ParseFault} : Reads (throw fault : Parser β) rule := fun _ _ _ _ hok => nomatch hok

theorem Reads.mono {p : Parser β} {strong : Rule β} (hp : Reads p strong)
    (h : ∀ taken b, strong taken b → rule taken b) : Reads p rule := fun ts b rest hts hok =>
  (hp ts b rest hts hok).imp_right fun ⟨taken, heq, htaken⟩ => ⟨taken, heq, h taken b htaken⟩

end

/-! ### Single tokens -/

theorem reads_expectWhere {fits : Token → Bool} {what : Expected} (hfits : ∀ t, fits t = true → t.kind ≠ .endOfInput) :
    Reads (expectWhere fits what) fun taken t => taken = [t] ∧ fits t = true := by
  intro ts t rest hts hok
  unfold expectWhere at hok
  split at hok
  · cases hok
  · rename_i u hhead
    split at hok
    · rename_i hu
      obtain ⟨us, rfl⟩ := List.head?_eq_some_iff.mp hhead
      obtain ⟨hnext, hclosed⟩ := hts.next (hfits u hu)
      cases hok
      rw [hnext]
      exact ⟨hclosed, [_], rfl, rfl, hu⟩
    · cases hok

theorem reads_expect {kind : TokenKind} (hkind : kind ≠ .endOfInput) {what : Expected} :
    Reads (expect kind what) fun taken t => taken = [t] ∧ t.kind = kind := by
  have hfits : ∀ t : Token, (t.kind == kind) = true → t.kind ≠ .endOfInput := fun t ht => by
    rw [beq_iff_eq.mp ht]
    exact hkind
  exact (reads_expectWhere hfits).mono fun taken t ⟨htaken, ht⟩ => ⟨htaken, beq_iff_eq.mp ht⟩

theorem head_of_isAt {kind : TokenKind} (h : isAt kind ts = true) : ∃ t us, ts = t :: us ∧ t.kind = kind := by
  cases ts with
  | nil => cases h
  | cons t us => exact ⟨t, us, rfl, by simpa [isAt] using h⟩

theorem head_of_isAtKeyword {words : List String} (h : isAtKeyword words ts = true) :
    ∃ t us, ts = t :: us ∧ t.kind = .keyword ∧ t.text ∈ words := by
  cases ts with
  | nil => cases h
  | cons t us => exact ⟨t, us, rfl, by simpa [isAtKeyword, Token.isKeywordOf] using h⟩

theorem reads_moveOn {kind : TokenKind} (hkind : kind ≠ .endOfInput) :
    ReadsWhile (isAt kind) moveOn fun taken _ => ∃ t, taken = [t] ∧ t.kind = kind := by
  intro ts _ rest hts hat hok
  obtain ⟨t, us, rfl, ht⟩ := head_of_isAt hat
  obtain ⟨hnext, hclosed⟩ := hts.next (ht ▸ hkind)
  cases hok
  rw [hnext]
  exact ⟨hclosed, [t], rfl, t, rfl, ht⟩

/-- A token that may be there, and whether it is. --/
theorem reads_accept {kind : TokenKind} (hkind : kind ≠ .endOfInput) :
    Reads (accept kind) fun taken found =>
      (found = true ∧ ∃ t, taken = [t] ∧ t.kind = kind) ∨ (found = false ∧ taken = []) := by
  intro ts found rest hts hok
  unfold accept at hok
  split at hok
  · rename_i hat
    cases hok
    obtain ⟨hclosed, taken, heq, htaken⟩ := reads_moveOn hkind ts () _ hts hat rfl
    exact ⟨hclosed, taken, heq, Or.inl ⟨rfl, htaken⟩⟩
  · cases hok
    exact ⟨hts, [], rfl, Or.inr ⟨rfl, rfl⟩⟩

/-- What follows a token that may be there, and what stands in its place. --/
theorem reads_if_accept {kind : TokenKind} (hkind : kind ≠ .endOfInput) {found absent : Parser β} {rule : Rule β}
    (hfound : ∀ t : Token, t.kind = kind → Reads found fun us b => rule (t :: us) b) (habsent : Reads absent rule) :
    Reads (do if ← accept kind then found else absent) rule := by
  refine reads_bind (reads_accept hkind) ?_
  rintro taken _ (⟨rfl, t, rfl, ht⟩ | ⟨rfl, rfl⟩)
  · rw [if_pos rfl]
    exact hfound t ht
  · rw [if_neg Bool.false_ne_true]
    exact habsent

theorem reads_acceptKeyword {words : List String} : Reads (acceptKeyword words) (Opt (Keyword words)) := by
  intro ts found rest hts hok
  unfold acceptKeyword at hok
  split at hok
  · rename_i hat
    cases hok
    obtain ⟨t, us, rfl, ht, hword⟩ := head_of_isAtKeyword hat
    obtain ⟨hnext, hclosed⟩ := hts.next (by simp [ht])
    rw [hnext]
    exact ⟨hclosed, [t], rfl, .present (.intro ht hword)⟩
  · cases hok
    exact ⟨hts, [], rfl, .absent⟩

/-! ### Repetitions -/

/-- A repetition takes items until the tokens that are left do not fulfil `more`. --/
theorem repeatWhile_reads {more : List Token → Bool} {item : Parser α} {rule : Rule α}
    (hitem : ReadsWhile more item rule) (hne : ∀ taken a, rule taken a → taken ≠ []) :
    ∀ ts as rest, Closed ts → repeatWhile more item ts = .ok as rest →
      Closed rest ∧ more rest = false ∧ ∃ taken, ts = taken ++ rest ∧ Many rule taken as := by
  intro ts
  fun_induction repeatWhile more item ts with
  | case1 ts _ fault middle => exact fun _ _ _ hok => nomatch hok
  | case2 ts _ a middle hitemOk hlt fault final hfault ih => exact fun _ _ _ hok => nomatch hok
  | case3 ts hmore a middle hitemOk hlt as final hrest ih =>
    intro _ _ hts hok
    cases hok
    obtain ⟨hclosed, taken, rfl, hrule⟩ := hitem ts a middle hts hmore hitemOk
    obtain ⟨hfinal, hstop, others, rfl, hmany⟩ := ih as _ hclosed hrest
    exact ⟨hfinal, hstop, taken ++ others, (List.append_assoc _ _ _).symm, .cons hrule hmany⟩
  | case4 ts hmore a middle hitemOk hlt =>
    -- Every item takes at least one token, so a repetition never ends for the lack of one.
    intro _ _ hts hok
    obtain ⟨-, taken, rfl, hrule⟩ := hitem ts a middle hts hmore hitemOk
    exact absurd (List.length_pos_iff.mpr (hne taken a hrule)) (by simp at hlt ⊢; omega)
  | case5 ts hmore =>
    intro _ _ hts hok
    cases hok
    exact ⟨hts, by simpa using hmore, [], rfl, .nil⟩

theorem reads_repeatWhile {more : List Token → Bool} {item : Parser α} {rule : Rule α}
    (hitem : ReadsWhile more item rule) (hne : ∀ taken a, rule taken a → taken ≠ []) :
    Reads (repeatWhile more item) (Many rule) := fun ts as rest hts hok =>
  (repeatWhile_reads hitem hne ts as rest hts hok).imp_right fun ⟨_, htaken⟩ => htaken

theorem readsWhile_afterComma {p : Parser α} {rule : Rule α} (hp : Reads p rule) :
    ReadsWhile (isAt .comma) (do moveOn; p) (AfterComma rule) := by
  intro ts a rest hts hat hok
  obtain ⟨t, us, rfl, ht⟩ := head_of_isAt hat
  obtain ⟨hnext, hclosed⟩ := hts.next (by simp [ht])
  change p (next (t :: us)) = .ok a rest at hok
  rw [hnext] at hok
  obtain ⟨hrest, taken, rfl, hrule⟩ := hp us a rest hclosed hok
  exact ⟨hrest, t :: taken, rfl, .intro ht hrule⟩

/-- Items with commas between them, put together by `f`. --/
theorem reads_separated {p : Parser α} {rule : Rule α} (hp : Reads p rule) (f : List α → β) {whole : Rule β}
    (hf : ∀ ts as, Separated rule ts as → whole ts (f as)) :
    Reads (do
      let first ← p
      let others ← repeatWhile (isAt .comma) (do moveOn; p)
      return f (first :: others)) whole := by
  refine reads_bind hp fun ts first hfirst => ?_
  have hne : ∀ taken a, AfterComma rule taken a → taken ≠ [] := by
    rintro _ _ ⟨⟩
    exact List.cons_ne_nil _ _
  refine reads_bind (reads_repeatWhile (readsWhile_afterComma hp) hne) fun us others hothers => reads_pure ?_
  rw [List.append_nil]
  exact hf _ _ (.intro hfirst hothers)

/-! ### Types, parameters and addresses -/

theorem many_stars {as : List Unit}
    (h : Many (fun taken (_ : Unit) => ∃ t : Token, taken = [t] ∧ t.kind = .star) ts as) :
    as.length = ts.length ∧ ∀ t ∈ ts, t.kind = .star := by
  induction h with
  | nil => simp
  | cons first _ ih =>
    obtain ⟨t, rfl, ht⟩ := first
    obtain ⟨hlength, hall⟩ := ih
    exact ⟨by simp [hlength], List.forall_mem_cons.mpr ⟨ht, hall⟩⟩

theorem reads_typeName : Reads typeName TypeRule := by
  refine reads_bind (reads_expect (by decide)) ?_
  rintro _ name ⟨rfl, hname⟩
  refine reads_bind (reads_repeatWhile (reads_moveOn (by decide)) ?_) fun stars units hstars => reads_pure ?_
  · rintro _ _ ⟨t, rfl, -⟩
    exact List.cons_ne_nil _ _
  · obtain ⟨hlength, hall⟩ := many_stars hstars
    rw [List.append_nil, hlength]
    exact .intro hname hall

theorem reads_parameter : Reads parameter ParameterRule := by
  refine reads_bind reads_typeName fun ts type htype => reads_bind (reads_expect (by decide)) ?_
  rintro _ name ⟨rfl, hname⟩
  exact reads_pure (.intro htype hname)

theorem reads_parameters : Reads parameters (OptList (Separated ParameterRule)) := by
  intro ts ps rest hts hok
  unfold parameters at hok
  split at hok
  · cases hok
    exact ⟨hts, [], rfl, .absent⟩
  · exact reads_separated reads_parameter (fun ps => ps) (fun _ _ => .present) ts ps rest hts hok

theorem isHexadecimal_iff {text : String} : isHexadecimal text = true ↔ HexText text := by
  unfold isHexadecimal HexText
  split
  · rename_i d digits heq
    exact iff_of_true rfl ⟨'x', d :: digits, heq, Or.inl rfl, List.cons_ne_nil _ _⟩
  · rename_i d digits heq
    exact iff_of_true rfl ⟨'X', d :: digits, heq, Or.inr rfl, List.cons_ne_nil _ _⟩
  · rename_i hx hX
    refine iff_of_false Bool.false_ne_true ?_
    rintro ⟨x, digits, heq, hcase, hne⟩
    obtain ⟨d, digits, rfl⟩ := List.exists_cons_of_ne_nil hne
    rcases hcase with rfl | rfl
    · exact hx d digits heq
    · exact hX d digits heq

theorem reads_address : Reads address (Opt AddressRule) := by
  refine reads_if_accept (by decide) (fun sign hsign => ?_) (reads_pure .absent)
  refine reads_bind (reads_expect (by decide)) ?_
  rintro _ literal ⟨rfl, hliteral⟩
  exact reads_ite (fun hhex => reads_pure (.present (.intro hsign hliteral (isHexadecimal_iff.mp hhex))))
    fun _ => reads_throw

/-! ### Declarations -/

section
variable {modifier convention : Option Token} {type : TypeName} {name : Token} {ms us cs : List Token}

/-- What stands before the name of a function or variable has been taken as `ms`, `us` and `cs`. --/
theorem reads_functionAfter {leftParen : Token} (ofModifier : Opt (Keyword functionModifiers) ms modifier)
    (ofType : TypeRule us type) (ofConvention : Opt (Keyword callingConventions) cs convention)
    (isName : name.kind = .identifier) (opens : leftParen.kind = .leftParen) :
    Reads (functionAfter modifier type convention name) fun taken f =>
      FunctionRule (ms ++ us ++ cs ++ name :: leftParen :: taken) f := by
  refine reads_bind reads_parameters fun ps parameters ofParameters => reads_bind (reads_expect (by decide)) ?_
  rintro _ rightParen ⟨rfl, closes⟩
  refine reads_bind reads_address fun as address ofAddress => reads_bind (reads_expect (by decide)) ?_
  rintro _ semicolon ⟨rfl, ends⟩
  have h := FunctionRule.intro ofModifier ofType ofConvention isName opens ofParameters closes ofAddress ends
  refine reads_pure ?_
  simpa only [List.append_assoc, List.cons_append, List.nil_append, List.append_nil] using h

theorem reads_variableAfter (ofModifier : Opt (Keyword functionModifiers) ms modifier) (ofType : TypeRule us type)
    (ofConvention : Opt (Keyword callingConventions) cs convention) (isName : name.kind = .identifier) :
    Reads (variableAfter modifier type convention name) fun taken v =>
      VariableRule (ms ++ us ++ cs ++ name :: taken) v := by
  cases ofModifier with
  | present => exact fun _ _ _ _ hok => nomatch hok
  | absent =>
    cases ofConvention with
    | present => exact fun _ _ _ _ hok => nomatch hok
    | absent =>
      refine reads_bind reads_address fun as address ofAddress => reads_bind (reads_expect (by decide)) ?_
      rintro _ semicolon ⟨rfl, ends⟩
      have h := VariableRule.intro ofType isName ofAddress ends
      refine reads_pure ?_
      simpa only [List.append_assoc, List.cons_append, List.nil_append, List.append_nil] using h

theorem reads_functionOrVariable : Reads functionOrVariable DeclarationRule := by
  refine reads_bind reads_acceptKeyword fun ms modifier ofModifier => ?_
  refine reads_bind reads_typeName fun us type ofType => ?_
  refine reads_bind reads_acceptKeyword fun cs convention ofConvention => reads_bind (reads_expect (by decide)) ?_
  rintro _ name ⟨rfl, isName⟩
  refine reads_if_accept (by decide) (fun leftParen opens => ?_) ?_
  · refine reads_bind (reads_functionAfter ofModifier ofType ofConvention isName opens) fun taken f hf => reads_pure ?_
    refine .ofFunction ?_
    simpa only [List.append_assoc, List.cons_append, List.nil_append, List.append_nil] using hf
  · refine reads_bind (reads_variableAfter ofModifier ofType ofConvention isName) fun taken v hv => reads_pure ?_
    refine .ofVariable ?_
    simpa only [List.append_assoc, List.cons_append, List.nil_append, List.append_nil] using hv

end

theorem reads_declaration : Reads declaration DeclarationRule := by
  intro ts node rest hts hok
  unfold declaration at hok
  split at hok
  · rename_i t hhead
    split at hok
    · rename_i hkind
      have ht : t.kind = .rawBlock := by simpa using hkind
      obtain ⟨us, rfl⟩ := List.head?_eq_some_iff.mp hhead
      obtain ⟨hnext, hclosed⟩ := hts.next (by simp [ht])
      cases hok
      rw [hnext]
      exact ⟨hclosed, [t], rfl, .ofRawBlock ht⟩
    · exact reads_functionOrVariable ts node rest hts hok
  · exact reads_functionOrVariable ts node rest hts hok

/-! ### Classes and files -/

theorem reads_semicolon {node : Option Node} (hts : Closed ts) (hat : isAt .semicolon ts = true)
    (hok : (EStateM.Result.ok none (next ts) : EStateM.Result ParseFault (List Token) (Option Node)) = .ok node rest) :
    Closed rest ∧ ∃ taken, ts = taken ++ rest ∧ MemberRule taken node := by
  obtain ⟨t, us, rfl, ht⟩ := head_of_isAt hat
  obtain ⟨hnext, hclosed⟩ := hts.next (by simp [ht])
  cases hok
  rw [hnext]
  exact ⟨hclosed, [t], rfl, .ofSemicolon ht⟩

theorem reads_some_declaration : Reads (some <$> declaration) MemberRule :=
  reads_map (reads_declaration.mono fun _ _ h => .ofDeclaration h)

theorem reads_member {name : String} : Reads (member name) MemberRule := by
  intro ts node rest hts hok
  unfold member at hok
  split at hok
  · cases hok
  · split at hok
    · rename_i hat
      exact reads_semicolon hts hat hok
    · split at hok
      · cases hok
      · exact reads_some_declaration ts node rest hts hok

theorem reads_bases : Reads bases (OptList BasesRule) := by
  refine reads_if_accept (by decide) (fun colon hcolon => ?_) (reads_pure .absent)
  have hname : Reads (expect .identifier .baseName) (OfKind .identifier) :=
    (reads_expect (by decide)).mono fun _ _ ⟨htaken, hkind⟩ => htaken ▸ .intro hkind
  exact reads_separated hname (fun names => names.map (·.text)) fun _ _ hnames =>
    OptList.present (BasesRule.intro hcolon hnames)

theorem DeclarationRule.ne_nil {n : Node} (h : DeclarationRule ts n) : ts ≠ [] := by
  cases h with
  | ofFunction h => cases h; simp
  | ofVariable h => cases h; simp
  | ofRawBlock => simp

theorem MemberRule.ne_nil {n : Option Node} (h : MemberRule ts n) : ts ≠ [] := by
  cases h with
  | ofDeclaration h => exact DeclarationRule.ne_nil h
  | ofSemicolon => simp

theorem reads_classNode : Reads classNode ClassRule := by
  have hfits : ∀ t : Token, t.isKeyword classKeyword = true → t.kind ≠ .endOfInput := fun t ht => by
    simp only [Token.isKeyword, Bool.and_eq_true, beq_iff_eq] at ht
    simp [ht.1]
  refine reads_bind (reads_expectWhere hfits) ?_
  rintro _ opening ⟨rfl, hopening⟩
  have ofOpening : Keyword [classKeyword] [opening] opening := by
    simp only [Token.isKeyword, Bool.and_eq_true, beq_iff_eq] at hopening
    exact .intro hopening.1 (by simp [hopening.2])
  refine reads_bind (reads_expect (by decide)) ?_
  rintro _ name ⟨rfl, isName⟩
  refine reads_bind reads_bases fun bs bases ofBases => reads_bind (reads_expect (by decide)) ?_
  rintro _ leftBrace ⟨rfl, opens⟩
  refine reads_bind (reads_repeatWhile reads_member.while fun _ _ => MemberRule.ne_nil) fun ms members ofMembers => ?_
  refine reads_bind (reads_expect (by decide)) ?_
  rintro _ rightBrace ⟨rfl, closes⟩
  refine reads_bind (reads_accept (by decide)) fun es found hfound => reads_pure ?_
  obtain ⟨ending, ofEnding⟩ : ∃ ending, Opt (OfKind .semicolon) es ending := by
    rcases hfound with ⟨-, semicolon, rfl, hkind⟩ | ⟨-, rfl⟩
    · exact ⟨_, .present (.intro hkind)⟩
    · exact ⟨_, .absent⟩
  have h := ClassRule.intro ofOpening isName ofBases opens ofMembers closes ofEnding
  simpa only [List.append_assoc, List.cons_append, List.nil_append, List.append_nil] using h

theorem reads_topLevel : Reads topLevel ItemRule := by
  intro ts node rest hts hok
  unfold topLevel at hok
  split at hok
  · rename_i hat
    exact (reads_semicolon hts hat hok).imp_right fun ⟨taken, heq, h⟩ => ⟨taken, heq, .ofMember h⟩
  · split at hok
    · exact reads_map (reads_classNode.mono fun _ _ h => ItemRule.ofClass h) ts node rest hts hok
    · exact (reads_some_declaration.mono fun _ _ h => ItemRule.ofMember h) ts node rest hts hok

theorem ItemRule.ne_nil {n : Option Node} (h : ItemRule ts n) : ts ≠ [] := by
  cases h with
  | ofClass h =>
    cases h
    simp
  | ofMember h => exact MemberRule.ne_nil h

/-- Whether tokens are left for another item. --/
def atItem (ts : List Token) : Bool := !ts.isEmpty && !isAt .endOfInput ts

theorem declarations_eq_ok_iff {nodes : List Node} :
    declarations ts = .ok nodes rest ↔
      ∃ items, repeatWhile atItem topLevel ts = .ok items rest ∧ items.filterMap id = nodes := by
  change EStateM.bind (repeatWhile atItem topLevel) (fun items => pure (items.filterMap id)) ts = _ ↔ _
  unfold EStateM.bind
  split
  · rename_i items middle hmiddle
    refine ⟨fun hok => ?_, ?_⟩
    · cases hok
      exact ⟨items, hmiddle, rfl⟩
    · rintro ⟨items', hitems, rfl⟩
      cases hmiddle.symm.trans hitems
      rfl
  · rename_i hmiddle
    refine iff_of_false (fun hok => by cases hok) ?_
    rintro ⟨items, hitems, -⟩
    cases hmiddle.symm.trans hitems

/-- The declarations of a file are taken up to the end of input. --/
theorem declarations_reads {nodes : List Node} (hts : Closed ts) (hok : declarations ts = .ok nodes rest) :
    isAt .endOfInput rest = true ∧ ∃ taken, ts = taken ++ rest ∧ FileRule taken nodes := by
  obtain ⟨items, hitems, rfl⟩ := declarations_eq_ok_iff.mp hok
  obtain ⟨hclosed, hstop, taken, htaken, ofItems⟩ :=
    repeatWhile_reads reads_topLevel.while (fun _ _ => ItemRule.ne_nil) ts items rest hts hitems
  refine ⟨?_, taken, htaken, .intro ofItems⟩
  obtain ⟨t, ht, -⟩ := hclosed
  cases rest with
  | nil => cases ht
  | cons => simpa [atItem] using hstop

end Parser
end Overlay
