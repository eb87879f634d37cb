import Overlay.Proofs.Source.Shapes
import Overlay.Proofs.Tree.Yields

/-! The trees of sources. Their nodes stand only where the grammar has them, modifiers are the words for them, the
    texts of addresses are hexadecimal, and raw blocks have their fences. -/

namespace Overlay

/-- A function as the grammar writes it. --/
structure FunctionNode.WellFormed (f : FunctionNode) : Prop where
  modifier : ∀ word, f.modifier = some word → word ∈ functionModifiers
  address : ∀ a, f.address = some a → IsAddressLiteral a.text

/-- A variable as the grammar writes it. --/
def VariableNode.WellFormed (v : VariableNode) : Prop := ∀ a, v.address = some a → IsAddressLiteral a.text

/-- A member of a class as the grammar writes it. --/
def Node.MemberFormed : Node → Prop
  | .ofFunction f => f.WellFormed
  | .ofVariable v => v.WellFormed
  | .ofRawBlock r => IsFenced r.text
  | _ => False

/-- A declaration as the grammar writes it. --/
def Node.WellFormed : Node → Prop
  | .ofClass c => ∀ n ∈ c.members, n.MemberFormed
  | node => node.MemberFormed

theorem Node.MemberFormed.wellFormed {n : Node} (h : n.MemberFormed) : n.WellFormed := by
  cases n with
  | ofClass => exact h.elim
  | _ => exact h

/-- A file as the grammar writes it. --/
def FileNode.WellFormed (file : FileNode) : Prop := ∀ n ∈ file.declarations, n.WellFormed

namespace Parser

theorem yields_typeName : Yields Token.Shaped typeName fun _ => True :=
  yields_bind yields_expect fun _ _ => yields_bind (yields_repeatWhile yields_moveOn) fun _ _ => yields_pure trivial

theorem yields_parameter : Yields Token.Shaped parameter fun _ => True :=
  yields_bind yields_typeName fun _ _ => yields_bind yields_expect fun _ _ => yields_pure trivial

theorem yields_parameters : Yields Token.Shaped parameters fun _ => True := by
  intro ts ps rest hts hok
  unfold parameters at hok
  split at hok
  · cases hok
    exact ⟨trivial, hts⟩
  · have hitem : Yields Token.Shaped (do moveOn; parameter) fun _ => True :=
      yields_bind yields_moveOn fun _ _ => yields_parameter
    exact yields_bind (Q := fun _ => True) yields_parameter (fun first _ =>
      yields_bind (yields_repeatWhile hitem) fun others _ => yields_pure trivial) ts ps rest hts hok

theorem yields_address : Yields Token.Shaped address fun found => ∀ a, found = some a → IsAddressLiteral a.text := by
  refine yields_bind yields_accept fun found _ => yields_ite (fun _ => ?_) fun _ => yields_pure nofun
  refine yields_bind yields_expect fun literal hliteral => ?_
  refine yields_ite (fun hhexadecimal => yields_pure ?_) fun _ => yields_throw
  rintro a ⟨⟩
  exact hliteral.1.number hliteral.2 hhexadecimal

theorem yields_functionAfter {modifier convention : Option Token} {type : TypeName} {name : Token}
    (hmodifier : ∀ t, modifier = some t → t.text ∈ functionModifiers) :
    Yields Token.Shaped (functionAfter modifier type convention name) FunctionNode.WellFormed := by
  refine yields_bind yields_parameters fun _ _ => yields_bind yields_expect fun _ _ => ?_
  refine yields_bind yields_address fun found hfound => yields_bind yields_expect fun _ _ => yields_pure ⟨?_, hfound⟩
  intro word hword
  obtain ⟨t, ht, rfl⟩ := Option.map_eq_some_iff.mp hword
  exact hmodifier t ht

theorem yields_variableAfter {modifier convention : Option Token} {type : TypeName} {name : Token} :
    Yields Token.Shaped (variableAfter modifier type convention name) VariableNode.WellFormed := by
  unfold variableAfter
  cases modifier with
  | some t => exact fun _ _ _ _ hok => nomatch hok
  | none =>
    cases convention with
    | some t => exact fun _ _ _ _ hok => nomatch hok
    | none =>
      exact yields_bind yields_address fun found hfound => yields_bind yields_expect fun _ _ => yields_pure hfound

theorem yields_functionOrVariable : Yields Token.Shaped functionOrVariable Node.MemberFormed := by
  refine yields_bind yields_acceptKeyword fun modifier hmodifier => yields_bind yields_typeName fun type _ => ?_
  refine yields_bind yields_acceptKeyword fun convention _ => yields_bind yields_expect fun name _ => ?_
  refine yields_bind yields_accept fun _ _ => yields_ite (fun _ => ?_) fun _ => ?_
  · exact yields_bind (yields_functionAfter hmodifier) fun f hf => yields_pure hf
  · exact yields_bind yields_variableAfter fun v hv => yields_pure hv

theorem yields_declaration : Yields Token.Shaped declaration Node.MemberFormed := by
  intro ts node rest hts hok
  unfold declaration at hok
  split at hok
  · rename_i t hhead
    split at hok
    · rename_i hkind
      cases hok
      have ht := hts t (List.mem_of_head? hhead)
      exact ⟨ht.rawBlock (by simpa using hkind), fun t ht => hts t (mem_of_mem_next ht)⟩
    · exact yields_functionOrVariable ts node rest hts hok
  · exact yields_functionOrVariable ts node rest hts hok

theorem yields_member {name : String} :
    Yields Token.Shaped (member name) fun found => ∀ n, found = some n → n.MemberFormed := by
  intro ts found rest hts hok
  unfold member at hok
  split at hok
  · cases hok
  · split at hok
    · cases hok
      exact ⟨nofun, fun t ht => hts t (mem_of_mem_next ht)⟩
    · split at hok
      · cases hok
      · have hsome : Yields Token.Shaped (some <$> declaration) fun found => ∀ n, found = some n → n.MemberFormed := by
          refine yields_map (yields_declaration.mono fun n hn => ?_)
          rintro _ ⟨⟩
          exact hn
        exact hsome ts found rest hts hok

theorem yields_bases : Yields Token.Shaped bases fun _ => True := by
  refine yields_bind yields_accept fun _ _ => yields_ite (fun _ => ?_) fun _ => yields_pure trivial
  have hitem : Yields Token.Shaped (do moveOn; expect .identifier .baseName) fun _ => True :=
    yields_bind yields_moveOn fun _ _ => yields_expect.mono fun _ _ => trivial
  exact yields_bind yields_expect fun first _ => yields_bind (yields_repeatWhile hitem) fun _ _ => yields_pure trivial

theorem yields_classNode : Yields Token.Shaped classNode fun c => ∀ n ∈ c.members, n.MemberFormed := by
  refine yields_bind yields_expectWhere fun opening _ => yields_bind yields_expect fun name _ => ?_
  refine yields_bind yields_bases fun bases _ => yields_bind yields_expect fun _ _ => ?_
  refine yields_bind (yields_repeatWhile yields_member) fun members hmembers => yields_bind yields_expect fun _ _ => ?_
  refine yields_bind yields_accept fun _ _ => yields_pure fun n hn => ?_
  obtain ⟨found, hfound, hn⟩ := List.mem_filterMap.mp hn
  exact hmembers found hfound n hn

theorem yields_topLevel : Yields Token.Shaped topLevel fun found => ∀ n, found = some n → n.WellFormed := by
  intro ts found rest hts hok
  unfold topLevel at hok
  split at hok
  · cases hok
    exact ⟨nofun, fun t ht => hts t (mem_of_mem_next ht)⟩
  · split at hok
    · have hsome : Yields Token.Shaped ((fun node => some (Node.ofClass node)) <$> classNode) fun found =>
          ∀ n, found = some n → n.WellFormed := by
        refine yields_map (yields_classNode.mono fun c hc => ?_)
        rintro _ ⟨⟩
        exact hc
      exact hsome ts found rest hts hok
    · have hsome : Yields Token.Shaped (some <$> declaration) fun found => ∀ n, found = some n → n.WellFormed := by
        refine yields_map (yields_declaration.mono fun n hn => ?_)
        rintro _ ⟨⟩
        exact hn.wellFormed
      exact hsome ts found rest hts hok

theorem yields_declarations : Yields Token.Shaped declarations fun ns => ∀ n ∈ ns, n.WellFormed := by
  refine yields_bind (yields_repeatWhile yields_topLevel) fun items hitems => yields_pure fun n hn => ?_
  obtain ⟨found, hfound, hn⟩ := List.mem_filterMap.mp hn
  exact hitems found hfound n hn

end Parser

/-- The tree of a source is well formed. --/
theorem wellFormed_of_parse {source : String} {file : FileNode} (h : parse (lex source).tokens = .ok file) :
    file.WellFormed := by
  unfold parse at h
  split at h
  · rename_i declarations rest hok
    cases h
    exact (Parser.yields_declarations _ _ _ (fun t ht => shaped_of_mem_lex ht) hok).1
  · cases h

end Overlay
