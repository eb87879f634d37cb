import Overlay.Proofs.Build.References

/-! How the functions of a source are spelled. Their names, and those of their parameters, are names as the lexer reads
    them; a type is a name with stars behind it; and a calling convention is one of the words for them. -/

namespace Overlay

/-- A text that is a type: a name and stars behind it. --/
def IsTypeText (text : String) : Prop := ∃ name count, IsName name ∧ text = withStars name count

/-- A function as sources spell it. --/
structure Function.Spelled (f : Function) : Prop where
  name : IsName f.name
  returnType : IsTypeText f.returnType
  parameters : ∀ p ∈ f.parameters, IsTypeText p.type ∧ IsName p.name
  convention : f.callingConvention = "" ∨ f.callingConvention ∈ callingConventions

/-! ### Functions that are derived -/

section
open Grammar
variable {ts : List Token} (names : ∀ t ∈ ts, t.kind = .identifier → IsName t.text)
include names

theorem TypeRule.isTypeText {type : TypeName} (h : TypeRule ts type) : IsTypeText type.text := by
  obtain ⟨isName, -⟩ := h
  exact ⟨_, _, names _ List.mem_cons_self isName, rfl⟩

theorem ParameterRule.spelled {p : ParameterNode} (h : ParameterRule ts p) :
    IsTypeText p.toParameter.type ∧ IsName p.toParameter.name := by
  obtain ⟨ofType, isName⟩ := h
  constructor
  · exact TypeRule.isTypeText (fun t ht => names t (List.mem_append_left _ ht)) ofType
  · exact names _ (List.mem_append_right _ List.mem_cons_self) isName

theorem parameters_spelled {ps : List ParameterNode} (h : OptList (Separated ParameterRule) ts ps) :
    ∀ p ∈ ps, IsTypeText p.toParameter.type ∧ IsName p.toParameter.name := by
  intro p hp
  cases h with
  | absent => cases hp
  | present ofItems =>
    obtain ⟨first, others⟩ := ofItems
    rcases List.mem_cons.mp hp with rfl | hp
    · exact ParameterRule.spelled (fun t ht => names t (List.mem_append_left _ ht)) first
    · obtain ⟨us, hus, hitem⟩ := Many.of_mem others hp
      obtain ⟨-, ofItem⟩ := hitem
      refine ParameterRule.spelled (fun t ht => names t (List.mem_append_right _ (hus ?_))) ofItem
      exact List.mem_cons_of_mem _ ht

theorem FunctionRule.spelled {f : FunctionNode} (h : FunctionRule ts f) : f.toFunction.Spelled := by
  obtain ⟨-, ofType, ofConvention, isName, -, ofParameters, -, -, -⟩ := h
  refine ⟨names _ (by simp) isName, TypeRule.isTypeText (fun t ht => names t (by simp [ht])) ofType, fun p hp => ?_, ?_⟩
  · obtain ⟨node, hnode, rfl⟩ := List.mem_map.mp hp
    exact parameters_spelled (fun t ht => names t (by simp [ht])) ofParameters node hnode
  · cases ofConvention with
    | absent => exact Or.inl rfl
    | present ofItem =>
      obtain ⟨-, isWord⟩ := ofItem
      exact Or.inr isWord

theorem DeclarationRule.spelled {f : FunctionNode} (h : DeclarationRule ts (.ofFunction f)) : f.toFunction.Spelled := by
  cases h with
  | ofFunction h => exact FunctionRule.spelled names h

end

/-! ### Functions of a program -/

/-- A function of a program that is built from a source: a free one, or one of the members of a class. --/
inductive Function.OfSource (f : Function) : Bool → Prop where
  | free {source : String} {file : FileNode} {strict : Bool} {p : Program}
      (parsed : parse (lex source).tokens = .ok file) (built : (build strict (file.events none)).program = .ok p)
      (mem : f ∈ p.functions) : OfSource f false
  | member {source : String} {file : FileNode} {strict : Bool} {p : Program} {c : Class}
      (parsed : parse (lex source).tokens = .ok file) (built : (build strict (file.events none)).program = .ok p)
      (ofClass : c ∈ p.classes) (mem : f ∈ c.allFunctions) : OfSource f true

namespace Function.OfSource
variable {f : Function} {isMember : Bool}

theorem spelled (h : f.OfSource isMember) : f.Spelled := by
  cases h with
  | free parsed built mem =>
    rw [program_of_build parsed built] at mem
    obtain ⟨n, hn, hdeclaration⟩ := List.mem_filterMap.mp (Program.mem_functions.mp mem)
    obtain ⟨ts, hts, hitem⟩ := itemRule_of_parse parsed hn
    have names : ∀ t ∈ ts, t.kind = .identifier → IsName t.text := fun t ht => isName_of_mem_lex (hts ht)
    cases n with
    | ofFunction node =>
      cases hdeclaration
      exact DeclarationRule.spelled names (ItemRule.declaration hitem nofun)
    | _ => cases hdeclaration
  | member parsed built ofClass mem =>
    obtain ⟨node, hnode, rfl⟩ := node_of_class parsed built ofClass
    obtain ⟨ts, hts, hclass⟩ := classRule_of_parse parsed hnode
    obtain ⟨n, hn, hmember⟩ := List.mem_filterMap.mp (Class.mem_allFunctions.mp mem)
    obtain ⟨us, hus, hrule⟩ := ClassRule.member hclass hn
    have names : ∀ t ∈ us, t.kind = .identifier → IsName t.text := fun t ht => isName_of_mem_lex (hts (hus ht))
    cases n with
    | ofFunction node =>
      cases hmember
      exact DeclarationRule.spelled names hrule
    | _ => cases hmember

/-- A function that is not virtual has an address, and a free one is not static. --/
theorem bound (h : f.OfSource isMember) (hvirtual : f.isVirtual = false) :
    f.address.isSome ∧ (isMember = false → f.isStatic = false) := by
  cases h with
  | free _ built mem =>
    obtain ⟨-, plain, address⟩ := (wellBound_of_build built).declarations _ (Program.mem_functions.mp mem)
    exact ⟨address, fun _ => by simp [isStatic, plain]⟩
  | member _ built ofClass mem =>
    have hclass : Class.WellBound _ := (wellBound_of_build built).declarations _ (Program.mem_classes.mp ofClass)
    obtain ⟨-, address⟩ := hclass.members _ (Class.mem_allFunctions.mp mem)
    exact ⟨address hvirtual, nofun⟩

end Function.OfSource
end Overlay
