import Mathlib.Data.List.DropRight
import Overlay.Proofs.Build.Through
import Overlay.Proofs.Tree.WellFormed

/-! Trees as programs. Every node stands for one declaration, whose parts are read off the node. A build goes through
    the events of a node to the declaration that the node stands for, unless something is missing there. -/

namespace Overlay

/-! ### Translation -/

/-- The number that an address denotes: the value of the digits after its `0x`. --/
def Address.value (a : Address) : Nat := Numeral.ofDigits 16 (a.text.toList.drop 2)

def ParameterNode.toParameter (p : ParameterNode) : Parameter := ⟨p.name, p.type.text⟩

def FunctionNode.toFunction (f : FunctionNode) : Function :=
  { Function.opened f.name f.position.line with
    returnType := f.returnType.text
    modifier := (f.modifier.bind Modifier.ofText?).getD .plain
    parameters := f.parameters.map ParameterNode.toParameter
    callingConvention := f.callingConvention.getD ""
    address := f.address.map Address.value }

def VariableNode.toVariable (v : VariableNode) : Variable :=
  { Variable.opened v.position.line with
    name := v.name
    type := v.type.text
    offset := v.address.map Address.value }

/-- The code of a raw block: what is left of its text without three characters at each end. --/
def RawBlockNode.toRawBlock (r : RawBlockNode) : RawBlock :=
  ⟨String.ofList ((r.text.toList.drop 3).rdrop 3), r.position.line⟩

/-- The declaration that a member of a class stands for. --/
def Node.toMember? : Node → Option Declaration
  | .ofFunction f => some (.ofFunction f.toFunction)
  | .ofVariable v => some (.ofVariable v.toVariable)
  | .ofRawBlock r => some (.ofRawBlock r.toRawBlock)
  | _ => none

/-- A class with the first of its members. --/
def ClassNode.upTo (c : ClassNode) (members : List Node) : Class :=
  ⟨c.name, c.bases, members.filterMap Node.toMember?, c.position.line⟩

def ClassNode.toClass (c : ClassNode) : Class := c.upTo c.members

/-- The declaration that a node of a file stands for. --/
def Node.toDeclaration? : Node → Option Declaration
  | .ofClass c => some (.ofClass c.toClass)
  | node => node.toMember?

/-- The program that a file stands for. --/
def FileNode.program (file : FileNode) : Program := ⟨file.declarations.filterMap Node.toDeclaration?⟩

namespace Build
variable {strict : Bool} {s : State}

/-! ### Types -/

theorem withStars_succ (name : String) {depth : Int} (h : 0 < depth) :
    withStars name (depth - 1) ++ "*" = withStars name depth := by
  obtain ⟨n, hn⟩ : ∃ n : Nat, depth.toNat = n + 1 := ⟨depth.toNat - 1, by omega⟩
  have hpred : (depth - 1).toNat = n := by omega
  rw [withStars, withStars, hpred, hn, String.pushn_eq_repeat_push, String.pushn_eq_repeat_push, Nat.repeat]
  have hstar : "*" = String.singleton '*' := rfl
  rw [hstar, String.append_singleton]

theorem through_ofType (t : TypeName) :
    through strict s (Event.ofType none t) = .ok { s with pending := some t.text } := by
  unfold Event.ofType TypeName.isPointer TypeName.text
  -- The type of a pointer is announced by its pointee, which lacks the last star.
  by_cases h : 0 < t.depth
  · rw [if_pos (by simpa using h), ← withStars_succ t.name h]
    rfl
  · have hname : withStars t.name t.depth = t.name := by
      rw [withStars, show t.depth.toNat = 0 by omega]
      rfl
    rw [if_neg (by simpa using h), hname]
    rfl

/-! ### Parts of a function -/

section
variable {f : Function}

theorem through_ofReturnType (t : TypeName) : through strict (s.openFrame (.ofFunction f)) (Event.ofReturnType none t) =
    .ok (s.openFrame (.ofFunction { f with returnType := t.text })) := rfl

theorem through_ofModifier (hplain : f.modifier = .plain) {modifier : Option String}
    (h : ∀ word, modifier = some word → word ∈ functionModifiers) (line : Int) :
    through strict (s.openFrame (.ofFunction f)) (.whole (Event.ofWord .ofModifier line modifier)) =
      .ok (s.openFrame (.ofFunction { f with modifier := (modifier.bind Modifier.ofText?).getD .plain })) := by
  cases f
  cases hplain
  cases modifier with
  | none => rfl
  | some word =>
    rcases List.mem_cons.mp (h word rfl) with rfl | hword
    · rfl
    · obtain rfl := List.mem_singleton.mp hword
      rfl

theorem through_ofConvention (hempty : f.callingConvention = "") (convention : Option String) (line : Int) :
    through strict (s.openFrame (.ofFunction f)) (.whole (Event.ofWord .ofConvention line convention)) =
      .ok (s.openFrame (.ofFunction { f with callingConvention := convention.getD "" })) := by
  cases f
  cases hempty
  cases convention with
  | none => rfl
  | some word =>
    unfold Event.ofWord
    by_cases h : word.isEmpty = true
    · rw [String.isEmpty_iff.mp h]
      rfl
    · simp only [h]
      rfl

theorem through_ofParameter (hpending : s.pending = none) (p : ParameterNode) :
    through strict (s.openFrame (.ofFunction f)) (Event.ofParameter none p) =
      .ok (s.openFrame (.ofFunction { f with parameters := f.parameters ++ [p.toParameter] })) := by
  obtain ⟨frames, pending, closed⟩ := s
  cases hpending
  unfold Event.ofParameter
  rw [through_append_ok (through_append_ok rfl _ |>.trans (through_ofType p.type))]
  rfl

theorem through_parameters (hpending : s.pending = none) (ps : List ParameterNode) :
    through strict (s.openFrame (.ofFunction f)) (Trail.concatMap (Event.ofParameter none) ps) =
      .ok (s.openFrame (.ofFunction { f with parameters := f.parameters ++ ps.map ParameterNode.toParameter })) := by
  induction ps generalizing f with
  | nil => rw [List.map_nil, List.append_nil]; rfl
  | cons p ps ih =>
    rw [Trail.concatMap, through_append_ok (through_ofParameter hpending p), ih, List.map_cons]
    simp

end

/-! ### Addresses -/

section
variable {address : Option Address} (h : ∀ a, address = some a → IsAddressLiteral a.text)

theorem bind?_value (a : Address) : bind? (a.value : Int) = .ok a.value := by
  rw [bind?, if_neg (by omega), Int.toNat_natCast]

theorem hexadecimal?_value {a : Address} (h : IsAddressLiteral a.text) :
    Numeral.hexadecimal? a.text = some (a.value : Int) := Numeral.hexadecimal?_of_isAddressLiteral h

include h

theorem through_functionAddress {f : Function} (hfree : f.address = none) :
    through strict (s.openFrame (.ofFunction f)) (.whole (Event.ofAddress address)) =
      .ok (s.openFrame (.ofFunction { f with address := address.map Address.value })) := by
  cases f
  cases hfree
  cases address with
  | none => rfl
  | some a =>
    have hbind (f : Function) : step strict (s.openFrame (.ofFunction f)) (.opens .ofAddress a.position.line a.text) =
        quietly (s.openFrame (.ofFunction { f with address := some a.value })) := by
      simp only [step, bindAddress, Event.opens, hexadecimal?_value (h a rfl), bind?_value, State.openFrame]
    exact through_cons_ok (hbind _) []

theorem through_variableAddress {v : Variable} (hfree : v.offset = none) :
    through strict (s.openFrame (.ofVariable v)) (.whole (Event.ofAddress address)) =
      .ok (s.openFrame (.ofVariable { v with offset := address.map Address.value })) := by
  cases v
  cases hfree
  cases address with
  | none => rfl
  | some a =>
    have hbind (v : Variable) : step strict (s.openFrame (.ofVariable v)) (.opens .ofAddress a.position.line a.text) =
        quietly (s.openFrame (.ofVariable { v with offset := some a.value })) := by
      simp only [step, bindAddress, Event.opens, hexadecimal?_value (h a rfl), bind?_value, State.openFrame]
    exact through_cons_ok (hbind _) []

end

/-! ### Whole declarations -/

/-- What a declaration that closes lacks in its class, or outside of classes. --/
def fault? (owner : Option Class) : Declaration → Option BuildFault
  | .ofFunction f => functionFault? owner f
  | .ofVariable v => variableFault? owner v
  | _ => none

/-- The state after a declaration that has closed, unless it lacks something. --/
def settle (s : State) (d : Declaration) : Except BuildFault State :=
  match fault? s.owner? d with
  | some fault => .error fault
  | none => .ok (s.add d)

theorem map_settled (missing : Option BuildFault) (d : Declaration) :
    (match missing with
      | some fault => .error fault
      | none => quietly (s.add d) : Step).map (·.1) =
    match missing with
      | some fault => .error fault
      | none => .ok (s.add d) := by
  cases missing <;> rfl

theorem closeFunction_eq (f : Function) :
    (closeFunction (s.openFrame (.ofFunction f))).map (·.1) = settle s (.ofFunction f) :=
  map_settled (functionFault? s.owner? f) (.ofFunction f)

theorem closeVariable_eq (hpending : s.pending = none) (v : Variable) (e : Event) (type : String) :
    (closeVariable (({ s with pending := some type }).openFrame (.ofVariable v)) e).map (·.1) =
      settle s (.ofVariable { v with name := e.text, type }) := by
  obtain ⟨frames, pending, closed⟩ := s
  cases hpending
  exact map_settled (s := ⟨frames, none, closed⟩) (variableFault? (State.owner? ⟨frames, none, closed⟩) _) _

theorem through_ofFunction (hpending : s.pending = none) (houtside : s.insideLeaf = false) {f : FunctionNode}
    (hf : f.WellFormed) : through strict s (Event.ofFunction none f) = settle s (.ofFunction f.toFunction) := by
  have hopen : step strict s (.opens .ofFunction f.position.line f.name) =
      quietly (s.openFrame (.ofFunction (.opened f.name f.position.line))) := by
    simp [step, openFunction, Event.opens, houtside]
  have hclose : through strict (s.openFrame (.ofFunction f.toFunction)) (.whole [.closes .ofFunction f.position.line ""]) =
      settle s (.ofFunction f.toFunction) := (through_single _).trans (closeFunction_eq _)
  have hmodifier := (through_cons_ok hopen _).trans (through_ofModifier rfl hf.modifier f.position.line)
  have htype := (through_append_ok hmodifier _).trans (through_ofReturnType f.returnType)
  have hconvention := (through_append_ok htype _).trans (through_ofConvention rfl f.callingConvention f.position.line)
  have hparameters := (through_append_ok hconvention _).trans (through_parameters hpending f.parameters)
  have haddress := (through_append_ok hparameters _).trans (through_functionAddress hf.address rfl)
  have hend := (through_append_ok haddress _).trans hclose
  rwa [Trail.append_assoc] at hend

theorem through_ofVariable (hpending : s.pending = none) (houtside : s.insideLeaf = false) {v : VariableNode}
    (hv : v.WellFormed) : through strict s (Event.ofVariable none v) = settle s (.ofVariable v.toVariable) := by
  have hopen : step strict s (.opens .ofVariable v.position.line "") =
      quietly (s.openFrame (.ofVariable (.opened v.position.line))) := by
    simp [step, openVariable, Event.opens, houtside]
  have hclose : ∀ w : Variable, through strict (({ s with pending := some v.type.text }).openFrame (.ofVariable w))
      (.whole [.closes .ofVariable v.position.line v.name]) =
        settle s (.ofVariable { w with name := v.name, type := v.type.text }) := fun w =>
    (through_single _).trans (closeVariable_eq hpending w (.closes .ofVariable v.position.line v.name) _)
  have htype := (through_append_ok (through_cons_ok hopen []) _).trans (through_ofType v.type)
  have haddress := (through_append_ok htype _).trans
    (through_variableAddress (s := { s with pending := some v.type.text }) hv rfl)
  have hend := (through_append_ok haddress _).trans (hclose _)
  rwa [Trail.append_assoc] at hend

theorem length_fence : Lexeme.fence.length = 3 := rfl

theorem drop_fence (code : List Char) : (Lexeme.fence ++ code ++ Lexeme.fence).drop 3 = code ++ Lexeme.fence := by
  rw [List.append_assoc]
  exact List.drop_left' length_fence

theorem rawCode?_fenced (code : List Char) : rawCode? (Lexeme.fence ++ code ++ Lexeme.fence) = some code := by
  have hprefix : Lexeme.fence.isPrefixOf (Lexeme.fence ++ code ++ Lexeme.fence) = true :=
    List.isPrefixOf_iff_prefix.mpr ⟨code ++ Lexeme.fence, (List.append_assoc ..).symm⟩
  have hsuffix : Lexeme.fence.isSuffixOf (Lexeme.fence ++ code ++ Lexeme.fence) = true :=
    List.isSuffixOf_iff_suffix.mpr ⟨Lexeme.fence ++ code, rfl⟩
  have hlength : (Lexeme.fence ++ code ++ Lexeme.fence).length = code.length + 6 := by
    simp only [List.length_append, length_fence]
    omega
  rw [rawCode?, hprefix, hsuffix, hlength, length_fence, drop_fence]
  simp

theorem toRawBlock_fenced {r : RawBlockNode} {code : List Char}
    (h : r.text.toList = Lexeme.fence ++ code ++ Lexeme.fence) :
    r.toRawBlock = ⟨String.ofList code, r.position.line⟩ := by
  have hback : (code ++ Lexeme.fence).rdrop 3 = code := by
    rw [List.rdrop, List.length_append, length_fence, Nat.add_sub_cancel, List.take_left]
  rw [RawBlockNode.toRawBlock, h, drop_fence, hback]

theorem through_ofRawBlock (houtside : s.insideLeaf = false) {r : RawBlockNode} (hr : IsFenced r.text) :
    through strict s (Event.ofRawBlock r) = settle s (.ofRawBlock r.toRawBlock) := by
  obtain ⟨code, hcode⟩ := hr
  have hraw : rawCode? r.text.toList = some code := by rw [hcode, rawCode?_fenced]
  have hstep : step strict s (.opens .ofRawBlock r.position.line r.text) =
      quietly (s.add (.ofRawBlock r.toRawBlock)) := by
    simp only [step, addRawBlock, Event.opens, hraw, houtside, toRawBlock_fenced hcode]
    rfl
  exact through_cons_ok hstep []

/-- The events of a member lead to the state with its declaration, unless something is missing there. --/
theorem through_ofMember (hpending : s.pending = none) (houtside : s.insideLeaf = false) {n : Node}
    (hn : n.MemberFormed) : ∃ d, n.toMember? = some d ∧ through strict s (Event.ofMember none n) = settle s d := by
  cases n with
  | ofFunction f => exact ⟨_, rfl, through_ofFunction hpending houtside hn⟩
  | ofVariable v => exact ⟨_, rfl, through_ofVariable hpending houtside hn⟩
  | ofRawBlock r => exact ⟨_, rfl, through_ofRawBlock houtside hn⟩
  | _ => exact hn.elim

end Build
end Overlay
