import Overlay.Proofs.Build.Faithful
import Overlay.Proofs.Program.Renumbered
import Overlay.Proofs.Tree.Renumbered

/-! Builds of renumbered trees. A renumbered tree stands for the renumbered program, and its build finds the same faults
    at the same sites with renumbered lines. -/

namespace Overlay

section
variable (g : Int → Int)

def BuildFault.renumber : BuildFault → BuildFault
  | .inconsistent cause line => .inconsistent cause (g line)
  | .mistaken cause line => .mistaken cause (g line)
  | .unbound declaration line => .unbound declaration (g line)
  | fault => fault

def Site.renumber (site : Site) : Site :=
  ⟨site.owner.map (ClassNode.renumber g), site.earlier.map (Node.renumber g), site.node.renumber g⟩

/-! ### Translation -/

theorem ClassNode.renumber_eq (c : ClassNode) :
    c.renumber g = ⟨c.name, c.bases, c.members.map (Node.renumber g), c.position.renumber g⟩ := by
  obtain ⟨name, bases, members, p⟩ := c
  rw [ClassNode.renumber, Node.renumberAll_eq]

theorem FileNode.renumber_declarations (file : FileNode) :
    (file.renumber g).declarations = file.declarations.map (Node.renumber g) := by
  obtain ⟨declarations, p⟩ := file
  rw [FileNode.renumber, Node.renumberAll_eq]

theorem FunctionNode.toFunction_renumber (f : FunctionNode) : (f.renumber g).toFunction = f.toFunction.renumber g := by
  obtain ⟨name, returnType, parameters, modifier, callingConvention, address, position⟩ := f
  simp only [FunctionNode.renumber, toFunction, Function.renumber, List.map_map, Option.map_map]
  rfl

theorem VariableNode.toVariable_renumber (v : VariableNode) : (v.renumber g).toVariable = v.toVariable.renumber g := by
  obtain ⟨name, type, address, position⟩ := v
  simp only [VariableNode.renumber, toVariable, Variable.renumber, Option.map_map]
  rfl

theorem Node.toMember?_renumber (n : Node) : (n.renumber g).toMember? = n.toMember?.map (Declaration.renumber g) := by
  cases n with
  | ofFunction f => exact congrArg (fun f => some (Declaration.ofFunction f)) (f.toFunction_renumber g)
  | ofVariable v => exact congrArg (fun v => some (Declaration.ofVariable v)) (v.toVariable_renumber g)
  | _ => rfl

theorem toMembers_renumber (ns : List Node) : (ns.map (Node.renumber g)).filterMap Node.toMember? =
    (ns.filterMap Node.toMember?).map (Declaration.renumber g) := by
  rw [List.filterMap_map, List.map_filterMap]
  exact congrArg (List.filterMap · ns) (funext (Node.toMember?_renumber g))

theorem ClassNode.upTo_renumber (c : ClassNode) (ns : List Node) :
    (c.renumber g).upTo (ns.map (Node.renumber g)) = (c.upTo ns).renumber g := by
  rw [Class.renumber_eq, renumber_eq, upTo, toMembers_renumber]
  rfl

theorem Node.toDeclaration?_renumber (n : Node) :
    (n.renumber g).toDeclaration? = n.toDeclaration?.map (Declaration.renumber g) := by
  cases n with
  | ofClass c =>
    have hclass : (c.renumber g).toClass = c.toClass.renumber g := by
      rw [ClassNode.toClass, ClassNode.toClass, ← c.upTo_renumber g, c.renumber_eq g]
    exact congrArg (fun c => some (Declaration.ofClass c)) hclass
  | ofFunction f => exact Node.toMember?_renumber g (.ofFunction f)
  | ofVariable v => exact Node.toMember?_renumber g (.ofVariable v)
  | _ => rfl

theorem FileNode.program_renumber (file : FileNode) : (file.renumber g).program = file.program.renumber g := by
  rw [program, renumber_declarations, List.filterMap_map, program, Program.renumber, List.map_filterMap]
  exact congrArg (Program.mk <| List.filterMap · file.declarations) (funext (Node.toDeclaration?_renumber g))

/-! ### Sites -/

theorem Node.toClass?_renumber (n : Node) : (n.renumber g).toClass? = n.toClass?.map (ClassNode.renumber g) := by
  cases n <;> rfl

theorem functionFault?_renumber (owner : Option Class) (f : Function) :
    Build.functionFault? (owner.map (Class.renumber g)) (f.renumber g) =
      (Build.functionFault? owner f).map (BuildFault.renumber g) := by
  cases owner with
  | none =>
    change (if f.modifier != .plain then _ else if f.address.isNone then _ else _) = _
    unfold Build.functionFault?
    dsimp only
    split
    · rfl
    · split <;> rfl
  | some c =>
    change (if !f.isVirtual && f.address.isNone then _ else _) = _
    unfold Build.functionFault?
    dsimp only
    rw [Class.renumber_name]
    split <;> rfl

theorem variableFault?_renumber (owner : Option Class) (v : Variable) :
    Build.variableFault? (owner.map (Class.renumber g)) (v.renumber g) =
      (Build.variableFault? owner v).map (BuildFault.renumber g) := by
  cases owner with
  | none =>
    change (if v.offset.isNone then _ else _) = _
    unfold Build.variableFault?
    dsimp only
    split <;> rfl
  | some c =>
    change (if (c.renumber g).fields.isEmpty && v.offset.isNone then _ else _) = _
    unfold Build.variableFault?
    dsimp only
    rw [Class.renumber_name, Class.fields_renumber, List.isEmpty_map]
    split <;> rfl

theorem fault?_renumber (owner : Option Class) (d : Declaration) :
    Build.fault? (owner.map (Class.renumber g)) (d.renumber g) = (Build.fault? owner d).map (BuildFault.renumber g) := by
  cases d with
  | ofFunction f => exact functionFault?_renumber g owner f
  | ofVariable v => exact variableFault?_renumber g owner v
  | _ => rfl

theorem any_name_renumber (earlier : List Node) (name : String) :
    ((earlier.map (Node.renumber g)).filterMap Node.toClass?).any (·.name == name) =
      (earlier.filterMap Node.toClass?).any (·.name == name) := by
  have hclasses : (earlier.map (Node.renumber g)).filterMap Node.toClass? =
      (earlier.filterMap Node.toClass?).map (ClassNode.renumber g) := by
    rw [List.filterMap_map, List.map_filterMap]
    exact congrArg (List.filterMap · earlier) (funext (Node.toClass?_renumber g))
  rw [hclasses, List.any_map]
  refine congrArg (List.any _) (funext fun c => ?_)
  rw [Function.comp_apply, c.renumber_eq g]

/-- The fault of a member of a class, or of a declaration outside of classes that is no class. --/
theorem memberFault?_renumber (owner : Option ClassNode) (earlier : List Node) (n : Node) :
    (n.renumber g).toMember?.bind
        (Build.fault? ((owner.map (ClassNode.renumber g)).map (·.upTo (earlier.map (Node.renumber g))))) =
      (n.toMember?.bind (Build.fault? (owner.map (·.upTo earlier)))).map (BuildFault.renumber g) := by
  have howner : (owner.map (ClassNode.renumber g)).map (·.upTo (earlier.map (Node.renumber g))) =
      (owner.map (·.upTo earlier)).map (Class.renumber g) := by
    cases owner with
    | none => rfl
    | some c => exact congrArg some (c.upTo_renumber g earlier)
  rw [howner, Node.toMember?_renumber]
  cases n.toMember? with
  | none => rfl
  | some d => exact fault?_renumber g _ d

theorem Site.fault?_renumber (site : Site) : (site.renumber g).fault? = site.fault?.map (BuildFault.renumber g) := by
  obtain ⟨owner, earlier, n⟩ := site
  have hmember := memberFault?_renumber g owner earlier n
  cases owner with
  | some c => cases n <;> exact hmember
  | none =>
    cases n with
    | ofClass c =>
      unfold Site.renumber Site.fault?
      simp only [Option.map_none, Node.renumber, c.renumber_eq g, any_name_renumber]
      split <;> rfl
    | _ => exact hmember

theorem ClassNode.sitesFrom_renumber (c : ClassNode) : ∀ earlier ns : List Node,
    (c.renumber g).sitesFrom (earlier.map (Node.renumber g)) (ns.map (Node.renumber g)) =
      (c.sitesFrom earlier ns).map (Site.renumber g)
  | _, [] => rfl
  | earlier, n :: ns => by
    have hrest := c.sitesFrom_renumber (earlier ++ [n]) ns
    rw [List.map_append] at hrest
    rw [List.map_cons, sitesFrom, sitesFrom, List.map_cons, ← hrest]
    rfl

theorem Node.innerSites_renumber (n : Node) : (n.renumber g).innerSites = n.innerSites.map (Site.renumber g) := by
  cases n with
  | ofClass c =>
    change (c.renumber g).sitesFrom [] (c.renumber g).members = _
    have hmembers : (c.renumber g).members = c.members.map (Node.renumber g) := by rw [c.renumber_eq g]
    rw [hmembers]
    exact c.sitesFrom_renumber g [] c.members
  | _ => rfl

theorem sitesFrom_renumber : ∀ earlier ns : List Node,
    sitesFrom (earlier.map (Node.renumber g)) (ns.map (Node.renumber g)) =
      (sitesFrom earlier ns).map (Site.renumber g)
  | _, [] => rfl
  | earlier, n :: ns => by
    have hrest := sitesFrom_renumber (earlier ++ [n]) ns
    rw [List.map_append] at hrest
    rw [List.map_cons, sitesFrom, sitesFrom, List.map_cons, List.map_append, ← hrest, n.innerSites_renumber g]
    rfl

/-! ### Well-formed trees -/

theorem Node.MemberFormed.renumber {n : Node} (h : n.MemberFormed) : (n.renumber g).MemberFormed := by
  have haddress : ∀ {address : Option Address}, (∀ a, address = some a → IsAddressLiteral a.text) →
      ∀ a, address.map (Address.renumber g) = some a → IsAddressLiteral a.text := by
    intro address hall a ha
    obtain ⟨b, hb, rfl⟩ := Option.map_eq_some_iff.mp ha
    exact hall b hb
  cases n with
  | ofFunction f => exact ⟨h.modifier, haddress h.address⟩
  | ofVariable v => exact haddress h
  | ofRawBlock r => exact h
  | _ => exact h.elim

theorem Node.WellFormed.renumber {n : Node} (h : n.WellFormed) : (n.renumber g).WellFormed := by
  cases n with
  | ofClass c =>
    intro n hn
    rw [c.renumber_eq g] at hn
    obtain ⟨m, hm, rfl⟩ := List.mem_map.mp hn
    exact (h m hm).renumber g
  | _ => exact (Node.MemberFormed.renumber g (by exact h)).wellFormed

theorem FileNode.WellFormed.renumber {file : FileNode} (h : file.WellFormed) : (file.renumber g).WellFormed := by
  intro n hn
  rw [file.renumber_declarations g] at hn
  obtain ⟨m, hm, rfl⟩ := List.mem_map.mp hn
  exact (h m hm).renumber g

end

/-- The build of a renumbered tree is the renumbered build. --/
theorem build_renumber (g : Int → Int) (strict : Bool) {file : FileNode} (h : file.WellFormed) :
    (build strict ((file.renumber g).events none)).program =
      ((build strict (file.events none)).program.map (Program.renumber g)).mapError (BuildFault.renumber g) := by
  have hfirst : (file.renumber g).sites.findSome? Site.fault? =
      (file.sites.findSome? Site.fault?).map (BuildFault.renumber g) := by
    have hsites := sitesFrom_renumber g [] file.declarations
    rw [FileNode.sites, file.renumber_declarations g, FileNode.sites]
    rw [List.map_nil] at hsites
    rw [hsites, List.findSome?_map, List.map_findSome?]
    exact congrArg (List.findSome? · _) (funext (Site.fault?_renumber g))
  rw [build_program strict h, build_program strict (h.renumber g), hfirst, file.program_renumber g]
  cases file.sites.findSome? Site.fault? <;> rfl

end Overlay
