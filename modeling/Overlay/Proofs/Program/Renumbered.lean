import Overlay.Program.Views

/-! Programs with other lines. Renumbering changes the lines of declarations by one function and nothing else, so all
    views of a renumbered program are those of the program, renumbered. -/

namespace Overlay

section
variable (g : Int → Int)

/-! ### Renumbering -/

def Function.renumber (f : Function) : Function := { f with line := g f.line }

def Variable.renumber (v : Variable) : Variable := { v with line := g v.line }

def RawBlock.renumber (r : RawBlock) : RawBlock := { r with line := g r.line }

mutual

def Class.renumber : Class → Class
  | ⟨name, bases, members, line⟩ => ⟨name, bases, Declaration.renumberAll members, g line⟩

def Declaration.renumber : Declaration → Declaration
  | .ofClass c => .ofClass c.renumber
  | .ofFunction f => .ofFunction (f.renumber g)
  | .ofVariable v => .ofVariable (v.renumber g)
  | .ofRawBlock r => .ofRawBlock (r.renumber g)
  | .ofParameter p => .ofParameter p

def Declaration.renumberAll : List Declaration → List Declaration
  | [] => []
  | d :: ds => d.renumber :: Declaration.renumberAll ds

end

def Program.renumber (p : Program) : Program := ⟨p.declarations.map (Declaration.renumber g)⟩

theorem Declaration.renumberAll_eq (ds : List Declaration) : renumberAll g ds = ds.map (renumber g) := by
  induction ds with
  | nil => rfl
  | cons d ds ih => rw [renumberAll, ih, List.map_cons]

theorem Class.renumber_eq (c : Class) :
    c.renumber g = ⟨c.name, c.bases, c.members.map (Declaration.renumber g), g c.line⟩ := by
  obtain ⟨name, bases, members, line⟩ := c
  rw [Class.renumber, Declaration.renumberAll_eq]

@[simp] theorem Class.renumber_name (c : Class) : (c.renumber g).name = c.name := by rw [renumber_eq]

@[simp] theorem Class.renumber_bases (c : Class) : (c.renumber g).bases = c.bases := by rw [renumber_eq]

@[simp] theorem Class.renumber_members (c : Class) :
    (c.renumber g).members = c.members.map (Declaration.renumber g) := by rw [renumber_eq]

/-! ### Views -/

theorem Declaration.toClass?_renumber (d : Declaration) : (d.renumber g).toClass? = d.toClass?.map (Class.renumber g) := by
  cases d <;> rfl

theorem Declaration.toFunction?_renumber (d : Declaration) :
    (d.renumber g).toFunction? = d.toFunction?.map (Function.renumber g) := by
  cases d <;> rfl

theorem Declaration.toVariable?_renumber (d : Declaration) :
    (d.renumber g).toVariable? = d.toVariable?.map (Variable.renumber g) := by
  cases d <;> rfl

theorem filterMap_renumberAll {α : Type} {f : Declaration → Option α} {r : α → α}
    (hf : ∀ d, f (d.renumber g) = (f d).map r) (ds : List Declaration) :
    (ds.map (Declaration.renumber g)).filterMap f = (ds.filterMap f).map r := by
  rw [List.filterMap_map, List.map_filterMap]
  exact congrArg (List.filterMap · ds) (funext hf)

theorem Class.fields_renumber (c : Class) : (c.renumber g).fields = c.fields.map (Variable.renumber g) := by
  rw [fields, renumber_members, filterMap_renumberAll g (Declaration.toVariable?_renumber g)]
  rfl

theorem Class.allFunctions_renumber (c : Class) :
    (c.renumber g).allFunctions = c.allFunctions.map (Function.renumber g) := by
  rw [allFunctions, renumber_members, filterMap_renumberAll g (Declaration.toFunction?_renumber g)]
  rfl

theorem Class.virtualFunctions_renumber (c : Class) :
    (c.renumber g).virtualFunctions = c.virtualFunctions.map (Function.renumber g) := by
  rw [virtualFunctions, allFunctions_renumber, List.filter_map]
  rfl

theorem Class.hasVirtual_renumber (c : Class) : (c.renumber g).hasVirtual = c.hasVirtual := by
  rw [hasVirtual, allFunctions_renumber, List.any_map]
  rfl

theorem Program.classes_renumber (p : Program) : (p.renumber g).classes = p.classes.map (Class.renumber g) :=
  filterMap_renumberAll g (Declaration.toClass?_renumber g) p.declarations

end

end Overlay
