import Overlay.Program.Declaration

/-! Views of a model by the kind of its declarations. Each view keeps the order of the declarations. -/

namespace Overlay
namespace Declaration

/-! ### One kind -/

/-- The class that a declaration is. --/
def toClass? : Declaration → Option Class
  | .ofClass c => some c
  | _ => none

/-- The function that a declaration is. --/
def toFunction? : Declaration → Option Function
  | .ofFunction f => some f
  | _ => none

/-- The variable that a declaration is. --/
def toVariable? : Declaration → Option Variable
  | .ofVariable v => some v
  | _ => none

/-- The raw block that a declaration is. --/
def toRawBlock? : Declaration → Option RawBlock
  | .ofRawBlock r => some r
  | _ => none

theorem toClass?_eq_some_iff {d : Declaration} {c : Class} : d.toClass? = some c ↔ d = .ofClass c := by
  cases d <;> simp [toClass?]

theorem toFunction?_eq_some_iff {d : Declaration} {f : Function} : d.toFunction? = some f ↔ d = .ofFunction f := by
  cases d <;> simp [toFunction?]

theorem toVariable?_eq_some_iff {d : Declaration} {v : Variable} : d.toVariable? = some v ↔ d = .ofVariable v := by
  cases d <;> simp [toVariable?]

end Declaration

/-! ### Members of a class -/

namespace Class

/-- The fields. --/
def fields (c : Class) : List Variable := c.members.filterMap Declaration.toVariable?

theorem mem_fields {c : Class} {v : Variable} : v ∈ c.fields ↔ .ofVariable v ∈ c.members := by
  simp [fields, Declaration.toVariable?_eq_some_iff]

/-- The functions of all modifiers. --/
def allFunctions (c : Class) : List Function := c.members.filterMap Declaration.toFunction?

theorem mem_allFunctions {c : Class} {f : Function} : f ∈ c.allFunctions ↔ .ofFunction f ∈ c.members := by
  simp [allFunctions, Declaration.toFunction?_eq_some_iff]

/-- The functions called through an instance, other than the virtual ones. --/
def functions (c : Class) : List Function := c.allFunctions.filter (·.modifier == .plain)

/-- The virtual functions. --/
def virtualFunctions (c : Class) : List Function := c.allFunctions.filter Function.isVirtual

/-- The static functions. --/
def staticFunctions (c : Class) : List Function := c.allFunctions.filter Function.isStatic

/-- The raw blocks. --/
def rawBlocks (c : Class) : List RawBlock := c.members.filterMap Declaration.toRawBlock?

/-- Whether a member is virtual. --/
def hasVirtual (c : Class) : Bool := c.allFunctions.any Function.isVirtual

/-- The size of a class: where its last field ends, if the offset and the size of that field are known. --/
def size? (sizeOf : Variable → Option Int) (c : Class) : Option Int := do
  let last ← c.fields.getLast?
  let offset ← last.offset
  let size ← sizeOf last
  return offset + size

end Class

/-! ### Declarations of a program -/

namespace Program

/-- The classes. --/
def classes (p : Program) : List Class := p.declarations.filterMap Declaration.toClass?

theorem mem_classes {p : Program} {c : Class} : c ∈ p.classes ↔ .ofClass c ∈ p.declarations := by
  simp [classes, Declaration.toClass?_eq_some_iff]

/-- The free functions. --/
def functions (p : Program) : List Function := p.declarations.filterMap Declaration.toFunction?

theorem mem_functions {p : Program} {f : Function} : f ∈ p.functions ↔ .ofFunction f ∈ p.declarations := by
  simp [functions, Declaration.toFunction?_eq_some_iff]

/-- The free variables. --/
def globals (p : Program) : List Variable := p.declarations.filterMap Declaration.toVariable?

theorem mem_globals {p : Program} {v : Variable} : v ∈ p.globals ↔ .ofVariable v ∈ p.declarations := by
  simp [globals, Declaration.toVariable?_eq_some_iff]

/-- The raw blocks outside of classes. --/
def rawBlocks (p : Program) : List RawBlock := p.declarations.filterMap Declaration.toRawBlock?

/-- The first class of a name. --/
def class? (p : Program) (name : String) : Option Class := p.classes.find? (·.name == name)

end Program
end Overlay
