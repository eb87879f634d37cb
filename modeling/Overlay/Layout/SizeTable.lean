import Overlay.Layout.Target
import Overlay.Program.Views
import Overlay.Text.Blank

/-! Sizes of types. A pointer and a primitive have the sizes of the target. A class has the size that was
    settled for it, or else ends with its last field, whose size is asked for in turn; on that way no class
    is asked for twice, so a class that contains itself has no size.

    `sizeOf?` is the size, and `query` gives it while it remembers the sizes of the classes on the way. -/

namespace Overlay

/-- What sizes are known: those of the target, the settled ones with the latest first, and the classes to
    compute others from. --/
structure SizeTable where
  target : Target
  classes : List Class
  settled : List (String × Option Int)

/-- The last class of a name. --/
def lastClass? (classes : List Class) (name : String) : Option Class := classes.reverse.find? (·.name == name)

/-- The classes of other names. --/
def otherClasses (classes : List Class) (name : String) : List Class := classes.filter (·.name != name)

theorem otherClasses_length_lt {classes : List Class} {name : String} {c : Class}
    (h : lastClass? classes name = some c) : (otherClasses classes name).length < classes.length := by
  have hmem : c ∈ classes := by simpa using List.mem_of_find?_eq_some h
  have hname : c.name = name := by simpa using List.find?_some h
  exact List.length_filter_lt_length_iff_exists.mpr ⟨c, hmem, by simp [hname]⟩

/-- The size of a variable whose type has the size `size`. --/
def Variable.sizeFrom (v : Variable) (size : Int) : Int :=
  match v.length with
  | some n => size * n
  | none => size

namespace SizeTable

/-- The sizes of a target, with no class. --/
def ofTarget (target : Target) : SizeTable := ⟨target, [], []⟩

/-- The sizes of a target and of the classes of a program. --/
def ofProgram (target : Target) (p : Program) : SizeTable := ⟨target, p.classes, []⟩

/-- Settles the size of a class. --/
def settle (s : SizeTable) (name : String) (size : Option Int) : SizeTable :=
  { s with settled := (name, size) :: s.settled }

/-- The size of a type that is not computed from a class. --/
def direct? (target : Target) (settled : List (String × Option Int)) (type : String) : Option (Option Int) :=
  if type.toList.getLast? = some '*' then some (some target.pointerSize)
  else match target.primitives.lookup type with
    | some size => some (some size)
    | none => settled.lookup type

/-! ### The size of a type -/

/-- The size of a type by the classes that are not yet asked for. --/
def sizeAmong (target : Target) (settled : List (String × Option Int)) (classes : List Class)
    (type : String) : Option Int :=
  let name := Text.strip type
  match direct? target settled name with
  | some size => size
  | none =>
    match _h : lastClass? classes name with
    | none => none
    | some c =>
      c.size? fun v => (sizeAmong target settled (otherClasses classes name) v.type).map v.sizeFrom
termination_by classes.length
decreasing_by exact otherClasses_length_lt _h

/-- The size of a type. --/
def sizeOf? (s : SizeTable) (type : String) : Option Int := sizeAmong s.target s.settled s.classes type

/-- The size of a variable, all of its elements together. --/
def sizeOfVariable? (s : SizeTable) (v : Variable) : Option Int := (s.sizeOf? v.type).map v.sizeFrom

/-! ### Sizes that are remembered -/

/-- The size of a type by the classes that are not yet asked for, and the settled sizes with those of the
    classes on the way. --/
def queryAmong (target : Target) (settled : List (String × Option Int)) (classes : List Class)
    (type : String) : Option Int × List (String × Option Int) :=
  let name := Text.strip type
  match direct? target settled name with
  | some size => (size, settled)
  | none =>
    match _h : lastClass? classes name with
    | none => (none, settled)
    | some c =>
      match c.fields.getLast? with
      | none => (none, (name, none) :: settled)
      | some last =>
        match last.offset with
        | none => (none, (name, none) :: settled)
        | some offset =>
          let (size, known) := queryAmong target settled (otherClasses classes name) last.type
          let total := size.map fun n => offset + last.sizeFrom n
          (total, (name, total) :: known)
termination_by classes.length
decreasing_by exact otherClasses_length_lt _h

/-- The size of a type, remembered with those of the classes on the way. --/
def query (s : SizeTable) (type : String) : Option Int × SizeTable :=
  let (size, settled) := queryAmong s.target s.settled s.classes type
  (size, { s with settled })

/-- The size of a variable, remembered with those of the classes on the way. --/
def queryVariable (s : SizeTable) (v : Variable) : Option Int × SizeTable :=
  let (size, after) := s.query v.type
  (size.map v.sizeFrom, after)

end SizeTable
end Overlay
