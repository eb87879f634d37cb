import Overlay.Layout.Placement

/-! The layout of a program: every class in the order of declaration, by what is settled about the classes
    before it. A class begins with its bases, then has a pointer to its virtual table if it has virtual
    functions and no base brings such a pointer along, and then its fields. Its virtual table continues
    the table of its first base. -/

namespace Overlay
namespace Layout

/-! ### What is settled -/

/-- The sizes of the classes that are laid out, and the sizes in bytes of their virtual tables, the latest
    first. --/
structure Settled where
  sizes : SizeTable
  tables : List (String × Option Int)

/-- Before the first class. --/
def Settled.initial (target : Target) : Settled := ⟨.ofTarget target, []⟩

namespace Settled

/-- The size of a base, which has to be laid out. --/
def baseSize? (s : Settled) (base : String) : Option Int :=
  if (s.tables.lookup base).isSome then s.sizes.sizeOf? base else none

/-- The size of the virtual table of a class that is laid out. --/
def tableSize? (s : Settled) (name : String) : Option Int := (s.tables.lookup name).join

/-- Whether a class is known to have a virtual table. --/
def hasTable (s : Settled) (name : String) : Bool := (s.tableSize? name).any (· != 0)

end Settled

/-- Where the fields of a class begin. --/
def fieldsBegin (s : Settled) (c : Class) : Option Int :=
  let word := s.sizes.target.pointerSize
  if c.bases.isEmpty then some (if c.hasVirtual then word else 0)
  else (c.bases.mapM s.baseSize?).map fun sizes =>
    sizes.foldl (· + ·) 0 + (if c.hasVirtual && !c.bases.any s.hasTable then word else 0)

/-- Where the virtual table of a class goes on from that of its first base. --/
def tableBegin (s : Settled) (c : Class) : Option Int :=
  match c.bases with
  | [] => some 0
  | base :: _ => s.tableSize? base

/-! ### Classes -/

/-- A class that is laid out, with its size and the size of its virtual table. --/
structure ClassLayout where
  resolved : Class
  size : Option Int
  tableSize : Option Int
  notices : List Notice

/-- Why a class is not laid out, and what is said about it before. --/
structure ClassFault where
  fault : LayoutFault
  notices : List Notice
deriving DecidableEq, Repr

/-- The size of a class that is laid out. One without fields is as large as what its fields would follow,
    unless that is nothing. --/
def classSize? (sizes : SizeTable) (resolved : Class) (next : Option Int) : Option Int :=
  if resolved.fields.isEmpty then next.filter (0 < ·) else resolved.size? sizes.sizeOfVariable?

/-- Lays out a class. --/
def layoutClass (s : Settled) (c : Class) : Except ClassFault ClassLayout :=
  let start : Cursors := ⟨⟨fieldsBegin s c, none⟩, tableBegin s c⟩
  let (cursors, trail) := placeMembers s.sizes c.name start c.members
  let notices := trail.items.flatMap (·.notices)
  match trail.fault with
  | some fault => .error ⟨fault, notices⟩
  | none =>
    let resolved := { c with members := trail.items.flatMap (·.members) }
    let size := classSize? s.sizes resolved cursors.field.next
    let word := s.sizes.target.pointerSize
    let laidOut := Notice.laidOut c.name size cursors.slot resolved.virtualFunctions.length word
    .ok ⟨resolved, size, cursors.slot, notices ++ [laidOut]⟩

/-- Settles the sizes of a class that is laid out. --/
def Settled.record (s : Settled) (l : ClassLayout) : Settled :=
  ⟨s.sizes.settle l.resolved.name l.size, (l.resolved.name, l.tableSize) :: s.tables⟩

/-! ### Programs -/

/-- Lays out a declaration: a class, or what stays as it is. --/
def layoutDeclaration (s : Settled) (d : Declaration) :
    Except ClassFault (Settled × List (Declaration × List Notice)) :=
  match d with
  | .ofClass c => (layoutClass s c).map fun l => (s.record l, [(.ofClass l.resolved, l.notices)])
  | _ => .ok (s, [(d, [])])

end Layout

/-- A program that is laid out, what is settled about its classes, and what is said about them. --/
structure LaidOut where
  program : Except LayoutFault Program
  settled : Layout.Settled
  notices : List Notice

/-- The sizes of the classes. --/
def LaidOut.sizes (l : LaidOut) : SizeTable := l.settled.sizes

/-- Lays out a program. --/
def layout (target : Target) (p : Program) : LaidOut :=
  let (settled, trail) := Trail.feed Layout.layoutDeclaration (.initial target) p.declarations
  let notices := trail.items.flatMap (·.2)
  match trail.fault with
  | some stopped => ⟨.error stopped.fault, settled, notices ++ stopped.notices⟩
  | none => ⟨.ok ⟨trail.items.map (·.1)⟩, settled, notices⟩

end Overlay
