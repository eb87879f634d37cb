import Overlay.Layout.Fault
import Overlay.Layout.SizeTable
import Overlay.Report.Notice
import Overlay.Trail

/-! Places for the members of a class. Fields fill the object from the start of the fields on, and virtual
    functions the slots of the virtual table from its start on. A member without a place of its own takes
    the next one, and pads fill what lies before a member with one. Fields and slots are placed apart from
    each other, and all other members stay as they are. -/

namespace Overlay
namespace Layout

/-- Members in the place of one declared member, and what is said about it. --/
structure Placement where
  members : List Declaration
  notices : List Notice

/-- A member that stays as it is. --/
def Placement.kept (d : Declaration) : Placement := ⟨[d], []⟩

/-! ### Fields -/

/-- How far the object is filled: where the last field ends, if that is known, and where it begins, if there
    is one. --/
structure FieldCursor where
  next : Option Int
  last : Option Nat
deriving DecidableEq, Repr

/-- Binds a field to an offset that has been computed. --/
def bindField (value : Int) : Except LayoutFault Nat :=
  match bind? value with
  | .ok n => .ok n
  | .error binding => .error (.negative binding)

/-- The offset of a field: its own, which may not lie in the fields before it, or else the next one. --/
def fieldOffset (className : String) (cursor : FieldCursor) (v : Variable) : Except LayoutFault Nat :=
  let misplaced (cause : Misplacement) : Except LayoutFault Nat :=
    .error (.misplaced cause className v.name v.line)
  match v.offset, cursor.next, cursor.last with
  | some offset, some next, _ => if offset < next then misplaced (.overlapsField offset next) else .ok offset
  | some offset, none, some last =>
    if offset ≤ last then misplaced (.notAboveField offset last) else .ok offset
  | some offset, none, none => .ok offset
  | none, some next, _ => bindField next
  | none, none, _ => misplaced .unknownOffset

/-- The pad between the end of the last field and a field at `offset`. --/
def padBefore (next : Option Int) (offset : Nat) : Except LayoutFault (List Declaration) :=
  match next with
  | some start =>
    if start < offset then (bindField start).map fun n => [.ofVariable (.pad n (offset - start))]
    else .ok []
  | none => .ok []

/-- The notice that nothing is known about the space between a field with an offset and the field before. --/
def unchecked (className : String) (cursor : FieldCursor) (v : Variable) : List Notice :=
  match v.offset, cursor.next, cursor.last with
  | some offset, none, some _ => [.unchecked className v.name offset v.line]
  | _, _, _ => []

/-- The cursor after a placed field. --/
def FieldCursor.after (sizes : SizeTable) (v : Variable) (offset : Nat) : FieldCursor :=
  ⟨(sizes.sizeOfVariable? v).map (offset + ·), some offset⟩

/-- Places a field. --/
def placeField (sizes : SizeTable) (className : String) (cursor : FieldCursor) (v : Variable) :
    Except LayoutFault (FieldCursor × Placement) :=
  match fieldOffset className cursor v with
  | .error fault => .error fault
  | .ok offset =>
    match padBefore cursor.next offset with
    | .error fault => .error fault
    | .ok pads =>
      let placed := { v with offset := some offset }
      .ok (.after sizes placed offset, ⟨pads ++ [.ofVariable placed], unchecked className cursor v⟩)

/-! ### Slots -/

/-- The slots of `word` bytes from `next` on that begin below `offset`. --/
def slotsBetween (next : Int) (offset : Nat) (word : Int) : List Nat :=
  if 0 < word then
    (List.range ((offset - next + word - 1) / word).toNat).map fun (k : Nat) => (next + k * word).toNat
  else []

/-- Places a virtual function. One that has declared the offset of its slot is in that slot, and no longer
    bound to it; pads stay as they are. --/
def placeSlot (word : Int) (className : String) (next : Option Int) (f : Function) :
    Except LayoutFault (Option Int × Placement) :=
  let misplaced (cause : Misplacement) : Except LayoutFault (Option Int × Placement) :=
    .error (.misplaced cause className f.name f.line)
  let slotless := Declaration.ofFunction { f with address := none }
  if f.isPad then .ok (next.map (· + word), .kept (.ofFunction f))
  else match f.address with
    | none => .ok (next.map (· + word), ⟨[slotless], []⟩)
    | some offset =>
      if word = 0 then .error .emptySlots
      else if Int.fmod offset word ≠ 0 then misplaced (.misalignedSlot offset word)
      else match next with
        | none => .ok (some (offset + word), ⟨[slotless], []⟩)
        | some start =>
          if offset < start then misplaced (.overlapsSlot offset start)
          else
            let pads := (slotsBetween start offset word).map fun slot => Declaration.ofFunction (.pad slot)
            .ok (some (offset + word), ⟨pads ++ [slotless], []⟩)

/-! ### Members -/

/-- How far the object and the virtual table of a class are filled. --/
structure Cursors where
  field : FieldCursor
  slot : Option Int
deriving DecidableEq, Repr

/-- Places a member. --/
def placeMember (sizes : SizeTable) (className : String) (cursors : Cursors) (member : Declaration) :
    Except LayoutFault (Cursors × List Placement) :=
  match member with
  | .ofVariable v =>
    (placeField sizes className cursors.field v).map fun (field, placement) =>
      ({ cursors with field }, [placement])
  | .ofFunction f =>
    if f.isVirtual then
      (placeSlot sizes.target.pointerSize className cursors.slot f).map fun (slot, placement) =>
        ({ cursors with slot }, [placement])
    else .ok (cursors, [.kept member])
  | _ => .ok (cursors, [.kept member])

/-- Places members in order. --/
def placeMembers (sizes : SizeTable) (className : String) (cursors : Cursors) (members : List Declaration) :
    Cursors × Trail LayoutFault Placement :=
  Trail.feed (placeMember sizes className) cursors members

end Layout
end Overlay
