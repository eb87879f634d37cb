import Overlay.Word

/-! Looking up an item by a signed index. An index below zero counts from the end of the list. -/

namespace Overlay

/-- What stands at an index: an item, nothing because the list ends before it, nothing because the list
    begins after it, or nothing because the index is too far below zero to fit in a word. --/
inductive Lookup (α : Type) where
  | found (item : α)
  | beyond
  | before
  | unfit
deriving DecidableEq, Repr

/-- The item at an index. --/
def lookAt {α : Type} (items : List α) (index : Int) : Lookup α :=
  if index ≥ items.length then .beyond
  else if index < Word.least then .unfit
  else
    let place := if index < 0 then index + items.length else index
    if place < 0 then .before
    else match items[place.toNat]? with
      | some item => .found item
      | none => .beyond

end Overlay
