/-! The machine that headers are written for: how large its pointers and its primitive types are. -/

namespace Overlay

/-- Sizes in bytes. --/
structure Target where
  pointerSize : Int
  primitives : List (String × Int)
deriving DecidableEq, Repr

namespace Target

/-- The primitive types that are known unless others are given. --/
def defaultPrimitives : List (String × Int) :=
  [("bool", 1), ("char", 1), ("int8_t", 1), ("uint8_t", 1), ("BYTE", 1),
   ("short", 2), ("wchar_t", 2), ("int16_t", 2), ("uint16_t", 2), ("WORD", 2),
   ("int", 4), ("long", 4), ("float", 4), ("int32_t", 4), ("uint32_t", 4), ("DWORD", 4),
   ("double", 8), ("int64_t", 8), ("uint64_t", 8), ("__int64", 8), ("QWORD", 8)]

/-- The pointer size unless another is given. --/
def defaultPointerSize : Int := 4

/-- A target with the known primitive types. --/
def ofPointerSize (pointerSize : Int) : Target := ⟨pointerSize, defaultPrimitives⟩

end Target
end Overlay
