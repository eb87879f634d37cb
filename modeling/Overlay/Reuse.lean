/-! Objects that are run again and again. Each run begins with whatever the one before has left. -/

namespace Overlay
variable {σ ι ω : Type}

/-- The outcomes of runs of an object, one after the other. --/
def outcomes (run : σ → ι → ω × σ) : σ → List ι → List ω
  | _, [] => []
  | s, input :: inputs => (run s input).1 :: outcomes run (run s input).2 inputs

end Overlay
