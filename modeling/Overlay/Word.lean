/-! Signed words of a machine. An index or a count has to fit in a word before it can be used at all, whatever
    is there to be indexed or counted. -/

namespace Overlay
namespace Word

/-- The least number of a word. --/
def least : Int := -0x8000000000000000

/-- The greatest number of a word. --/
def greatest : Int := 0x7fffffffffffffff

/-- Whether a number fits in a word. --/
def holds (n : Int) : Bool := least ≤ n && n ≤ greatest

/-- The message for a number that does not fit. --/
def message : String := "cannot fit 'int' into an index-sized integer"

end Word
end Overlay
