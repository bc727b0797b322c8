/-!
# Words

Natural numbers of 64 bits, which the sources of chance are made of and which seeds have to be.
-/

namespace DiceNotation

/-- How many words of 64 bits there are: `2^64`. -/
def wordCount : Nat := 0x10000000000000000

end DiceNotation
