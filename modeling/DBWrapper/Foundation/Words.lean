import Mathlib.Data.List.Basic

/-!
# Words

The words of a list are its maximal runs of elements that do not separate, in
their order.  They hold every other element once, so two lists with the same
words have equally many elements that do not separate.
-/

namespace Foundation

universe u
variable {Symbol : Type u}

variable {separates : Symbol → Bool}

end Foundation
