import Mathlib.Data.List.Basic

/-!
# Pages cut from a walk

A page over a sequence of candidates is cut by one walk: the first `offset` candidates are skipped,
the next ones are kept while the page has room, and the page notes when a candidate was left out for
want of room. The walk may go over several lists in turn with one cursor.
-/

set_option autoImplicit false

namespace Stalwart.Paging

/-- Where a walk stands: the candidates still to skip, the candidates kept, and whether one was left
out. -/
structure Cursor where
  offset : Nat
  total : Nat
  limited : Bool
  deriving DecidableEq, Repr

variable {α : Type}

/-- One candidate: skipped while the offset lasts, kept while the page has room, left out
otherwise. -/
def Cursor.visit (limit : Nat) : Cursor × List α → α → Cursor × List α
  | (cursor, kept), item =>
    if cursor.offset > 0 then ({ cursor with offset := cursor.offset - 1 }, kept)
    else if cursor.total < limit then ({ cursor with total := cursor.total + 1 }, kept ++ [item])
    else ({ cursor with limited := true }, kept)

/-- A walk over a list from a cursor: the cursor after it, and the candidates kept. -/
def walk (limit : Nat) (cursor : Cursor) (items : List α) : Cursor × List α :=
  items.foldl (Cursor.visit limit) (cursor, [])

variable {limit : Nat}

end Stalwart.Paging
