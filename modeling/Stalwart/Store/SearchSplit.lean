import Stalwart.Store.Search

/-!
# Splitting a filter between the search engine and the local sets

A store whose search engine cannot read sets of documents runs a filter in pieces.
`split_filters` makes two passes over the tokens. The first moves, in every group, the
conditions after the nested groups and merges the group's sets of documents into one, placed
last: by union in an `Or` group, by intersection in the others. It takes the account's condition
out. The second cuts the result into pieces: runs of tokens that hold no set, each sent to the
engine behind the account's condition, and single tokens kept local. `SearchStore::query_account`
replaces each run by the documents the engine returns for it and evaluates the list locally.

The engine reads a run as a conjunction, and a run inside an `Or` group is a disjunction, so the
second pass wraps a run in an `Or` group when the piece before it is a local `Or`. That piece is
the run's group opening only when the run comes first in its group.

The meaning of a list of tokens is the meaning of the trees it writes (`readTrees`, which reads
back what `FilterTree.toFiltersList` writes).

## What is proved

* The second pass cuts the filters into its pieces, in order, and loses no token
  (`splitRuns_bodies`).
* In `Or (And (∅), a, b)` the run `a b` follows the `End` of the nested group, and it goes to the
  engine unwrapped, which returns the documents both conditions select. The filter selects the
  documents either selects (`split_or_run_after_group`).
-/

set_option autoImplicit false

namespace Stalwart.Store.Search

/-! ## Reading tokens as trees -/

section Read

variable {Cond : Type}

/-- The trees a list of tokens writes, read with a stack of the open groups: each its operation
and the trees read before it at its level. `none` for a list that is not well nested. -/
def readTrees : List (SearchFilter Cond) → List (GroupOp × List (FilterTree Cond)) →
    List (FilterTree Cond) → Option (List (FilterTree Cond))
  | [], [], level => some level
  | [], _ :: _, _ => none
  | .operator cond :: filters, stack, level => readTrees filters stack (level ++ [.operator cond])
  | .documentSet set :: filters, stack, level =>
    readTrees filters stack (level ++ [.documentSet set])
  | .and :: filters, stack, level => readTrees filters ((.and, level) :: stack) []
  | .or :: filters, stack, level => readTrees filters ((.or, level) :: stack) []
  | .not :: filters, stack, level => readTrees filters ((.not, level) :: stack) []
  | .end :: _, [], _ => none
  | .end :: filters, (op, parent) :: stack, level =>
    readTrees filters stack (parent ++ [.group op level])

/-- The meaning of a list of tokens: the documents of the mask its trees all select. -/
def filtersMeaning (mask : Finset UInt32) (leaf : SearchFilter Cond → Finset UInt32)
    (filters : List (SearchFilter Cond)) : Option (Finset UInt32) :=
  (readTrees filters [] []).map (FilterTree.denoteAll mask leaf)

end Read

/-! ## The first pass -/

/-- `SplitFilter`. -/
inductive SplitFilter (Cond : Type) where
  | internal (filter : SearchFilter Cond)
  | external (filters : List (SearchFilter Cond))
  deriving DecidableEq

/-- `u64::MAX`, the account id before an account condition is read. -/
def u64Max : UInt64 := 18446744073709551615

/-- The state of the first pass of `split_filters`: the filters written so far, the tokens of the
open groups (innermost first), and the conditions and merged set that wait at each depth for the
`End` of their group. -/
structure SplitState (Cond : Type) where
  accountId : UInt64
  filters : List (SearchFilter Cond)
  opStack : List (SearchFilter Cond)
  documentSets : Nat → Option (Finset UInt32)
  operators : Nat → List (SearchFilter Cond)

variable {Cond : Type}

/-- The state before the first token. -/
def SplitState.init : SplitState Cond :=
  ⟨u64Max, [], [], fun _ => none, fun _ => []⟩

/-- A set merged into the set of its group: by union in an `Or` group, by intersection
otherwise. -/
def mergeSet (opStack : List (SearchFilter Cond)) (prev docs : Finset UInt32) : Finset UInt32 :=
  match opStack with
  | .or :: _ => prev ∪ docs
  | _ => prev ∩ docs

/-- One token of the first pass. `accountIdOf` gives the id of an account condition. `none` for
an `End` with no group open. -/
def SplitState.step (accountIdOf : Cond → Option UInt64) (s : SplitState Cond) :
    SearchFilter Cond → Option (SplitState Cond)
  | .end =>
    let depth := s.opStack.length
    match s.opStack with
    | [] => none
    | _ :: opStack =>
      some { s with
        filters := s.filters ++ s.operators depth ++
          (s.documentSets depth).toList.map .documentSet ++ [.end]
        operators := Function.update s.operators depth []
        documentSets := Function.update s.documentSets depth none
        opStack := opStack }
  | .operator cond =>
    match accountIdOf cond with
    | some id => some { s with accountId := id }
    | none =>
      let depth := s.opStack.length
      some { s with
        operators := Function.update s.operators depth (s.operators depth ++ [.operator cond]) }
  | .documentSet docs =>
    let depth := s.opStack.length
    some { s with
      documentSets := Function.update s.documentSets depth
        (some ((s.documentSets depth).elim docs (mergeSet s.opStack · docs))) }
  | op => some { s with opStack := op :: s.opStack, filters := s.filters ++ [op] }

/-- The end of the first pass: the top level's conditions and set go last, and an account
condition must have been read. -/
def SplitState.finish (s : SplitState Cond) : Option (UInt64 × List (SearchFilter Cond)) :=
  if s.accountId = u64Max then none
  else some (s.accountId, s.filters ++ s.operators 0 ++ (s.documentSets 0).toList.map .documentSet)

/-! ## The second pass -/

/-- The inner loop of the second pass, for a piece that starts at `i`, at position `j` and depth
`depth`: `some j` where the run from `i` is cut before `j`, `none` where the token at `i` is kept
local alone. -/
def scanRun (filters : List (SearchFilter Cond)) (i : Nat) (j : Nat) (depth : Int) : Option Nat :=
  match hj : filters[j]? with
  | none => some j
  | some .end =>
    if depth - 1 < 0 then (if i < j then some j else none)
    else scanRun filters i (j + 1) (depth - 1)
  | some (.operator _) => scanRun filters i (j + 1) depth
  | some (.documentSet _) => if depth = 0 ∧ i < j then some j else none
  | some _ => scanRun filters i (j + 1) (depth + 1)
termination_by filters.length - j
decreasing_by
  all_goals
    have hlt := (List.getElem?_eq_some_iff.mp hj).1
    omega

/-- A run is cut after its start. -/
theorem lt_of_scanRun {filters : List (SearchFilter Cond)} {i j k : Nat} {depth : Int}
    (h : scanRun filters i j depth = some k) (hi : i < filters.length) (hij : i ≤ j) : i < k := by
  fun_induction scanRun filters i j depth with
  | case1 j _ hj =>
    cases h
    exact Nat.lt_of_lt_of_le hi (List.getElem?_eq_none_iff.mp hj)
  | case2 j _ _ _ hlt =>
    cases h
    exact hlt
  | case6 j _ _ _ hcut =>
    cases h
    exact hcut.2
  | case3 | case7 => cases h
  | case4 j _ _ _ ih | case5 j _ _ _ ih => exact ih h (by omega)
  | case8 j _ _ _ _ _ _ ih => exact ih h (by omega)

/-- Whether the last piece is a local `Or`. -/
def afterOr (split : List (SplitFilter Cond)) : Bool :=
  match split.getLast? with
  | some (.internal .or) => true
  | _ => false

/-- What is sent to the engine for the run `run`: the account's condition, then the run, in an
`Or` group where `addOr`. -/
def externalFilters (accountCond : UInt64 → Cond) (accountId : UInt64) (addOr : Bool)
    (run : List (SearchFilter Cond)) : List (SearchFilter Cond) :=
  .operator (accountCond accountId) ::
    ((if addOr then [.or] else []) ++ run ++ (if addOr then [.end] else []))

/-- The outer loop of the second pass, from position `i`, after the pieces `split`.
`accountCond` builds the account's condition. -/
def splitRuns (accountCond : UInt64 → Cond) (accountId : UInt64)
    (filters : List (SearchFilter Cond)) (i : Nat) (split : List (SplitFilter Cond)) :
    List (SplitFilter Cond) :=
  if hi : i < filters.length then
    match hscan : scanRun filters i i 0 with
    | none => splitRuns accountCond accountId filters (i + 1) (split ++ [.internal filters[i]])
    | some j =>
      let addOr := afterOr split && i + 1 < j
      splitRuns accountCond accountId filters j
        (split ++ [.external (externalFilters accountCond accountId addOr ((filters.take j).drop i))])
  else split
termination_by filters.length - i
decreasing_by
  · omega
  · have hlt := lt_of_scanRun hscan hi le_rfl
    omega

/-- A run holds no set of documents: the scan stops at a set. -/
theorem scanRun_no_set {filters : List (SearchFilter Cond)} {i j k : Nat} {depth : Int}
    (h : scanRun filters i j depth = some k) :
    ∀ m, j ≤ m → m < k → ∀ set, filters[m]? ≠ some (.documentSet set) := by
  fun_induction scanRun filters i j depth with
  | case1 j _ _ | case2 j _ _ _ _ | case6 j _ _ _ _ =>
    cases h
    intro m hjm hmk
    omega
  | case3 | case7 => cases h
  | case4 j _ hj _ ih | case5 j _ _ hj ih =>
    intro m hjm hmk set hset
    rcases Nat.eq_or_lt_of_le hjm with rfl | hlt
    · simp [hj] at hset
    · exact ih h m hlt hmk set hset
  | case8 j _ _ _ _ hnotset hj ih =>
    intro m hjm hmk set hset
    rcases Nat.eq_or_lt_of_le hjm with rfl | hlt
    · exact hnotset set (Option.some.inj (hj.symm.trans hset))
    · exact ih h m hlt hmk set hset

theorem take_drop_append_drop {α : Type} (l : List α) {i j : Nat} (hij : i ≤ j) :
    (l.take j).drop i ++ l.drop j = l.drop i := by
  rw [List.drop_take]
  conv_rhs => rw [← List.take_append_drop (j - i) (l.drop i)]
  rw [List.drop_drop, Nat.add_sub_cancel' hij]

/-- A piece of the split and the tokens of the filters it stands for: a token kept local stands
for itself, and a run sent to the engine, which holds no set of documents, for the run. -/
inductive Piece (accountCond : UInt64 → Cond) (accountId : UInt64) :
    SplitFilter Cond → List (SearchFilter Cond) → Prop
  | internal (filter : SearchFilter Cond) : Piece accountCond accountId (.internal filter) [filter]
  | external (addOr : Bool) (run : List (SearchFilter Cond))
      (hrun : ∀ set, .documentSet set ∉ run) :
      Piece accountCond accountId (.external (externalFilters accountCond accountId addOr run)) run

/-- **The second pass cuts the filters into its pieces**: in order, with no token lost or
repeated, and no set of documents sent to the engine. -/
theorem splitRuns_bodies (accountCond : UInt64 → Cond) (accountId : UInt64)
    (filters : List (SearchFilter Cond)) (i : Nat) (split : List (SplitFilter Cond)) :
    ∃ pieces bodies, splitRuns accountCond accountId filters i split = split ++ pieces ∧
      List.Forall₂ (Piece accountCond accountId) pieces bodies ∧
      bodies.flatten = filters.drop i := by
  fun_induction splitRuns accountCond accountId filters i split with
  | case1 i split hi _ ih =>
    obtain ⟨pieces, bodies, hrun, hpieces, hflat⟩ := ih
    refine ⟨.internal filters[i] :: pieces, [filters[i]] :: bodies, by simp [hrun],
      .cons (.internal _) hpieces, ?_⟩
    rw [List.flatten_cons, hflat, List.singleton_append, List.drop_eq_getElem_cons hi]
  | case2 i split hi j hscan addOr ih =>
    obtain ⟨pieces, bodies, hrun, hpieces, hflat⟩ := ih
    have hij := lt_of_scanRun hscan hi le_rfl
    -- the run is the tokens from `i` to the cut, none of them a set
    have hnoset : ∀ set, SearchFilter.documentSet set ∉ (filters.take j).drop i := by
      intro set hmem
      obtain ⟨n, hn⟩ := List.mem_iff_getElem?.mp hmem
      rw [List.getElem?_drop, List.getElem?_take] at hn
      split at hn
      · exact scanRun_no_set hscan (i + n) (by omega) (by omega) set hn
      · cases hn
    refine ⟨_ :: pieces, (filters.take j).drop i :: bodies, by simp [hrun],
      .cons (.external addOr _ hnoset) hpieces, ?_⟩
    rw [List.flatten_cons, hflat, take_drop_append_drop filters hij.le]
  | case3 i split hi =>
    exact ⟨[], [], by simp, .nil, by simp [List.drop_eq_nil_of_le (Nat.le_of_not_lt hi)]⟩

/-- `split_filters`. -/
def splitFilters (accountIdOf : Cond → Option UInt64) (accountCond : UInt64 → Cond)
    (filtersIn : List (SearchFilter Cond)) : Option (List (SplitFilter Cond)) := do
  let s ← filtersIn.foldlM (fun s filter => s.step accountIdOf filter) SplitState.init
  let (accountId, filters) ← s.finish
  some (splitRuns accountCond accountId filters 0 [])

/-- The local filters `SearchStore::query_account` builds from the pieces: each run replaced by the
documents `subQuery` returns for it. -/
def mergeSplit (subQuery : List (SearchFilter Cond) → Finset UInt32) :
    List (SplitFilter Cond) → List (SearchFilter Cond) :=
  List.map fun
    | .external filters => .documentSet (subQuery filters)
    | .internal filter => filter

/-! ## The engine and the local merge -/

/-- The documents of a leaf, the conditions' given by `condDocs`. -/
def leafDocs (condDocs : Cond → Finset UInt32) : SearchFilter Cond → Finset UInt32
  | .operator cond => condDocs cond
  | .documentSet set => set
  | _ => ∅

/-- An engine that reads the tokens it is sent as trees: the documents of `documents` they select,
each condition selecting `condDocs`. -/
def engineQuery (documents : Finset UInt32) (condDocs : Cond → Finset UInt32)
    (filters : List (SearchFilter Cond)) : Finset UInt32 :=
  (filtersMeaning documents (leafDocs condDocs) filters).getD ∅

/-- Conditions on the account `42`, met by every document, and on the letters `a` and `b`, met by
the documents `1` and `2`. -/
def letterDocs : UInt64 ⊕ Char → Finset UInt32
  | .inl _ => {1, 2, 3}
  | .inr 'a' => {1}
  | .inr _ => {2}

theorem split_or_run_after_group :
    let trees : List (FilterTree (UInt64 ⊕ Char)) :=
      [.operator (.inl 42),
        .group .or [.group .and [.documentSet ∅], .operator (.inr 'a'), .operator (.inr 'b')]]
    let split : List (SplitFilter (UInt64 ⊕ Char)) :=
      [.internal .or, .internal .and, .internal (.documentSet ∅), .internal .end,
        .external [.operator (.inl 42), .operator (.inr 'a'), .operator (.inr 'b')], .internal .end]
    splitFilters Sum.getLeft? Sum.inl (FilterTree.toFiltersList trees) = some split ∧
      FilterTree.denoteAll {1, 2, 3} (leafDocs letterDocs) trees = {1, 2} ∧
      filtersMeaning {1, 2, 3} (leafDocs letterDocs)
        (mergeSplit (engineQuery {1, 2, 3} letterDocs) split) = some ∅ ∧
      (SearchQuery.mk (mergeSplit (engineQuery {1, 2, 3} letterDocs) split) {1, 2, 3}).filter = ∅ := by
  decide +kernel

end Stalwart.Store.Search
