import Mathlib.Data.Finset.SymmDiff

/-!
# Evaluating search filters

A search query is a list of `SearchFilter` tokens: conditions on indexed fields, sets of
documents, and groups opened by `And`, `Or` or `Not` and closed by `End`; the list itself is an
`And` group. Three evaluators run it with one stack machine: `SearchQuery::filter` over sets of
documents, `Store::query_account` over the index of one account, and `Store::query_global` over
every account. Each keeps the operation and the result so far of the open group, pushes them
when a group opens, and combines the result of a closed group into the group around it. Once an
`And` group's result is empty, they skip the tokens up to the next `End`.

This module models the machine once (`evaluate`) and each evaluator as the machine with its own
reading of the tokens.

## What is proved

A filter is also a tree (`FilterTree`), and its meaning is the set of documents the tree selects
(`FilterTree.denote`). **The evaluation law** (`evaluate_toFiltersList_top`, and for
`SearchQuery::filter` `filter_toFilters`): the machine computes the meaning of every tree whose
groups are not empty and whose `And` short-circuits skip only leaves. The skip looks for the next
`End` without counting the groups it passes, so it may stop inside a nested group; the law does
not hold then (`filter_andShortCircuit_nested`).
-/

set_option autoImplicit false

namespace Stalwart.Store.Search

open scoped symmDiff

/-- `SearchFilter`. The conditions of `Operator` are left abstract: the index resolves them. -/
inductive SearchFilter (Cond : Type) where
  | operator (cond : Cond)
  | documentSet (set : Finset UInt32)
  | and
  | or
  | not
  | «end»
  deriving DecidableEq

/-- Whether a token is `End`: the token the And short-circuit stops at. -/
def SearchFilter.isEnd {Cond : Type} : SearchFilter Cond → Bool
  | .end => true
  | _ => false

/-- The operation of a group. -/
inductive GroupOp where
  | and
  | or
  | not
  deriving DecidableEq, Repr

/-- The token that opens a group. -/
def GroupOp.opener {Cond : Type} : GroupOp → SearchFilter Cond
  | .and => .and
  | .or => .or
  | .not => .not

/-- The evaluators' `State`: the operation of the open group and its result so far. -/
structure State (α : Type) where
  op : GroupOp
  bm : Option (Finset α)
  deriving DecidableEq

/-- What an evaluator makes of a token: nothing, a result (`None` for a missing one), a group
opening, or a group closing. -/
inductive Step (α : Type) where
  | skip
  | result (result : Option (Finset α))
  | push (op : GroupOp)
  | pop

section Machine

variable {α Cond ε : Type} [DecidableEq α]

/-- The logical operation: combines a result into the open group. A `Not` group takes the
results' complements within the mask, as their `xor` with it. -/
def State.apply (mask : Finset α) (state : State α) (result : Option (Finset α)) : State α :=
  match state.bm with
  | some dest =>
    match state.op with
    | .and =>
      { state with bm := some (match result with
        | some result => dest ∩ result
        | none => ∅) }
    | .or =>
      { state with bm := some (match result with
        | some result => dest ∪ result
        | none => dest) }
    | .not =>
      { state with bm := some (match result with
        | some result => dest ∩ (result ∆ mask)
        | none => dest) }
  | none =>
    match result with
    | some result => { state with bm := some (if state.op = .not then result ∆ mask else result) }
    | none => { state with bm := some (if state.op = .not then mask else ∅) }

/-- The And short-circuit: once the result of an `And` group is empty, the tokens up to the next
`End` are skipped. -/
def shortCircuit (state : State α) (filters : List (SearchFilter Cond)) : List (SearchFilter Cond) :=
  if state.op = .and ∧ state.bm = some ∅ then filters.dropWhile fun filter => !filter.isEnd
  else filters

theorem length_shortCircuit_le (state : State α) (filters : List (SearchFilter Cond)) :
    (shortCircuit state filters).length ≤ filters.length := by
  unfold shortCircuit
  split_ifs
  · exact (List.dropWhile_sublist _).length_le
  · exact le_refl _

/-- The loop of the evaluators, given how they read a token. An `End` with no group open ends the
loop. -/
def evaluate (mask : Finset α) (read : SearchFilter Cond → Except ε (Step α)) :
    List (SearchFilter Cond) → State α → List (State α) → Except ε (State α)
  | [], state, _ => .ok state
  | filter :: filters, state, stack =>
    match read filter with
    | .error e => .error e
    | .ok .skip => evaluate mask read filters state stack
    | .ok (.push op) => evaluate mask read filters ⟨op, none⟩ (state :: stack)
    | .ok .pop =>
      match stack with
      | [] => .ok state
      | prev :: stack =>
        let state' := prev.apply mask state.bm
        evaluate mask read (shortCircuit state' filters) state' stack
    | .ok (.result result) =>
      let state' := state.apply mask result
      evaluate mask read (shortCircuit state' filters) state' stack
termination_by filters => filters.length
decreasing_by
  all_goals simp only [List.length_cons]
  all_goals
    first
    | exact Nat.lt_succ_self _
    | exact Nat.lt_succ_of_le (length_shortCircuit_le _ _)

/-! The steps of the machine, one lemma for each way of reading a token. -/

section Steps

variable {mask : Finset α} {read : SearchFilter Cond → Except ε (Step α)}
  {filter : SearchFilter Cond} {filters : List (SearchFilter Cond)} {state : State α}
  {stack : List (State α)}

@[simp] theorem evaluate_nil : evaluate mask read [] state stack = .ok state := by
  rw [evaluate.eq_def]

theorem evaluate_cons_skip (h : read filter = .ok .skip) :
    evaluate mask read (filter :: filters) state stack = evaluate mask read filters state stack := by
  rw [evaluate.eq_def]
  simp only [h]

theorem evaluate_cons_push {op : GroupOp} (h : read filter = .ok (.push op)) :
    evaluate mask read (filter :: filters) state stack =
      evaluate mask read filters ⟨op, none⟩ (state :: stack) := by
  rw [evaluate.eq_def]
  simp only [h]

theorem evaluate_cons_pop {prev : State α} (h : read filter = .ok .pop) :
    evaluate mask read (filter :: filters) state (prev :: stack) =
      evaluate mask read (shortCircuit (prev.apply mask state.bm) filters)
        (prev.apply mask state.bm) stack := by
  rw [evaluate.eq_def]
  simp only [h]

theorem evaluate_cons_result {result : Option (Finset α)} (h : read filter = .ok (.result result)) :
    evaluate mask read (filter :: filters) state stack =
      evaluate mask read (shortCircuit (state.apply mask result) filters)
        (state.apply mask result) stack := by
  rw [evaluate.eq_def]
  simp only [h]

end Steps

end Machine

/-! ## The evaluators -/

/-- `SearchQuery`, without its index and comparators. -/
structure SearchQuery (Cond : Type) where
  filters : List (SearchFilter Cond)
  mask : Finset UInt32

/-- The errors of the store's evaluators (`StoreEvent::UnexpectedError`, with its details). -/
inductive SearchError where
  | unexpectedError (details : String)
  deriving DecidableEq, Repr

/-- How `SearchQuery::filter` reads a token: it passes over conditions. -/
def filterStep {Cond : Type} : SearchFilter Cond → Except Empty (Step UInt32)
  | .operator _ => .ok .skip
  | .documentSet set => .ok (.result (some set))
  | .and => .ok (.push .and)
  | .or => .ok (.push .or)
  | .not => .ok (.push .not)
  | .end => .ok .pop

/-- `SearchQuery::filter`: the documents of the mask the filters select; every document of the
mask when there is no filter. -/
def SearchQuery.filter {Cond : Type} (query : SearchQuery Cond) : Finset UInt32 :=
  if query.filters.isEmpty then query.mask
  else
    match evaluate query.mask filterStep query.filters ⟨.and, none⟩ [] with
    | .ok state => state.bm.getD ∅ ∩ query.mask
    | .error e => nomatch e

/-- What `Store::query_account` asks of the index of the account: whether a condition is on the
account id (and the id it names, when it is a number), and the documents of the other
conditions (`None` for none). -/
structure AccountIndex (Cond : Type) where
  isAccountId : Cond → Bool
  accountIdOf : Cond → Option UInt32
  resolve : UInt32 → Cond → Except SearchError (Option (Finset UInt32))

/-- How `Store::query_account` reads a token: it passes over the account id condition and
resolves the other conditions against the index. -/
def accountStep {Cond : Type} (index : AccountIndex Cond) (accountId : UInt32) :
    SearchFilter Cond → Except SearchError (Step UInt32)
  | .operator cond =>
    if index.isAccountId cond then .ok .skip else (index.resolve accountId cond).map .result
  | .documentSet set => .ok (.result (some set))
  | .and => .ok (.push .and)
  | .or => .ok (.push .or)
  | .not => .ok (.push .not)
  | .end => .ok .pop

/-- `Store::query_account`, as the set of the documents it returns. -/
def queryAccount {Cond : Type} (index : AccountIndex Cond) (query : SearchQuery Cond) :
    Except SearchError (Finset UInt32) :=
  match query.filters.findSome? fun filter => match filter with
      | .operator cond => index.accountIdOf cond
      | _ => none with
  | none => .error (.unexpectedError "Account ID must be specified before other filters")
  | some accountId =>
    (evaluate query.mask (accountStep index accountId) query.filters ⟨.and, none⟩ []).map
      fun state => state.bm.getD ∅ ∩ query.mask

/-- How `Store::query_global` reads a token: it resolves every condition, and rejects sets of
documents and `Not`. -/
def globalStep {Cond : Type} (resolve : Cond → Except SearchError (Option (Finset UInt64))) :
    SearchFilter Cond → Except SearchError (Step UInt64)
  | .operator cond => (resolve cond).map .result
  | .documentSet _ | .not => .error (.unexpectedError "Unsupported filter in global search")
  | .and => .ok (.push .and)
  | .or => .ok (.push .or)
  | .end => .ok .pop

/-- `Store::query_global`, as the set of the ids it returns. It has no mask: without `Not` the
machine never reads one. -/
def queryGlobal {Cond : Type} (resolve : Cond → Except SearchError (Option (Finset UInt64)))
    (filters : List (SearchFilter Cond)) : Except SearchError (Finset UInt64) :=
  (evaluate ∅ (globalStep resolve) filters ⟨.and, none⟩ []).map fun state => state.bm.getD ∅

/-! ## Filters as trees -/

/-- A filter as a tree: conditions and sets of documents at the leaves, groups inside. -/
inductive FilterTree (Cond : Type) where
  | operator (cond : Cond)
  | documentSet (set : Finset UInt32)
  | group (op : GroupOp) (children : List (FilterTree Cond))

namespace FilterTree

variable {Cond : Type}

mutual

/-- The tokens of a tree, in the order the evaluators read them. -/
def toFilters : FilterTree Cond → List (SearchFilter Cond)
  | .operator cond => [.operator cond]
  | .documentSet set => [.documentSet set]
  | .group op children => op.opener :: toFiltersList children ++ [.end]

/-- The tokens of a list of trees. -/
def toFiltersList : List (FilterTree Cond) → List (SearchFilter Cond)
  | [] => []
  | child :: children => child.toFilters ++ toFiltersList children

end

/-- The token of a leaf. -/
def leafToken : FilterTree Cond → Option (SearchFilter Cond)
  | .operator cond => some (.operator cond)
  | .documentSet set => some (.documentSet set)
  | .group .. => none

mutual

/-- A tree whose groups all have children and whose leaves all satisfy `ok`. -/
def WellFormed (ok : SearchFilter Cond → Prop) : FilterTree Cond → Prop
  | .operator cond => ok (.operator cond)
  | .documentSet set => ok (.documentSet set)
  | .group _ children => children ≠ [] ∧ AllWellFormed ok children

/-- Every tree of the list is well formed. -/
def AllWellFormed (ok : SearchFilter Cond → Prop) : List (FilterTree Cond) → Prop
  | [] => True
  | child :: children => child.WellFormed ok ∧ AllWellFormed ok children

end

mutual

theorem WellFormed.mono {ok ok' : SearchFilter Cond → Prop} (himp : ∀ filter, ok filter → ok' filter) :
    ∀ {tree : FilterTree Cond}, tree.WellFormed ok → tree.WellFormed ok'
  | .operator _, h => himp _ h
  | .documentSet _, h => himp _ h
  | .group _ _, h => ⟨h.1, AllWellFormed.mono himp h.2⟩

theorem AllWellFormed.mono {ok ok' : SearchFilter Cond → Prop}
    (himp : ∀ filter, ok filter → ok' filter) :
    ∀ {children : List (FilterTree Cond)}, AllWellFormed ok children → AllWellFormed ok' children
  | [], _ => trivial
  | _ :: _, h => ⟨WellFormed.mono himp h.1, AllWellFormed.mono himp h.2⟩

end

theorem toFilters_ne_nil : ∀ tree : FilterTree Cond, tree.toFilters ≠ []
  | .operator _ => by simp [toFilters]
  | .documentSet _ => by simp [toFilters]
  | .group _ _ => by simp [toFilters]

theorem toFiltersList_ne_nil : ∀ {trees : List (FilterTree Cond)}, trees ≠ [] →
    toFiltersList trees ≠ []
  | [], h => absurd rfl h
  | tree :: _, _ => by simp [toFiltersList, toFilters_ne_nil tree]

section Denote

variable {α : Type} [DecidableEq α] (mask : Finset α) (leaf : SearchFilter Cond → Finset α)

mutual

/-- The documents a tree selects, given the documents of its leaves: an `And` group the documents
all its children select, an `Or` group those one of them selects, a `Not` group the documents of
the mask none of them selects. -/
def denote : FilterTree Cond → Finset α
  | .operator cond => leaf (.operator cond)
  | .documentSet set => leaf (.documentSet set)
  | .group .and children => denoteAll children
  | .group .or children => denoteAny children
  | .group .not children => mask \ denoteAny children

/-- The documents every tree of a list selects; the mask for none. -/
def denoteAll : List (FilterTree Cond) → Finset α
  | [] => mask
  | child :: children => child.denote ∩ denoteAll children

/-- The documents one tree of a list selects. -/
def denoteAny : List (FilterTree Cond) → Finset α
  | [] => ∅
  | child :: children => child.denote ∪ denoteAny children

end

@[simp] theorem denoteAll_nil : denoteAll mask leaf ([] : List (FilterTree Cond)) = mask := by
  simp [denoteAll]

@[simp] theorem denoteAny_nil : denoteAny mask leaf ([] : List (FilterTree Cond)) = ∅ := by
  simp [denoteAny]

theorem mem_denoteAll {a : α} :
    ∀ {children : List (FilterTree Cond)},
      a ∈ denoteAll mask leaf children ↔ a ∈ mask ∧ ∀ child ∈ children, a ∈ child.denote mask leaf
  | [] => by simp
  | child :: children => by
    rw [denoteAll, Finset.mem_inter, mem_denoteAll]
    simp only [List.mem_cons, forall_eq_or_imp]
    tauto

theorem mem_denoteAny {a : α} :
    ∀ {children : List (FilterTree Cond)},
      a ∈ denoteAny mask leaf children ↔ ∃ child ∈ children, a ∈ child.denote mask leaf
  | [] => by simp
  | child :: children => by
    rw [denoteAny, Finset.mem_union, mem_denoteAny]
    simp only [List.mem_cons, exists_eq_or_imp]

/-- The meaning of a group, document by document. -/
theorem mem_denote_group {a : α} (op : GroupOp) (children : List (FilterTree Cond)) :
    a ∈ (group op children).denote mask leaf ↔
      match op with
      | .and => a ∈ mask ∧ ∀ child ∈ children, a ∈ child.denote mask leaf
      | .or => ∃ child ∈ children, a ∈ child.denote mask leaf
      | .not => a ∈ mask ∧ ¬ ∃ child ∈ children, a ∈ child.denote mask leaf := by
  cases op
  · simp only [denote, mem_denoteAll]
  · simp only [denote, mem_denoteAny]
  · simp only [denote, Finset.mem_sdiff, mem_denoteAny]

end Denote

end FilterTree

/-! ## The evaluation law -/

section Law

variable {α Cond ε : Type} [DecidableEq α] (mask : Finset α) (leaf : SearchFilter Cond → Finset α)

/-- A result stands for a set of documents when they agree within the mask. A missing result
stands for the empty set. -/
def Approx (result : Option (Finset α)) (documents : Finset α) : Prop :=
  ∀ a ∈ mask, a ∈ result.getD ∅ ↔ a ∈ documents

/-- The result so far of a group with operation `op` after its children `pre`: none before the
first, then one that stands for the group of those children. -/
def GroupInv (op : GroupOp) (pre : List (FilterTree Cond)) (bm : Option (Finset α)) : Prop :=
  if pre = [] then bm = none
  else ∃ documents, bm = some documents ∧
    Approx mask (some documents) ((FilterTree.group op pre).denote mask leaf)

/-- The short-circuit of an `And` group only skips leaves: once its first children `pre` select
no document, the children after them are leaves. -/
def AndSafe : List (FilterTree Cond) → List (FilterTree Cond) → Prop
  | _, [] => True
  | pre, child :: children =>
    (pre ≠ [] → FilterTree.denoteAll mask leaf pre = ∅ → child.leafToken.isSome) ∧
      AndSafe (pre ++ [child]) children

mutual

/-- Every `And` short-circuit of a tree skips only leaves. -/
def SkipSafe : FilterTree Cond → Prop
  | .operator _ => True
  | .documentSet _ => True
  | .group op children => (op = .and → AndSafe mask leaf [] children) ∧ AllSkipSafe children

/-- Every tree of the list is `SkipSafe`. -/
def AllSkipSafe : List (FilterTree Cond) → Prop
  | [] => True
  | child :: children => SkipSafe child ∧ AllSkipSafe children

end

variable (read : SearchFilter Cond → Except ε (Step α))

/-- An evaluator reads a leaf token as a result that stands for the leaf's documents. -/
def LeafReads (filter : SearchFilter Cond) : Prop :=
  ∃ result, read filter = .ok (.result result) ∧ Approx mask result (leaf filter)

/-- The tokens after a group's children: its `End`, or, after the top group, tokens the
evaluator passes over. -/
def Closes (tail : List (SearchFilter Cond)) : Prop :=
  (∃ rest, tail = .end :: rest) ∨ ∀ filter ∈ tail, read filter = .ok .skip ∧ filter.isEnd = false

variable {mask leaf}

/-- **The step of a child.** Combining the result of a child keeps the result of the group
standing for the group of its children so far. -/
theorem State.apply_groupInv {op : GroupOp} {pre : List (FilterTree Cond)}
    {bm : Option (Finset α)} {child : FilterTree Cond} {result : Option (Finset α)}
    (hinv : GroupInv mask leaf op pre bm)
    (hresult : Approx mask result (child.denote mask leaf)) :
    ((⟨op, bm⟩ : State α).apply mask result).op = op ∧
      GroupInv mask leaf op (pre ++ [child]) ((⟨op, bm⟩ : State α).apply mask result).bm := by
  unfold GroupInv at hinv ⊢
  rw [if_neg (List.append_ne_nil_of_right_ne_nil pre (List.cons_ne_nil child []))]
  by_cases hpre : pre = []
  · -- the first child: the group stands for it alone
    rw [if_pos hpre] at hinv
    subst hpre hinv
    cases op <;> cases result <;>
      refine ⟨rfl, _, rfl, fun a ha => ?_⟩ <;>
      have h := hresult a ha <;>
      simp_all [FilterTree.mem_denote_group, Finset.mem_symmDiff]
  · -- a later child: combined with the group so far
    rw [if_neg hpre] at hinv
    obtain ⟨documents, rfl, hdocuments⟩ := hinv
    cases op <;> cases result <;>
      refine ⟨rfl, _, rfl, fun a ha => ?_⟩ <;>
      have h := hresult a ha <;>
      have hd := hdocuments a ha <;>
      simp_all [FilterTree.mem_denote_group, Finset.mem_symmDiff, or_imp, forall_and]

theorem denoteAll_subset_mask :
    ∀ children : List (FilterTree Cond), FilterTree.denoteAll mask leaf children ⊆ mask :=
  fun _ _ ha => ((FilterTree.mem_denoteAll mask leaf).mp ha).1

/-- An `And` group whose first children select no document selects none, whatever follows. -/
theorem denoteAll_append_eq_empty {pre : List (FilterTree Cond)}
    (hempty : FilterTree.denoteAll mask leaf pre = ∅) (children : List (FilterTree Cond)) :
    FilterTree.denoteAll mask leaf (pre ++ children) = ∅ := by
  refine Finset.eq_empty_of_forall_notMem fun a ha => ?_
  have hmem := (FilterTree.mem_denoteAll mask leaf).mp ha
  have hpre : a ∈ FilterTree.denoteAll mask leaf pre :=
    (FilterTree.mem_denoteAll mask leaf).mpr ⟨hmem.1, fun child hchild => hmem.2 child (List.mem_append_left _ hchild)⟩
  simp [hempty] at hpre

/-- Once the first children of an `And` group select no document, the others are leaves. -/
theorem AndSafe.leaves :
    ∀ {pre children : List (FilterTree Cond)}, AndSafe mask leaf pre children → pre ≠ [] →
      FilterTree.denoteAll mask leaf pre = ∅ → ∀ child ∈ children, child.leafToken.isSome
  | _, [], _, _, _ => fun _ hchild => absurd hchild List.not_mem_nil
  | pre, child :: children, hsafe, hpre, hempty => by
    intro child' hchild'
    rcases List.mem_cons.mp hchild' with rfl | hmem
    · exact hsafe.1 hpre hempty
    · exact AndSafe.leaves hsafe.2 (List.append_ne_nil_of_right_ne_nil pre (List.cons_ne_nil _ _))
        (denoteAll_append_eq_empty hempty [child]) child' hmem

/-- A group's result of no document, within the mask, is a group that selects none. -/
theorem denoteAll_eq_empty_of_groupInv {pre : List (FilterTree Cond)}
    (hinv : GroupInv mask leaf .and pre (some ∅)) : FilterTree.denoteAll mask leaf pre = ∅ := by
  unfold GroupInv at hinv
  split_ifs at hinv with hpre
  obtain ⟨documents, hdocuments, happrox⟩ := hinv
  cases hdocuments
  refine Finset.eq_empty_of_forall_notMem fun a ha => ?_
  have h := happrox a (denoteAll_subset_mask pre ha)
  simp only [Option.getD_some, Finset.notMem_empty, false_iff] at h
  exact h ha

variable {read}

/-- The evaluator passes over tokens it reads as nothing. -/
theorem evaluate_skips :
    ∀ (tail : List (SearchFilter Cond)) (state : State α) (stack : List (State α)),
      (∀ filter ∈ tail, read filter = .ok .skip) → evaluate mask read tail state stack = .ok state
  | [], _, _, _ => evaluate_nil
  | filter :: tail, state, stack, hskip => by
    rw [evaluate_cons_skip (hskip filter List.mem_cons_self)]
    exact evaluate_skips tail state stack fun f hf => hskip f (List.mem_cons_of_mem _ hf)

theorem dropWhile_eq_nil_of_forall {β : Type} {p : β → Bool} :
    ∀ {l : List β}, (∀ x ∈ l, p x = true) → l.dropWhile p = []
  | [], _ => rfl
  | x :: l, h => by
    rw [List.dropWhile_cons, if_pos (h x List.mem_cons_self)]
    exact dropWhile_eq_nil_of_forall fun y hy => h y (List.mem_cons_of_mem _ hy)

/-- Skipping to the `End` that closes a group goes straight to it. -/
theorem evaluate_dropWhile_of_closes {tail : List (SearchFilter Cond)} (hclose : Closes read tail)
    (state : State α) (stack : List (State α)) :
    evaluate mask read (tail.dropWhile fun filter => !filter.isEnd) state stack =
      evaluate mask read tail state stack := by
  rcases hclose with ⟨rest, rfl⟩ | hskips
  · simp [SearchFilter.isEnd]
  · have hnil : (tail.dropWhile fun filter => !filter.isEnd) = [] :=
      dropWhile_eq_nil_of_forall fun filter hf => by simp [(hskips filter hf).2]
    rw [hnil, evaluate_skips tail state stack fun filter hf => (hskips filter hf).1, evaluate_nil]

/-- The short-circuit skips leaves, which are not `End`. -/
theorem dropWhile_toFiltersList_leaves :
    ∀ {children : List (FilterTree Cond)}, (∀ child ∈ children, child.leafToken.isSome) →
      ∀ tail : List (SearchFilter Cond),
        (FilterTree.toFiltersList children ++ tail).dropWhile (fun filter => !filter.isEnd) =
          tail.dropWhile fun filter => !filter.isEnd
  | [], _, _ => by simp [FilterTree.toFiltersList]
  | child :: children, hleaves, tail => by
    have hrest := dropWhile_toFiltersList_leaves
      (fun c hc => hleaves c (List.mem_cons_of_mem _ hc)) tail
    cases child with
    | operator cond =>
      simpa [FilterTree.toFiltersList, FilterTree.toFilters, SearchFilter.isEnd] using hrest
    | documentSet set =>
      simpa [FilterTree.toFiltersList, FilterTree.toFilters, SearchFilter.isEnd] using hrest
    | group op cs => simp [FilterTree.leafToken] at hleaves

section Simulation

mutual

/-- **The tokens of a tree act as one result.** Reading the tokens of a well-formed tree whose
short-circuits skip only leaves combines into the open group one result, which stands for the
tree's documents. -/
theorem evaluate_toFilters (hopen : ∀ op, read op.opener = .ok (.push op))
    (hend : read .end = .ok .pop) :
    ∀ (tree : FilterTree Cond), tree.WellFormed (LeafReads mask leaf read) →
      SkipSafe mask leaf tree →
      ∀ (rest : List (SearchFilter Cond)) (state : State α) (stack : List (State α)),
        ∃ result, Approx mask result (tree.denote mask leaf) ∧
          evaluate mask read (tree.toFilters ++ rest) state stack =
            evaluate mask read (shortCircuit (state.apply mask result) rest)
              (state.apply mask result) stack
  | .operator cond, hwf, _, rest, state, stack => by
    obtain ⟨result, hread, happrox⟩ := hwf
    exact ⟨result, happrox, evaluate_cons_result hread⟩
  | .documentSet set, hwf, _, rest, state, stack => by
    obtain ⟨result, hread, happrox⟩ := hwf
    exact ⟨result, happrox, evaluate_cons_result hread⟩
  | .group op children, hwf, hsafe, rest, state, stack => by
    -- the group opens, its children combine into it, and its `End` closes it
    obtain ⟨hne, hchildren⟩ := hwf
    obtain ⟨bm, hinv, heval⟩ := evaluate_toFiltersList hopen hend children op [] none hchildren
      hsafe.2
      hsafe.1 (by simp [GroupInv]) (.end :: rest) (Or.inl ⟨rest, rfl⟩) (state :: stack)
    rw [List.nil_append] at hinv
    unfold GroupInv at hinv
    rw [if_neg hne] at hinv
    obtain ⟨documents, rfl, happrox⟩ := hinv
    refine ⟨some documents, happrox, ?_⟩
    have htokens : (FilterTree.group op children).toFilters ++ rest =
        op.opener :: (FilterTree.toFiltersList children ++ .end :: rest) := by
      simp [FilterTree.toFilters]
    rw [htokens, evaluate_cons_push (hopen op), heval, evaluate_cons_pop hend]

/-- **The tokens of a group's children.** Reading them combines each child into the group, and
the group's result then stands for the group of all its children; an `And` short-circuit lands
on the tokens after them. -/
theorem evaluate_toFiltersList (hopen : ∀ op, read op.opener = .ok (.push op))
    (hend : read .end = .ok .pop) :
    ∀ (children : List (FilterTree Cond)) (op : GroupOp) (pre : List (FilterTree Cond))
      (bm : Option (Finset α)),
      FilterTree.AllWellFormed (LeafReads mask leaf read) children →
      AllSkipSafe mask leaf children → (op = .and → AndSafe mask leaf pre children) →
      GroupInv mask leaf op pre bm →
      ∀ (tail : List (SearchFilter Cond)), Closes read tail → ∀ (stack : List (State α)),
        ∃ bm', GroupInv mask leaf op (pre ++ children) bm' ∧
          evaluate mask read (FilterTree.toFiltersList children ++ tail) ⟨op, bm⟩ stack =
            evaluate mask read tail ⟨op, bm'⟩ stack
  | [], op, pre, bm, _, _, _, hinv, tail, _, stack => by
    refine ⟨bm, by simpa using hinv, ?_⟩
    rw [FilterTree.toFiltersList, List.nil_append]
  | child :: children, op, pre, bm, hwf, hsafe, hand, hinv, tail, hclose, stack => by
    obtain ⟨result, happrox, heval⟩ := evaluate_toFilters hopen hend child hwf.1 hsafe.1
      (FilterTree.toFiltersList children ++ tail) ⟨op, bm⟩ stack
    obtain ⟨hop, hinv'⟩ := State.apply_groupInv hinv happrox
    rw [FilterTree.toFiltersList, List.append_assoc, heval]
    set state' := (⟨op, bm⟩ : State α).apply mask result with hstate'
    have hstate : state' = ⟨op, state'.bm⟩ := by rw [← hop]
    by_cases hshort : state'.op = .and ∧ state'.bm = some ∅
    · -- the group selects no document: the short-circuit skips the leaves after the child
      have hand' : op = .and := hop ▸ hshort.1
      subst hand'
      have hinv'' : GroupInv mask leaf .and (pre ++ [child]) (some ∅) := hshort.2 ▸ hinv'
      have hempty := denoteAll_eq_empty_of_groupInv hinv''
      have hleaves := AndSafe.leaves (hand rfl).2
        (List.append_ne_nil_of_right_ne_nil pre (List.cons_ne_nil _ _)) hempty
      have hall : FilterTree.denoteAll mask leaf (pre ++ child :: children) = ∅ := by
        have h := denoteAll_append_eq_empty hempty children
        rwa [List.append_assoc, List.singleton_append] at h
      refine ⟨some ∅, ?_, ?_⟩
      · unfold GroupInv
        rw [if_neg (List.append_ne_nil_of_right_ne_nil pre (List.cons_ne_nil _ _))]
        refine ⟨∅, rfl, fun a _ => ?_⟩
        simp [FilterTree.denote, hall]
      · rw [shortCircuit, if_pos hshort, dropWhile_toFiltersList_leaves hleaves,
          evaluate_dropWhile_of_closes hclose, hstate, hshort.2]
    · -- otherwise the next children follow
      rw [shortCircuit, if_neg hshort, hstate]
      obtain ⟨bm', hinv'', heval'⟩ := evaluate_toFiltersList hopen hend children op
        (pre ++ [child]) state'.bm hwf.2 hsafe.2 (fun hand' => (hand hand').2) hinv' tail hclose
        stack
      refine ⟨bm', by simpa using hinv'', heval'⟩

end

end Simulation

/-- The top group: reading the tokens of a list of trees, followed by tokens the evaluator passes
over, leaves a result that stands for the documents the trees all select. -/
theorem evaluate_toFiltersList_top (hopen : ∀ op, read op.opener = .ok (.push op))
    (hend : read .end = .ok .pop) {trees : List (FilterTree Cond)} (hne : trees ≠ [])
    (hwf : FilterTree.AllWellFormed (LeafReads mask leaf read) trees)
    (hsafe : AllSkipSafe mask leaf trees) (hand : AndSafe mask leaf [] trees)
    {extra : List (SearchFilter Cond)}
    (hextra : ∀ filter ∈ extra, read filter = .ok .skip ∧ filter.isEnd = false) :
    ∃ documents, evaluate mask read (FilterTree.toFiltersList trees ++ extra) ⟨.and, none⟩ [] =
        .ok ⟨.and, some documents⟩ ∧
      documents ∩ mask = FilterTree.denoteAll mask leaf trees := by
  obtain ⟨bm, hinv, heval⟩ := evaluate_toFiltersList hopen hend trees .and [] none hwf hsafe
    (fun _ => hand) (by simp [GroupInv]) extra (Or.inr hextra) []
  rw [List.nil_append] at hinv
  unfold GroupInv at hinv
  rw [if_neg hne] at hinv
  obtain ⟨documents, rfl, happrox⟩ := hinv
  refine ⟨documents, by rw [heval, evaluate_skips extra _ [] fun f hf => (hextra f hf).1], ?_⟩
  ext a
  constructor
  · intro ha
    rw [Finset.mem_inter] at ha
    exact (happrox a ha.2).mp ha.1
  · intro ha
    have hmask := denoteAll_subset_mask trees ha
    exact Finset.mem_inter.mpr ⟨(happrox a hmask).mpr ha, hmask⟩

end Law

/-- The documents of the sets of documents. -/
def setLeaf {Cond : Type} : SearchFilter Cond → Finset UInt32
  | .documentSet set => set
  | _ => ∅

section Evaluators

variable {Cond : Type}

/-- **The evaluation law** for `SearchQuery::filter`: on the tokens of well-formed trees of sets
of documents whose short-circuits skip only leaves, it returns the documents of the mask that the
trees all select. -/
theorem filter_toFilters {mask : Finset UInt32} {trees : List (FilterTree Cond)} (hne : trees ≠ [])
    (hwf : FilterTree.AllWellFormed (fun filter => ∃ set, filter = .documentSet set) trees)
    (hsafe : AllSkipSafe mask setLeaf trees) (hand : AndSafe mask setLeaf [] trees) :
    (SearchQuery.mk (FilterTree.toFiltersList trees) mask).filter =
      FilterTree.denoteAll mask setLeaf trees := by
  have hreads : FilterTree.AllWellFormed (LeafReads mask setLeaf filterStep) trees :=
    FilterTree.AllWellFormed.mono (fun filter ⟨set, hset⟩ => by
      subst hset
      exact ⟨some set, rfl, fun a _ => by simp [setLeaf]⟩) hwf
  have hnone : ∀ filter ∈ ([] : List (SearchFilter Cond)),
      filterStep filter = .ok .skip ∧ filter.isEnd = false := fun _ hf => absurd hf List.not_mem_nil
  obtain ⟨documents, heval, hdocuments⟩ := evaluate_toFiltersList_top
    (fun op => by cases op <;> rfl) rfl hne hreads hsafe hand hnone
  rw [List.append_nil] at heval
  have hfilters : (FilterTree.toFiltersList trees).isEmpty = false := by
    simpa using FilterTree.toFiltersList_ne_nil hne
  simp only [SearchQuery.filter, hfilters, Bool.false_eq_true, if_false, heval, Option.getD_some,
    hdocuments]

/-- `Or ({1, 2}, {3})` and then `{2, 3}`, in the list's own `And` group. -/
def orThenSet : List (FilterTree Unit) :=
  [.group .or [.documentSet {1, 2}, .documentSet {3}], .documentSet {2, 3}]

/-- `filter` on the tokens of `orThenSet` selects the documents the trees select: `2` and `3`. -/
theorem filter_toFilters_orThenSet :
    (SearchQuery.mk (FilterTree.toFiltersList orThenSet) {1, 2, 3, 4}).filter =
        FilterTree.denoteAll {1, 2, 3, 4} setLeaf orThenSet ∧
      FilterTree.denoteAll {1, 2, 3, 4} setLeaf orThenSet = {2, 3} := by
  have hwf : FilterTree.AllWellFormed (fun filter => ∃ set, filter = .documentSet set) orThenSet :=
    ⟨⟨List.cons_ne_nil _ _, ⟨_, rfl⟩, ⟨_, rfl⟩, trivial⟩, ⟨_, rfl⟩, trivial⟩
  have hsafe : AllSkipSafe {1, 2, 3, 4} setLeaf orThenSet := by
    simp [orThenSet, AllSkipSafe, SkipSafe]
  -- only the last tree can be skipped, and it is a leaf
  have hand : AndSafe {1, 2, 3, 4} setLeaf [] orThenSet :=
    ⟨fun hpre => absurd rfl hpre, fun _ _ => rfl, trivial⟩
  exact ⟨filter_toFilters (List.cons_ne_nil _ _) hwf hsafe hand, by decide⟩

end Evaluators

/-- `Or (And (∅, Or ({1}), {2}), {3})`: the first set of the `And` group is empty, and a nested
group follows it. -/
def nestedAndTree : FilterTree Unit :=
  .group .or [.group .and [.documentSet ∅, .group .or [.documentSet {1}], .documentSet {2}],
    .documentSet {3}]

/-- An index whose one condition is the account's. -/
def accountOnly : AccountIndex Unit where
  isAccountId := fun _ => true
  accountIdOf := fun _ => some 1
  resolve := fun _ _ => .ok none

theorem filter_andShortCircuit_nested :
    (SearchQuery.mk nestedAndTree.toFilters {1, 2, 3}).filter = ∅ ∧
      queryAccount accountOnly ⟨nestedAndTree.toFilters ++ [.operator ()], {1, 2, 3}⟩ = .ok ∅ ∧
      FilterTree.denoteAll {1, 2, 3} setLeaf [nestedAndTree] = {3} := by
  refine ⟨?_, ?_, by decide⟩
  · simp [SearchQuery.filter, nestedAndTree, FilterTree.toFilters, FilterTree.toFiltersList,
      GroupOp.opener, evaluate, filterStep, State.apply, shortCircuit, SearchFilter.isEnd]
  · simp [queryAccount, accountOnly, nestedAndTree, FilterTree.toFilters,
      FilterTree.toFiltersList, GroupOp.opener, evaluate, accountStep, State.apply, shortCircuit,
      SearchFilter.isEnd, Except.map]

end Stalwart.Store.Search
