import Mathlib.Data.List.Basic
import Stalwart.Lib.Acyclic
import Stalwart.Lib.SortedMap

/-!
# Topological sort

`TopologicalSort` collects edges and counts, for each node, the edges that come into it. Its
iterator runs Kahn's algorithm. It starts from the nodes with no incoming edge, queued. Each node
it yields takes its edges away, and a node whose last incoming edge goes is queued at the front.
Nodes are yielded from the back of the queue. The maps are hash maps in the source; here they are
association lists. Only `into_iterator` iterates one, the counts, to fill the queue; the order it
visits them in is a parameter.

## What is proved

Each step of the iterator takes a node off the queue and moves as many nodes from the counts to
the queue as it removes from the counts, so the queue and the counts shrink together by one
(`next_measure_lt`) and the iterator ends (`TopologicalSortIterator.toList`).

The graph is the list of edges inserted, duplicates and loops included (`Edge`). `Built` says what
the inserts leave: the targets of each node's edges, and for each node of the graph the number of
edges into it (`built_insertAll`). While the iterator runs it keeps `Kahn`: each count is the
number of edges into the node from nodes not yet yielded (`pending`), the queued nodes have none,
each node of the graph is counted, queued or yielded, once, and each yielded node came after the
sources of its edges. Releasing the neighbours of a yielded node keeps `Releasing`, the same
counts raised by the edges still to release (`Releasing.release`); so a step keeps `Kahn`
(`Kahn.next`), and so does the whole run (`Kahn.exhaust`). When the queue is empty, `is_valid`
holds exactly when every node was yielded (`Kahn.isValid_iff`); otherwise each counted node has
an edge from another one, and the nodes left hold a cycle (`Kahn.exists_cycle`, from
`Relation.exists_transGen_self_of_forall_pred`). A node of a cycle is never yielded, since the
order respects the edges (`List.RespectsPreds.not_transGen_self`). Together
(`into_iterator_sorts`): the order has no repeats and respects the edges, and `is_valid` holds
exactly when the graph has no cycle, in which case every node of the graph is yielded.
-/

set_option autoImplicit false

namespace Stalwart.Utils

variable {T V : Type} [DecidableEq T]

/-- `entry(key).or_insert(default)` on a map, with `f` applied to the value. -/
def upsert (key : T) (default : V) (f : V → V) : List (T × V) → List (T × V)
  | [] => [(key, f default)]
  | (k, v) :: rest => if k = key then (k, f v) :: rest else (k, v) :: upsert key default f rest

-- the equations of `upsert` are made once, here, before the proofs that unfold it
section
attribute [local simp] upsert
end

theorem exists_mem_of_lookup {key : T} {value : V} :
    ∀ {entries : List (T × V)}, entries.lookup key = some value → ∃ entry ∈ entries, entry.1 = key
  | [], h => by simp at h
  | (k, v) :: rest, h => by
    by_cases hk : key = k
    · exact ⟨(k, v), List.mem_cons_self, hk.symm⟩
    · simp only [List.lookup_cons, beq_false_of_ne hk] at h
      obtain ⟨entry, hmem, hentry⟩ := exists_mem_of_lookup h
      exact ⟨entry, List.mem_cons_of_mem _ hmem, hentry⟩

theorem length_upsert_of_mem {key : T} (default : V) (f : V → V) :
    ∀ {entries : List (T × V)}, (∃ entry ∈ entries, entry.1 = key) →
      (upsert key default f entries).length = entries.length
  | [], ⟨_, hmem, _⟩ => absurd hmem List.not_mem_nil
  | (k, v) :: rest, ⟨entry, hmem, hkey⟩ => by
    rw [upsert]
    split
    · rfl
    · rename_i hk
      rcases List.mem_cons.mp hmem with rfl | hrest
      · exact absurd hkey hk
      · simp [length_upsert_of_mem default f ⟨entry, hrest, hkey⟩]

/-- An entry after `upsert` was there before, or is the key with `f` applied to its old value or
to the default. -/
theorem mem_upsert {key : T} {default : V} {f : V → V} :
    ∀ {entries : List (T × V)} {entry : T × V}, entry ∈ upsert key default f entries →
      entry ∈ entries ∨ ∃ v, entry = (key, f v) ∧ (v = default ∨ (key, v) ∈ entries)
  | [], entry, h => by
    rw [upsert, List.mem_singleton] at h
    exact .inr ⟨default, h, .inl rfl⟩
  | (k, v) :: rest, entry, h => by
    rw [upsert] at h
    split at h
    · rename_i hk
      subst hk
      rcases List.mem_cons.mp h with rfl | hrest
      · exact .inr ⟨v, rfl, .inr List.mem_cons_self⟩
      · exact .inl (List.mem_cons_of_mem _ hrest)
    · rcases List.mem_cons.mp h with rfl | hrest
      · exact .inl List.mem_cons_self
      · rcases mem_upsert hrest with hmem | ⟨v', rfl, hv'⟩
        · exact .inl (List.mem_cons_of_mem _ hmem)
        · exact .inr ⟨v', rfl, hv'.imp id (List.mem_cons_of_mem _)⟩

/-- `upsert` changes the value at its key alone. -/
theorem lookup_upsert (key : T) (default : V) (f : V → V) (n : T) :
    ∀ entries : List (T × V), (upsert key default f entries).lookup n =
      if n = key then some (f ((entries.lookup key).getD default)) else entries.lookup n
  | [] => by by_cases h : n = key <;> simp [upsert, h]
  | (k, v) :: rest => by
    rw [upsert]
    split
    · rename_i hk
      subst hk
      by_cases h : n = k <;> simp [h, List.lookup_cons, beq_false_of_ne]
    · rename_i hk
      have ih := lookup_upsert key default f n rest
      by_cases h : n = k
      · subst h
        simp [hk]
      · by_cases h' : n = key
        · subst h'
          simp [List.lookup_cons, ih, beq_false_of_ne h]
        · simp [List.lookup_cons, ih, h', beq_false_of_ne h]

/-- `upsert` adds its key at the end, unless the key is there. -/
theorem keys_upsert (key : T) (default : V) (f : V → V) :
    ∀ entries : List (T × V), (upsert key default f entries).map Prod.fst =
      if key ∈ entries.map Prod.fst then entries.map Prod.fst else entries.map Prod.fst ++ [key]
  | [] => by simp [upsert]
  | (k, v) :: rest => by
    rw [upsert]
    split
    · rename_i hk
      simp [hk]
    · rename_i hk
      rw [List.map_cons, List.map_cons, keys_upsert key default f rest]
      by_cases h : key ∈ rest.map Prod.fst <;> simp [h, Ne.symm hk]

/-- `remove` of a key, as `eraseP`, leaves what the other keys look up. -/
theorem lookup_eraseP_of_ne {m n : T} (hn : n ≠ m) :
    ∀ entries : List (T × V), (entries.eraseP (·.1 = m)).lookup n = entries.lookup n
  | [] => rfl
  | (k, v) :: rest => by
    by_cases hk : k = m
    · subst hk
      simp [List.lookup_cons, beq_false_of_ne hn]
    · simp [hk, List.lookup_cons, lookup_eraseP_of_ne hn rest]

/-- Removing a key takes it out of the keys and leaves the others. -/
theorem keys_eraseP_perm {m : T} {entries : List (T × V)} (hm : m ∈ entries.map Prod.fst) :
    List.Perm (m :: (entries.eraseP (·.1 = m)).map Prod.fst) (entries.map Prod.fst) := by
  obtain ⟨entry, hmem, hkey⟩ := List.mem_map.mp hm
  obtain ⟨e, l₁, l₂, -, he, rfl, heq⟩ :=
    List.exists_of_eraseP (p := fun e : T × V => decide (e.1 = m)) hmem (by simpa using hkey)
  rw [heq]
  simp only [decide_eq_true_eq] at he
  simpa [he] using List.perm_middle.symm

/-- `TopologicalSort`: the edges out of each node, and the count of edges into each node. -/
structure TopologicalSort (T : Type) where
  edges : List (T × List T)
  count : List (T × Nat)

/-- `TopologicalSort::with_capacity`. -/
def TopologicalSort.withCapacity : TopologicalSort T :=
  ⟨[], []⟩

/-- `TopologicalSort::insert`. -/
def TopologicalSort.insert (sort : TopologicalSort T) (src dst : T) : TopologicalSort T :=
  { edges := upsert src [] (· ++ [dst]) sort.edges
    count := upsert dst 0 (· + 1) (upsert src 0 id sort.count) }

/-- `TopologicalSortIterator`: the edges, the counts of the nodes not yet queued, and the queue,
front first. -/
structure TopologicalSortIterator (T : Type) where
  edges : List (T × List T)
  count : List (T × Nat)
  noEdges : List T

/-- `TopologicalSort::into_iterator`: the nodes of count zero leave the counts for the queue.
`retain` visits the entries of the hash map in an order of its own, `order`, which is the order of
the queue and of the counts left. -/
def TopologicalSort.intoIterator (sort : TopologicalSort T) (order : List (T × Nat)) :
    TopologicalSortIterator T :=
  { edges := sort.edges
    count := order.filter (·.2 ≠ 0)
    noEdges := (order.filter (·.2 = 0)).map (·.1) }

/-- One neighbour of a yielded node: one incoming edge less, and, for its last, the neighbour
leaves the counts for the front of the queue. -/
def releaseNeighbor (state : List (T × Nat) × List T) (neighbor : T) : List (T × Nat) × List T :=
  match state.1.lookup neighbor with
  | some count =>
    if count - 1 = 0 then (state.1.eraseP (·.1 = neighbor), neighbor :: state.2)
    else (upsert neighbor 0 (· - 1) state.1, state.2)
  | none => state

/-- `TopologicalSortIterator::next`: the node at the back of the queue, with its neighbours
released. -/
def TopologicalSortIterator.next (it : TopologicalSortIterator T) :
    Option (T × TopologicalSortIterator T) :=
  match it.noEdges.getLast? with
  | none => none
  | some noEdge =>
    let released :=
      ((it.edges.lookup noEdge).getD []).foldl releaseNeighbor (it.count, it.noEdges.dropLast)
    some (noEdge, { it with count := released.1, noEdges := released.2 })

-- the equations of `releaseNeighbor` and `next` are made once, here, before the proofs that unfold
-- them
section
attribute [local simp] releaseNeighbor.eq_def TopologicalSortIterator.next.eq_def
end

theorem releaseNeighbor_measure (state : List (T × Nat) × List T) (neighbor : T) :
    (releaseNeighbor state neighbor).1.length + (releaseNeighbor state neighbor).2.length =
      state.1.length + state.2.length := by
  unfold releaseNeighbor
  split
  · rename_i count hcount
    obtain ⟨entry, hmem, hkey⟩ := exists_mem_of_lookup hcount
    split
    · have hpos : 0 < state.1.length := List.length_pos_of_mem hmem
      simp only [List.length_cons]
      rw [List.length_eraseP_of_mem hmem (by simp [hkey])]
      omega
    · rw [length_upsert_of_mem 0 _ ⟨entry, hmem, hkey⟩]
  · rfl

theorem foldl_releaseNeighbor_measure (neighbors : List T) (state : List (T × Nat) × List T) :
    (neighbors.foldl releaseNeighbor state).1.length +
        (neighbors.foldl releaseNeighbor state).2.length =
      state.1.length + state.2.length := by
  induction neighbors generalizing state with
  | nil => rfl
  | cons neighbor neighbors ih => rw [List.foldl_cons, ih, releaseNeighbor_measure]

/-- Each step shrinks the queue plus the counts by one. -/
theorem next_measure_lt {it it' : TopologicalSortIterator T} {node : T}
    (h : it.next = some (node, it')) :
    it'.noEdges.length + it'.count.length < it.noEdges.length + it.count.length := by
  unfold TopologicalSortIterator.next at h
  split at h
  · cases h
  · rename_i noEdge hlast
    obtain ⟨rfl, rfl⟩ := Prod.mk.inj (Option.some.inj h)
    have hpos : 0 < it.noEdges.length :=
      List.length_pos_of_mem (List.mem_of_getLast? hlast)
    have hmeasure := foldl_releaseNeighbor_measure ((it.edges.lookup noEdge).getD [])
      (it.count, it.noEdges.dropLast)
    simp only [List.length_dropLast] at hmeasure
    simp only
    omega

/-- The nodes the iterator yields, in order. -/
def TopologicalSortIterator.toList (it : TopologicalSortIterator T) : List T :=
  match _h : it.next with
  | none => []
  | some (node, it') => node :: it'.toList
termination_by it.noEdges.length + it.count.length
decreasing_by exact next_measure_lt _h

/-- The iterator once `next` has returned `None`. -/
def TopologicalSortIterator.exhaust (it : TopologicalSortIterator T) : TopologicalSortIterator T :=
  match _h : it.next with
  | none => it
  | some (_, it') => it'.exhaust
termination_by it.noEdges.length + it.count.length
decreasing_by exact next_measure_lt _h

/-- `TopologicalSortIterator::is_valid`. -/
def TopologicalSortIterator.isValid (it : TopologicalSortIterator T) : Bool :=
  it.count.isEmpty

/-- A sort with the edges inserted in order, `insert(a, b)` for each `(a, b)`. -/
def TopologicalSort.insertAll (edges : List (T × T)) : TopologicalSort T :=
  edges.foldl (fun sort edge => sort.insert edge.1 edge.2) withCapacity

-- the equations of `toList`, `exhaust` and `isValid` are made once, here, before the proofs that
-- unfold them
section
attribute [local simp] TopologicalSortIterator.toList TopologicalSortIterator.exhaust
  TopologicalSortIterator.isValid
end

namespace TopologicalSortIterator

variable {it it' : TopologicalSortIterator T} {node : T}

theorem next_eq_none_iff : it.next = none ↔ it.noEdges = [] := by
  unfold next
  split
  · simp_all
  · rename_i hlast
    simp only [reduceCtorEq, false_iff]
    rintro hnil
    simp [hnil] at hlast

/-- What one step does: the node at the back of the queue is yielded, and its neighbours are
released from the rest of the queue. -/
theorem next_eq_some (h : it.next = some (node, it')) :
    it.noEdges = it.noEdges.dropLast ++ [node] ∧
      it' = { it with
        count := (((it.edges.lookup node).getD []).foldl releaseNeighbor
          (it.count, it.noEdges.dropLast)).1
        noEdges := (((it.edges.lookup node).getD []).foldl releaseNeighbor
          (it.count, it.noEdges.dropLast)).2 } := by
  unfold next at h
  split at h
  · cases h
  · rename_i noEdge hlast
    obtain ⟨rfl, rfl⟩ := Prod.mk.inj (Option.some.inj h)
    exact ⟨(List.dropLast_append_getLast? _ hlast).symm, rfl⟩

theorem toList_of_next_none (h : it.next = none) : it.toList = [] := by
  rw [toList]
  split <;> simp_all

theorem toList_of_next_some (h : it.next = some (node, it')) : it.toList = node :: it'.toList := by
  rw [toList]
  split <;> simp_all

theorem exhaust_of_next_none (h : it.next = none) : it.exhaust = it := by
  rw [exhaust]
  split <;> simp_all

theorem exhaust_of_next_some (h : it.next = some (node, it')) : it.exhaust = it'.exhaust := by
  rw [exhaust]
  split <;> simp_all

end TopologicalSortIterator

namespace TopologicalSort

/-! ## The graph of the inserted edges -/

section Graph

variable (edges : List (T × T))

/-- The graph of the inserted edges: `a` to `b` for each `insert(a, b)`. -/
def Edge (a b : T) : Prop := (a, b) ∈ edges

/-- The nodes of the graph: those an edge starts or ends at. -/
def InGraph (x : T) : Prop := ∃ e ∈ edges, e.1 = x ∨ e.2 = x

/-- The targets of the edges out of `a`, in the order they were inserted. -/
def targets (a : T) : List T := (edges.filter (·.1 = a)).map (·.2)

/-- The edges into `n` whose source has not been yielded. -/
def pending (out : List T) (n : T) : Nat := edges.countP fun e => e.2 = n ∧ e.1 ∉ out

-- the equations of `Edge`, `InGraph`, `targets` and `pending` are made once, here, before the
-- proofs that unfold them
section
attribute [local simp] Edge InGraph targets pending
end

variable {edges}

theorem mem_targets {a n : T} : n ∈ targets edges a ↔ Edge edges a n := by
  simp [targets, Edge]

omit [DecidableEq T] in
theorem inGraph_of_edge {a b : T} (h : Edge edges a b) : InGraph edges a ∧ InGraph edges b :=
  ⟨⟨(a, b), h, .inl rfl⟩, ⟨(a, b), h, .inr rfl⟩⟩

theorem pending_eq_zero_iff {out : List T} {n : T} :
    pending edges out n = 0 ↔ ∀ a, Edge edges a n → a ∈ out := by
  simp only [pending, List.countP_eq_zero, decide_eq_true_eq, not_and, not_not, Edge]
  constructor
  · exact fun h a ha => h (a, n) ha rfl
  · rintro h ⟨a, b⟩ hab rfl
    exact h a hab

/-- Yielding `a` takes its edges away: those into `n` are the ones `targets` lists. -/
theorem pending_snoc {out : List T} {a : T} (ha : a ∉ out) (n : T) :
    pending edges out n = pending edges (out ++ [a]) n + (targets edges a).count n := by
  induction edges with
  | nil => rfl
  | cons e edges ih =>
    simp only [pending, targets] at ih ⊢
    rw [List.countP_cons, List.countP_cons, List.filter_cons, ih]
    by_cases h1 : e.1 = a <;> by_cases h2 : e.2 = n
    · subst h1 h2
      simp [ha]
      omega
    · subst h1
      simp [ha, h2]
    · simp [h1, h2]
      omega
    · simp [h1, h2]

end Graph

/-! ## Releasing the neighbours of a yielded node -/

section Releasing

variable {edges : List (T × T)}

variable (edges) in
/-- While the neighbours of a yielded node are released, with `rest` still to go: the counts are
the edges into each node from nodes not yet yielded, raised by those `rest` still holds. The
counted nodes, the queue and the yielded nodes are the nodes of the graph, each once. -/
structure Releasing (out rest : List T) (state : List (T × Nat) × List T) : Prop where
  count_eq : ∀ n ∈ state.1.map Prod.fst,
    state.1.lookup n = some (pending edges out n + rest.count n)
  count_pos : ∀ n ∈ state.1.map Prod.fst, 0 < pending edges out n + rest.count n
  ready : ∀ n ∈ state.2, pending edges out n + rest.count n = 0
  nodup : (state.1.map Prod.fst ++ state.2 ++ out).Nodup
  cover : ∀ x, x ∈ state.1.map Prod.fst ++ state.2 ++ out ↔ InGraph edges x
  fresh : ∀ n ∈ rest, n ∉ out ∧ InGraph edges n

/-- Releasing one neighbour keeps the invariant, with one edge less to go. The neighbour is still
counted: it is not yielded, and it is not queued, since an edge into it is left. -/
theorem Releasing.release {out rest : List T} {m : T} {state : List (T × Nat) × List T}
    (h : Releasing edges out (m :: rest) state) : Releasing edges out rest (releaseNeighbor state m) := by
  obtain ⟨hout, hgraph⟩ := h.fresh m List.mem_cons_self
  have hqueue : m ∉ state.2 := fun hq => by simpa using h.ready m hq
  have hkey : m ∈ state.1.map Prod.fst := by
    have hmem := (h.cover m).mpr hgraph
    simp only [List.mem_append] at hmem
    tauto
  have hkeys : (state.1.map Prod.fst).Nodup := (List.nodup_append.mp (List.nodup_append.mp h.nodup).1).1
  have hcount : ∀ n, n ≠ m → (m :: rest).count n = rest.count n :=
    fun n hn => List.count_cons_of_ne (Ne.symm hn)
  have hlookup := h.count_eq m hkey
  rw [List.count_cons_self] at hlookup
  unfold releaseNeighbor
  rw [hlookup]
  dsimp only
  split
  · -- the last edge into the neighbour: it leaves the counts for the front of the queue
    rename_i hzero
    have hperm : List.Perm ((state.1.eraseP (·.1 = m)).map Prod.fst ++ (m :: state.2) ++ out)
        (state.1.map Prod.fst ++ state.2 ++ out) := by
      have h' := (keys_eraseP_perm hkey).append_right (state.2 ++ out)
      simp only [List.append_assoc, List.cons_append] at h' ⊢
      exact List.perm_middle.trans h'
    have hgone : m ∉ (state.1.eraseP (·.1 = m)).map Prod.fst :=
      (List.nodup_cons.mp ((keys_eraseP_perm hkey).nodup_iff.mpr hkeys)).1
    have hne : ∀ n ∈ (state.1.eraseP (·.1 = m)).map Prod.fst, n ≠ m ∧ n ∈ state.1.map Prod.fst :=
      fun n hn => ⟨fun heq => hgone (heq ▸ hn),
        (keys_eraseP_perm hkey).subset (List.mem_cons_of_mem _ hn)⟩
    refine ⟨fun n hn => ?_, fun n hn => ?_, fun n hn => ?_, hperm.nodup_iff.mpr h.nodup,
      fun x => hperm.mem_iff.trans (h.cover x), fun n hn => h.fresh n (List.mem_cons_of_mem _ hn)⟩
    · obtain ⟨hnm, hn⟩ := hne n hn
      rw [lookup_eraseP_of_ne hnm, h.count_eq n hn, hcount n hnm]
    · obtain ⟨hnm, hn⟩ := hne n hn
      simpa [hcount n hnm] using h.count_pos n hn
    · rcases List.mem_cons.mp hn with rfl | hn
      · omega
      · have hnm : n ≠ m := fun heq => hqueue (heq ▸ hn)
        simpa [hcount n hnm] using h.ready n hn
  · -- an edge into the neighbour is left: its count goes down by one
    rename_i hpos
    have hkeys' : (upsert m 0 (· - 1) state.1).map Prod.fst = state.1.map Prod.fst := by
      rw [keys_upsert, if_pos hkey]
    refine ⟨fun n hn => ?_, fun n hn => ?_, fun n hn => ?_, ?_, fun x => ?_,
      fun n hn => h.fresh n (List.mem_cons_of_mem _ hn)⟩
    · rw [hkeys'] at hn
      rw [lookup_upsert, hlookup]
      by_cases hnm : n = m
      · subst hnm
        simp
      · rw [if_neg hnm, h.count_eq n hn, hcount n hnm]
    · rw [hkeys'] at hn
      by_cases hnm : n = m
      · subst hnm
        omega
      · simpa [hcount n hnm] using h.count_pos n hn
    · have hnm : n ≠ m := fun heq => hqueue (heq ▸ hn)
      simpa [hcount n hnm] using h.ready n hn
    · rw [hkeys']
      exact h.nodup
    · rw [hkeys']
      exact h.cover x

/-- Releasing all the neighbours. -/
theorem Releasing.foldl {out : List T} :
    ∀ {rest : List T} {state : List (T × Nat) × List T}, Releasing edges out rest state →
      Releasing edges out [] (rest.foldl releaseNeighbor state)
  | [], _, h => h
  | _ :: _, _, h => by
    rw [List.foldl_cons]
    exact Releasing.foldl h.release

end Releasing

/-! ## The iterator's invariant -/

section Run

variable {edges : List (T × T)}

variable (edges) in
/-- What the iterator keeps while it runs, with `out` the nodes yielded so far: the counts are the
edges into each node from nodes not yet yielded, the queued nodes have none left, the counted,
queued and yielded nodes are the nodes of the graph, each once, and each yielded node came after
the sources of its edges. -/
structure Kahn (out : List T) (it : TopologicalSortIterator T) : Prop where
  edges_eq : ∀ a, (it.edges.lookup a).getD [] = targets edges a
  count_eq : ∀ n ∈ it.count.map Prod.fst, it.count.lookup n = some (pending edges out n)
  count_pos : ∀ n ∈ it.count.map Prod.fst, 0 < pending edges out n
  ready : ∀ n ∈ it.noEdges, pending edges out n = 0
  nodup : (it.count.map Prod.fst ++ it.noEdges ++ out).Nodup
  cover : ∀ x, x ∈ it.count.map Prod.fst ++ it.noEdges ++ out ↔ InGraph edges x
  respects : out.RespectsPreds (Edge edges)

/-- **The step lemma**: `next` keeps the invariant, with the node it yields added to `out`. -/
theorem Kahn.next {out : List T} {it it' : TopologicalSortIterator T} {node : T}
    (h : Kahn edges out it) (hnext : it.next = some (node, it')) :
    Kahn edges (out ++ [node]) it' := by
  obtain ⟨hqueue, rfl⟩ := TopologicalSortIterator.next_eq_some hnext
  have hready := h.ready node (by rw [hqueue]; exact List.mem_concat_self)
  have hperm : List.Perm (it.count.map Prod.fst ++ it.noEdges.dropLast ++ (out ++ [node]))
      (it.count.map Prod.fst ++ it.noEdges ++ out) := by
    conv => rhs; rw [hqueue]
    simp only [List.append_assoc, List.perm_append_left_iff, List.singleton_append]
    exact List.perm_append_comm.trans (by simp)
  have hout : node ∉ out := fun hmem =>
    (List.nodup_append.mp h.nodup).2.2 node (by rw [hqueue]; simp) node hmem rfl
  -- the node's own edges are still counted, into nodes neither yielded nor the node itself
  have hstart : Releasing edges (out ++ [node]) (targets edges node)
      (it.count, it.noEdges.dropLast) := by
    refine ⟨fun n hn => ?_, fun n hn => ?_, fun n hn => ?_, hperm.nodup_iff.mpr h.nodup,
      fun x => hperm.mem_iff.trans (h.cover x), fun n hn => ?_⟩
    · rw [h.count_eq n hn, pending_snoc hout]
    · rw [← pending_snoc hout]
      exact h.count_pos n hn
    · rw [← pending_snoc hout]
      exact h.ready n (List.mem_of_mem_dropLast hn)
    · have hedge := mem_targets.mp hn
      refine ⟨fun hmem => ?_, (inGraph_of_edge hedge).2⟩
      rcases List.mem_append.mp hmem with hmem | hmem
      · -- an edge into a yielded node comes from a node yielded before it
        obtain ⟨l₁, l₂, heq⟩ := List.mem_iff_append.mp hmem
        exact hout (heq ▸ List.mem_append_left _ (h.respects l₁ n l₂ heq node hedge))
      · -- no loop: the node was queued with no edge into it left
        rw [List.mem_singleton] at hmem
        subst hmem
        exact hout (pending_eq_zero_iff.mp hready n hedge)
  have hdone := hstart.foldl
  rw [← h.edges_eq node] at hdone
  refine ⟨h.edges_eq, fun n hn => ?_, fun n hn => ?_, fun n hn => ?_, hdone.nodup, hdone.cover,
    h.respects.snoc (pending_eq_zero_iff.mp hready)⟩
  · simpa using hdone.count_eq n hn
  · simpa using hdone.count_pos n hn
  · simpa using hdone.ready n hn

/-- **The run lemma**: from a state that keeps the invariant, the iterator yields the rest of the
nodes, keeping it, until its queue is empty. -/
theorem Kahn.exhaust {out : List T} {it : TopologicalSortIterator T} (h : Kahn edges out it) :
    Kahn edges (out ++ it.toList) it.exhaust ∧ it.exhaust.noEdges = [] := by
  induction it using TopologicalSortIterator.toList.induct generalizing out with
  | case1 it hnone =>
    rw [TopologicalSortIterator.toList_of_next_none hnone,
      TopologicalSortIterator.exhaust_of_next_none hnone, List.append_nil]
    exact ⟨h, TopologicalSortIterator.next_eq_none_iff.mp hnone⟩
  | case2 it node it' hnext ih =>
    rw [TopologicalSortIterator.toList_of_next_some hnext,
      TopologicalSortIterator.exhaust_of_next_some hnext, ← List.singleton_append,
      ← List.append_assoc]
    exact ih (h.next hnext)

end Run

/-! ## Inserting the edges -/

section Insert

variable {edges : List (T × T)}

theorem targets_append (s d a : T) :
    targets (edges ++ [(s, d)]) a = targets edges a ++ if s = a then [d] else [] := by
  by_cases h : s = a <;> simp [targets, h]

theorem pending_nil_append (s d n : T) :
    pending (edges ++ [(s, d)]) [] n = pending edges [] n + if d = n then 1 else 0 := by
  by_cases h : d = n <;> simp [pending, h]

omit [DecidableEq T] in
theorem inGraph_append {s d x : T} :
    InGraph (edges ++ [(s, d)]) x ↔ InGraph edges x ∨ s = x ∨ d = x := by
  simp [InGraph]

variable (edges) in
/-- A sort with `edges` inserted: the edges out of each node, in order, and the count of the
edges into each node of the graph, each node counted once. -/
structure Built (sort : TopologicalSort T) : Prop where
  edges_eq : ∀ a, (sort.edges.lookup a).getD [] = targets edges a
  count_eq : ∀ n, (sort.count.lookup n).getD 0 = pending edges [] n
  nodup : (sort.count.map Prod.fst).Nodup
  cover : ∀ x, x ∈ sort.count.map Prod.fst ↔ InGraph edges x

theorem built_withCapacity : Built ([] : List (T × T)) withCapacity :=
  ⟨fun _ => rfl, fun _ => rfl, List.nodup_nil, fun x => by simp [withCapacity, InGraph]⟩

/-- A key `upsert` adds, when it is not there, is new. -/
theorem nodup_keys_upsert {key : T} {default : Nat} {f : Nat → Nat} {count : List (T × Nat)}
    (h : (count.map Prod.fst).Nodup) : ((upsert key default f count).map Prod.fst).Nodup := by
  rw [keys_upsert]
  split
  · exact h
  · rename_i hkey
    refine List.nodup_append.mpr ⟨h, List.nodup_singleton _, fun a ha b hb heq => hkey ?_⟩
    rw [List.mem_singleton] at hb
    rwa [← hb, ← heq]

theorem mem_keys_upsert {key x : T} {default : Nat} {f : Nat → Nat} {count : List (T × Nat)} :
    x ∈ (upsert key default f count).map Prod.fst ↔ x ∈ count.map Prod.fst ∨ key = x := by
  rw [keys_upsert]
  split
  · rename_i hkey
    constructor
    · exact .inl
    · rintro (hx | rfl)
      · exact hx
      · exact hkey
  · simp [eq_comm]

/-- **The insert step**: `insert(s, d)` adds the edge to the edges out of `s` and counts it into
`d`, after counting `s` in with no edge. -/
theorem Built.insert {sort : TopologicalSort T} (h : Built edges sort) (s d : T) :
    Built (edges ++ [(s, d)]) (sort.insert s d) := by
  refine ⟨fun a => ?_, fun n => ?_, nodup_keys_upsert (nodup_keys_upsert h.nodup), fun x => ?_⟩
  · rw [TopologicalSort.insert, lookup_upsert, targets_append, ← h.edges_eq a]
    by_cases ha : a = s
    · subst ha
      simp
    · simp [ha, Ne.symm ha]
  · rw [TopologicalSort.insert, lookup_upsert, lookup_upsert, lookup_upsert, pending_nil_append,
      ← h.count_eq n]
    by_cases hd : n = d <;> by_cases hs : n = s
    · subst hd hs
      simp
    · subst hd
      simp [hs]
    · subst hs
      simp [hd, Ne.symm hd]
    · simp [hd, hs, Ne.symm hd]
  · rw [TopologicalSort.insert, mem_keys_upsert, mem_keys_upsert, inGraph_append, h.cover x]
    tauto

theorem built_insertAll (edges : List (T × T)) : Built edges (insertAll edges) := by
  -- the edges are inserted from the first: carry the invariant along the prefix inserted
  suffices ∀ (pre : List (T × T)) (sort : TopologicalSort T), Built pre sort →
      Built (pre ++ edges) (edges.foldl (fun sort edge => sort.insert edge.1 edge.2) sort) by
    rw [insertAll]
    simpa only [List.nil_append] using this [] withCapacity built_withCapacity
  induction edges with
  | nil => simp
  | cons edge edges ih =>
    intro pre sort h
    simpa using ih (pre ++ [edge]) _ (h.insert edge.1 edge.2)

/-- `into_iterator` starts the invariant, in every order of the counts: the nodes with no edge
into them are queued, the others keep their counts, and nothing is yielded. -/
theorem Built.intoIterator {sort : TopologicalSort T} (h : Built edges sort) {order : List (T × Nat)}
    (horder : order.Perm sort.count) : Kahn edges [] (sort.intoIterator order) := by
  -- each node of the counts has one entry, which holds its count
  have hentry : ∀ {n : T} {v : Nat}, (n, v) ∈ order → pending edges [] n = v := by
    intro n v hmem
    rw [← h.count_eq n, List.lookup_eq_some_of_mem h.nodup (horder.mem_iff.mp hmem)]
    rfl
  have hperm : List.Perm ((order.filter (·.2 ≠ 0)).map Prod.fst ++
      (order.filter (·.2 = 0)).map Prod.fst ++ []) (sort.count.map Prod.fst) := by
    rw [List.append_nil, ← List.map_append]
    refine List.Perm.map _ ?_
    have hsplit := List.filter_append_perm (fun e : T × Nat => decide (e.2 ≠ 0)) order
    exact (by simpa using hsplit : List.Perm _ order).trans horder
  have hkeys : ((order.filter (·.2 ≠ 0)).map Prod.fst).Nodup :=
    ((horder.map Prod.fst).nodup_iff.mpr h.nodup).sublist (List.filter_sublist.map _)
  unfold TopologicalSort.intoIterator
  refine ⟨h.edges_eq, fun n hn => ?_, fun n hn => ?_, fun n hn => ?_,
    hperm.nodup_iff.mpr h.nodup, fun x => hperm.mem_iff.trans (h.cover x),
    List.respectsPreds_nil⟩
  · obtain ⟨⟨n, v⟩, hmem, rfl⟩ := List.mem_map.mp hn
    rw [List.lookup_eq_some_of_mem hkeys hmem, hentry (List.mem_of_mem_filter hmem)]
  · obtain ⟨⟨n, v⟩, hmem, rfl⟩ := List.mem_map.mp hn
    have hv : v ≠ 0 := by simpa using (List.mem_filter.mp hmem).2
    rw [hentry (List.mem_of_mem_filter hmem)]
    omega
  · obtain ⟨⟨n, v⟩, hmem, rfl⟩ := List.mem_map.mp hn
    have hv : v = 0 := by simpa using (List.mem_filter.mp hmem).2
    rw [hentry (List.mem_of_mem_filter hmem), hv]

end Insert

/-! ## Validity and cycles -/

section Valid

variable {edges : List (T × T)} {out : List T} {it : TopologicalSortIterator T}

omit [DecidableEq T] in
theorem inGraph_of_transGen_self {n : T} (h : Relation.TransGen (Edge edges) n n) :
    InGraph edges n := by
  obtain ⟨a, -, hedge⟩ := Relation.TransGen.tail'_iff.mp h
  exact (inGraph_of_edge hedge).2

/-- Once the queue is empty, `is_valid` holds exactly when every node of the graph was yielded. -/
theorem Kahn.isValid_iff (h : Kahn edges out it) (hqueue : it.noEdges = []) :
    it.isValid = true ↔ ∀ x, InGraph edges x → x ∈ out := by
  rw [TopologicalSortIterator.isValid, List.isEmpty_iff]
  constructor
  · intro hempty x hx
    simpa [hempty, hqueue] using (h.cover x).mpr hx
  · intro hall
    -- a counted node is a node of the graph, but not a yielded one
    refine List.eq_nil_iff_forall_not_mem.mpr fun ⟨n, v⟩ hmem => ?_
    have hkey : n ∈ it.count.map Prod.fst := List.mem_map_of_mem hmem
    have hgraph := (h.cover n).mp (List.mem_append_left _ (List.mem_append_left _ hkey))
    exact (List.nodup_append.mp h.nodup).2.2 n (List.mem_append_left _ hkey) n (hall n hgraph) rfl

/-- Once the queue is empty, the nodes still counted lie on a cycle's way: each has an edge from
another counted node. -/
theorem Kahn.exists_cycle (h : Kahn edges out it) (hqueue : it.noEdges = [])
    (hcount : it.count ≠ []) : ∃ n, Relation.TransGen (Edge edges) n n := by
  refine Relation.exists_transGen_self_of_forall_pred (s := it.count.map Prod.fst)
    (by simpa using hcount) fun b hb => ?_
  -- an edge into `b` from a node not yet yielded, hence counted
  have hpos := h.count_pos b hb
  obtain ⟨a, hedge, hout⟩ : ∃ a, Edge edges a b ∧ a ∉ out := by
    by_contra hnone
    push Not at hnone
    exact Nat.pos_iff_ne_zero.mp hpos (pending_eq_zero_iff.mpr hnone)
  have hmem := (h.cover a).mpr (inGraph_of_edge hedge).1
  simp only [hqueue, List.append_nil, List.mem_append] at hmem
  exact ⟨a, hmem.resolve_right hout, hedge⟩

end Valid

/-- **Kahn's algorithm is correct.** For any edges inserted, and whatever order the hash map of the
counts is visited in, the iterator yields each node at most once, and each only after the sources
of all the edges into it. Once `next` has returned `None`, `is_valid` holds exactly when the graph
has no cycle, and then every node of every edge was yielded. -/
theorem into_iterator_sorts (edges : List (T × T)) (order : List (T × Nat))
    (horder : order.Perm (insertAll edges).count) :
    ((insertAll edges).intoIterator order).toList.Nodup ∧
      (∀ l₁ n l₂, ((insertAll edges).intoIterator order).toList = l₁ ++ n :: l₂ →
        ∀ a, Edge edges a n → a ∈ l₁) ∧
      (((insertAll edges).intoIterator order).exhaust.isValid = true ↔
        ∀ n, ¬ Relation.TransGen (Edge edges) n n) ∧
      ((∀ n, ¬ Relation.TransGen (Edge edges) n n) → ∀ a b, Edge edges a b →
        a ∈ ((insertAll edges).intoIterator order).toList ∧
          b ∈ ((insertAll edges).intoIterator order).toList) := by
  obtain ⟨hk, hqueue⟩ := ((built_insertAll edges).intoIterator horder).exhaust
  rw [List.nil_append] at hk
  generalize (insertAll edges).intoIterator order = it at hk hqueue ⊢
  have hnodup : it.toList.Nodup := (List.nodup_append.mp hk.nodup).2.1
  have hvalid := hk.isValid_iff hqueue
  -- no cycle exactly when every node of the graph is yielded
  have hacyclic : it.exhaust.isValid = true ↔ ∀ n, ¬ Relation.TransGen (Edge edges) n n := by
    constructor
    · intro hv n hcycle
      exact hk.respects.not_transGen_self hnodup (hvalid.mp hv n (inGraph_of_transGen_self hcycle))
        hcycle
    · intro hno
      by_contra hv
      obtain ⟨n, hcycle⟩ := hk.exists_cycle hqueue fun hempty => hv (by
        rw [TopologicalSortIterator.isValid, List.isEmpty_iff]
        exact hempty)
      exact hno n hcycle
  refine ⟨hnodup, hk.respects, hacyclic, fun hno a b hedge => ?_⟩
  have hall := hvalid.mp (hacyclic.mpr hno)
  exact ⟨hall a (inGraph_of_edge hedge).1, hall b (inGraph_of_edge hedge).2⟩

/-- Two sources, `3` and `4`, into a chain to `2`. -/
def twoSourcesEdges : List (Nat × Nat) :=
  [(3, 1), (1, 2), (4, 2)]

/-- The counts visited backwards: `4` is queued before `3`. -/
theorem into_iterator_sorts_reversed :
    ((insertAll twoSourcesEdges).intoIterator (insertAll twoSourcesEdges).count.reverse).toList.Nodup ∧
      (∀ l₁ n l₂, ((insertAll twoSourcesEdges).intoIterator
          (insertAll twoSourcesEdges).count.reverse).toList = l₁ ++ n :: l₂ →
        ∀ a, Edge twoSourcesEdges a n → a ∈ l₁) ∧
      (((insertAll twoSourcesEdges).intoIterator
          (insertAll twoSourcesEdges).count.reverse).exhaust.isValid = true ↔
        ∀ n, ¬ Relation.TransGen (Edge twoSourcesEdges) n n) ∧
      ((∀ n, ¬ Relation.TransGen (Edge twoSourcesEdges) n n) → ∀ a b, Edge twoSourcesEdges a b →
        a ∈ ((insertAll twoSourcesEdges).intoIterator
          (insertAll twoSourcesEdges).count.reverse).toList ∧
          b ∈ ((insertAll twoSourcesEdges).intoIterator
            (insertAll twoSourcesEdges).count.reverse).toList) :=
  into_iterator_sorts twoSourcesEdges _ (List.reverse_perm _)

end TopologicalSort

end Stalwart.Utils
