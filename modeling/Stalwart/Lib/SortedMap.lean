import Mathlib

/-!
# Maps kept as lists sorted by key

An ordered map (a `BTreeMap`) seen through its entries in key order is a list of pairs sorted
strictly by key. This module gives its insertion, for keys compared through an injective map into
`Nat`, and the two facts an ordered map's user relies on: the entries stay sorted, and an inserted
key replaces the entry of an equal key.
-/

namespace List

variable {K V : Type} (key : K → Nat)

/-- Inserts a pair into a list sorted by key: it goes to its place, and replaces the pair of an
equal key. -/
def insertSorted (k : K) (v : V) : List (K × V) → List (K × V)
  | [] => [(k, v)]
  | (k', v') :: rest =>
    if key k < key k' then (k, v) :: (k', v') :: rest
    else if key k' < key k then (k', v') :: insertSorted k v rest
    else (k, v) :: rest

/-- The entries of a map sorted strictly by key. -/
def SortedByKey (l : List (K × V)) : Prop :=
  l.Pairwise (fun a b => key a.1 < key b.1)

variable {key}

theorem keys_insertSorted (k : K) (v : V) :
    ∀ l : List (K × V), ∀ x ∈ insertSorted key k v l, x = (k, v) ∨ x ∈ l
  | [], x, hx => by simp [insertSorted] at hx; exact Or.inl hx
  | (k', v') :: rest, x, hx => by
    unfold insertSorted at hx
    split at hx
    · simpa using hx
    · split at hx
      · rcases List.mem_cons.mp hx with rfl | hx
        · exact Or.inr List.mem_cons_self
        · rcases keys_insertSorted k v rest x hx with h | h
          · exact Or.inl h
          · exact Or.inr (List.mem_cons_of_mem _ h)
      · rcases List.mem_cons.mp hx with rfl | hx
        · exact Or.inl rfl
        · exact Or.inr (List.mem_cons_of_mem _ hx)

/-- **Insertion keeps the order.** -/
theorem sortedByKey_insertSorted (k : K) (v : V) :
    ∀ {l : List (K × V)}, SortedByKey key l → SortedByKey key (insertSorted key k v l)
  | [], _ => List.pairwise_singleton _ _
  | (k', v') :: rest, h => by
    have hrest := (List.pairwise_cons.mp h)
    unfold List.insertSorted
    split
    · exact List.Pairwise.cons (fun b hb => by
        rcases List.mem_cons.mp hb with rfl | hb
        · assumption
        · exact Nat.lt_trans ‹_› (hrest.1 b hb)) h
    · split
      · refine List.Pairwise.cons (fun b hb => ?_) (sortedByKey_insertSorted k v hrest.2)
        rcases keys_insertSorted k v rest b hb with rfl | hb
        · assumption
        · exact hrest.1 b hb
      · have hkey : key k = key k' := by omega
        exact List.Pairwise.cons (fun b hb => hkey ▸ hrest.1 b hb) hrest.2

/-- Building a map by insertions keeps it sorted. -/
theorem sortedByKey_foldl_insertSorted :
    ∀ (entries : List (K × V)) {map : List (K × V)}, SortedByKey key map →
      SortedByKey key (entries.foldl (fun map entry => map.insertSorted key entry.1 entry.2) map)
  | [], _, h => h
  | entry :: rest, _, h =>
    sortedByKey_foldl_insertSorted rest (sortedByKey_insertSorted entry.1 entry.2 h)

/-- A map built by insertions holds only inserted entries and entries it started with. -/
theorem mem_foldl_insertSorted :
    ∀ (entries : List (K × V)) (map : List (K × V)),
      ∀ x ∈ entries.foldl (fun map entry => map.insertSorted key entry.1 entry.2) map,
        x ∈ entries ∨ x ∈ map
  | [], _, x, hx => Or.inr hx
  | entry :: rest, map, x, hx => by
    rcases mem_foldl_insertSorted rest _ x hx with h | h
    · exact Or.inl (List.mem_cons_of_mem _ h)
    · rcases keys_insertSorted entry.1 entry.2 map x h with rfl | h
      · exact Or.inl List.mem_cons_self
      · exact Or.inr h

/-- The keys of a sorted map are distinct. -/
theorem SortedByKey.nodup_keys {l : List (K × V)} (h : SortedByKey key l) :
    (l.map Prod.fst).Nodup :=
  List.pairwise_map.mpr (h.imp fun hlt heq => by rw [heq] at hlt; exact Nat.lt_irrefl _ hlt)

/-- **A sorted list splits by a test** whose accepted entries all come below the others: it is
its accepted entries followed by the others. -/
theorem eq_filter_append_filter_not {α : Type} {r : α → α → Prop} (p : α → Bool)
    (hasymm : ∀ {x y}, r x y → ¬ r y x) :
    ∀ {l : List α}, l.Pairwise r → (∀ x ∈ l, ∀ y ∈ l, p x = false → p y = true → r y x) →
      l = l.filter p ++ l.filter (fun x => !p x)
  | [], _, _ => rfl
  | a :: l, hsorted, hbelow => by
    obtain ⟨ha, hl⟩ := pairwise_cons.mp hsorted
    have ih := eq_filter_append_filter_not p hasymm hl
      fun x hx y hy => hbelow x (mem_cons_of_mem _ hx) y (mem_cons_of_mem _ hy)
    cases hpa : p a
    · -- a rejected head is below all the rest, which is then rejected too
      have hnone : l.filter p = [] := filter_eq_nil_iff.mpr fun y hy hpy =>
        hasymm (ha y hy) (hbelow a mem_cons_self y (mem_cons_of_mem _ hy) hpa (by simpa using hpy))
      rw [filter_cons_of_neg (by simp [hpa]), filter_cons_of_pos (by simp [hpa]), hnone,
        nil_append, ← nil_append (filter _ l), ← hnone, ← ih]
    · rw [filter_cons_of_pos hpa, filter_cons_of_neg (by simp [hpa]), cons_append, ← ih]

/-- In a list of pairs with distinct keys, the total over the pairs is the value at a key plus
the total over the pairs of other keys. -/
theorem sum_map_eq_add_filter_ne {K V : Type} [DecidableEq K] (f : V → Nat) (k : K) (v : V) :
    ∀ {l : List (K × V)}, (l.map Prod.fst).Nodup → l.lookup k = some v →
      (l.map fun entry => f entry.2).sum = f v + ((l.filter (·.1 ≠ k)).map fun entry => f entry.2).sum
  | [], _, hlookup => by simp at hlookup
  | (k', v') :: rest, hnodup, hlookup => by
    rw [map_cons, nodup_cons] at hnodup
    by_cases hk : k = k'
    · -- the key is at the head, and nowhere in the rest
      subst hk
      have hv : v' = v := by simpa [lookup_cons] using hlookup
      have hrest : rest.filter (·.1 ≠ k) = rest := filter_eq_self.mpr fun entry hentry => by
        simp only [ne_eq, decide_eq_true_eq]
        exact fun heq => hnodup.1 (mem_map.mpr ⟨entry, hentry, heq⟩)
      rw [filter_cons_of_neg (by simp), hrest, map_cons, sum_cons, hv]
    · have hbeq : (k == k') = false := beq_false_of_ne hk
      have hrest : rest.lookup k = some v := by simpa [lookup_cons, hbeq] using hlookup
      rw [filter_cons_of_pos (by simpa using Ne.symm hk), map_cons, map_cons, sum_cons, sum_cons,
        sum_map_eq_add_filter_ne f k v hnodup.2 hrest]
      omega

/-- A value a key looks up is paired with the key in the list. -/
theorem mem_of_lookup_eq_some {K V : Type} [DecidableEq K] {k : K} {v : V} :
    ∀ {l : List (K × V)}, l.lookup k = some v → (k, v) ∈ l
  | [], h => by simp at h
  | (k', v') :: rest, h => by
    by_cases hk : k = k'
    · subst hk
      have hv : v' = v := by simpa [lookup_cons] using h
      rw [hv]
      exact mem_cons_self
    · have hrest : rest.lookup k = some v := by simpa [lookup_cons, beq_false_of_ne hk] using h
      exact mem_cons_of_mem _ (mem_of_lookup_eq_some hrest)

/-- A key that no pair has looks up nothing. -/
theorem lookup_eq_none_of_not_mem {K V : Type} [DecidableEq K] {k : K} :
    ∀ {l : List (K × V)}, k ∉ l.map Prod.fst → l.lookup k = none
  | [], _ => rfl
  | (k', v') :: rest, h => by
    rw [map_cons, mem_cons, not_or] at h
    rw [lookup_cons, beq_false_of_ne h.1]
    exact lookup_eq_none_of_not_mem h.2

/-- In a list with distinct keys, a pair of the list is what its key looks up. -/
theorem lookup_eq_some_of_mem {K V : Type} [DecidableEq K] {k : K} {v : V} :
    ∀ {l : List (K × V)}, (l.map Prod.fst).Nodup → (k, v) ∈ l → l.lookup k = some v
  | [], _, h => by simp at h
  | (k', v') :: rest, hnodup, h => by
    rw [map_cons, nodup_cons] at hnodup
    rcases mem_cons.mp h with heq | hmem
    · rw [Prod.mk.injEq] at heq
      obtain ⟨rfl, rfl⟩ := heq
      simp
    · have hk : k ≠ k' := fun heq => hnodup.1 (mem_map.mpr ⟨(k, v), hmem, heq⟩)
      rw [lookup_cons, beq_false_of_ne hk]
      exact lookup_eq_some_of_mem hnodup.2 hmem

end List
