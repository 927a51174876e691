import Mathlib.Data.List.Chain
import Mathlib.Data.List.Nodup
import Mathlib.Data.List.Perm.Basic
import Mathlib.Logic.Relation
import Stalwart.Lib.ExceptBind
import Stalwart.Lib.SortedMap

/-!
# The creation order of a JMAP `/set` (`references::topological_sort`)

The objects a `/set` creates may reference each other by creation id (`#x`). `resolve_references`
records these references as a graph from each creation id to the ids it references, and
`topological_sort` orders the create map so that every object comes after the objects it
references. It first checks that every reference names an object of the create map. It then
runs a depth-first walk over the graph with an explicit stack of iterators. The walk has no
visited marks: an id is taken out of the create map, onto the end of the sorted map, when the
walk returns from it. The walk stops early once the create map is empty, and it fails once the
stack holds more than 1000 iterators. That bound is the only cycle detection. The ids the walk
never reached follow, in their order.

Here the stack is the call stack. `walk` recurses into the dependency list of an id, and its
budget is what is left of the 1000 iterators the stack may hold.

## What is proved

* The walk keeps every entry and emits an id only after the ids it references
  (`walk_post`). On a graph whose references all name objects of the create map, and whose ids
  all fit the 1000 iterators of the stack (`Fits`), the sort returns a permutation of the create
  map in which no object references a later one (`topologicalSort_ok`).
* The sort fails on every graph with a cycle: the walk keeps the ids of the cycle in the create
  map until it reaches one (`walk_keepsCycles`, `topologicalSort_cycle`). It also fails on every
  reference to an id the create map does not have (`topologicalSort_absent`).
* When no dependency list is empty, a longest path of at most 1000 edges makes every id fit
  (`fits_of_paths`). `Stalwart.Jmap.References` shows that `resolve_references` builds only such
  graphs.
-/

set_option autoImplicit false

namespace Stalwart.Jmap

/-- The errors of `topological_sort`. -/
inductive SortError where
  /-- `InvalidResultReference`: a reference to an id the create map does not have. -/
  | invalidReference (toId fromId : String)
  /-- `InvalidArguments`: the stack passed 1000 iterators. -/
  | cyclical
  deriving DecidableEq, Repr

/-- The details of the error. -/
def SortError.details : SortError → String
  | .invalidReference toId fromId =>
    "Invalid reference to non-existing object " ++ toId.quote ++ " from " ++ fromId.quote
  | .cyclical => "Cyclical references are not allowed."

section Walking

variable {T : Type}

/-- `VecMap::remove_entry`: the first entry of `key`, taken out. -/
def removeEntry (key : String) : List (String × T) → Option ((String × T) × List (String × T))
  | [] => none
  | (k, v) :: rest =>
    if k = key then some ((k, v), rest)
    else (removeEntry key rest).map fun (entry, rest') => (entry, (k, v) :: rest')

/-- How the walk goes on after an id. -/
inductive Walk (T : Type) where
  /-- The walk goes on with these create and sorted maps. -/
  | running (create sorted : List (String × T))
  /-- `break 'main`: the create map is empty. -/
  | finished (sorted : List (String × T))
  /-- The stack passed 1000 iterators. -/
  | cyclical

/-- Goes on with `next` unless the walk has stopped. -/
def Walk.andThen (w : Walk T) (next : List (String × T) → List (String × T) → Walk T) : Walk T :=
  match w with
  | .running create sorted => next create sorted
  | .finished sorted => .finished sorted
  | .cyclical => .cyclical

/-- Takes the entry of `id` out of the create map onto the end of the sorted map, and stops the
walk once the create map is empty. An id the create map does not have changes nothing. -/
def emit (id : String) (create sorted : List (String × T)) : Walk T :=
  match removeEntry id create with
  | some (entry, create) =>
    if create.isEmpty then .finished (sorted ++ [entry]) else .running create (sorted ++ [entry])
  | none => .running create sorted

/-- The loop over one iterator, the ids `ids`. An id with a dependency list in the graph is
pushed, and `child` walks its list one level deeper before the id is emitted. An id without one is
emitted at once. -/
def walkIds (graph : List (String × List String))
    (child : List String → List (String × T) → List (String × T) → Walk T) :
    List String → List (String × T) → List (String × T) → Walk T
  | [], create, sorted => .running create sorted
  | fromId :: rest, create, sorted =>
    match graph.lookup fromId with
    | some toIds =>
      (child toIds create sorted).andThen fun create sorted =>
        (emit fromId create sorted).andThen (walkIds graph child rest)
    | none => (emit fromId create sorted).andThen (walkIds graph child rest)

/-- The walk with `budget` more iterators allowed on the stack: pushing one more than 1000 fails. -/
def walk (graph : List (String × List String)) :
    Nat → List String → List (String × T) → List (String × T) → Walk T
  | 0 => walkIds graph fun _ _ _ => .cyclical
  | budget + 1 => walkIds graph (walk graph budget)

/-- The first loop of `topological_sort`: every reference names an entry of the create map. -/
def checkReferences (create : List (String × T)) (graph : List (String × List String)) :
    Except SortError Unit :=
  graph.forM fun (fromId, toIds) => toIds.forM fun toId =>
    if create.any (·.1 == toId) then pure () else throw (.invalidReference toId fromId)

/-- `topological_sort`, over the entries of the graph in the order its map iterates them. -/
def topologicalSort (create : List (String × T)) (graph : List (String × List String)) :
    Except SortError (List (String × T)) := do
  checkReferences create graph
  match walk graph 1000 (graph.map (·.1)) create [] with
  | .cyclical => throw .cyclical
  | .finished sorted => pure sorted
  -- the ids the walk did not reach follow in their order
  | .running create sorted => pure (sorted ++ create)

/-! ## The graph -/

/-- An edge of the graph: `fromId` references `toId`. -/
def Edge (graph : List (String × List String)) (fromId toId : String) : Prop :=
  ∃ toIds, graph.lookup fromId = some toIds ∧ toId ∈ toIds

/-- The ids of the entries of a map. -/
abbrev keys (entries : List (String × T)) : List String :=
  entries.map (·.1)

/-- No dependency list is empty: an id has an entry in the graph only with a reference. -/
def NoEmptyLists (graph : List (String × List String)) : Prop :=
  ∀ entry ∈ graph, entry.2 ≠ []

/-- An id whose walk fits in `budget` more iterators: an id with a dependency list takes one, and
the ids of its list must fit in one fewer. -/
def Fits (graph : List (String × List String)) : Nat → String → Prop
  | 0, id => graph.lookup id = none
  | budget + 1, id => ∀ toIds, graph.lookup id = some toIds → ∀ y ∈ toIds, Fits graph budget y

/-! ## Taking entries out -/

theorem removeEntry_spec (key : String) :
    ∀ entries : List (String × T), match removeEntry key entries with
      | none => key ∉ keys entries
      | some (entry, rest) => entry.1 = key ∧ entries.Perm (entry :: rest) := by
  intro entries
  induction entries with
  | nil => simp [removeEntry]
  | cons head entries ih =>
    obtain ⟨k, v⟩ := head
    by_cases hk : k = key
    · simp [removeEntry, hk]
    · simp only [removeEntry, hk, if_false]
      rcases hrest : removeEntry key entries with _ | ⟨entry, rest⟩ <;> rw [hrest] at ih
      · simpa [Ne.symm hk] using ih
      · obtain ⟨hentry, hperm⟩ := ih
        exact ⟨hentry, (hperm.cons _).trans (List.Perm.swap _ _ _)⟩

/-- What `emit` does: takes the entry of the id out, or finds none and changes nothing. -/
theorem emit_cases (id : String) (create sorted : List (String × T)) :
    (id ∉ keys create ∧ emit id create sorted = .running create sorted) ∨
      ∃ entry rest, entry.1 = id ∧ create.Perm (entry :: rest) ∧
        emit id create sorted =
          if rest.isEmpty then .finished (sorted ++ [entry]) else .running rest (sorted ++ [entry]) := by
  have hspec := removeEntry_spec id create
  unfold emit
  rcases hremove : removeEntry id create with _ | ⟨entry, rest⟩ <;> rw [hremove] at hspec
  · exact .inl ⟨hspec, rfl⟩
  · exact .inr ⟨entry, rest, hspec.1, hspec.2, rfl⟩

section Unfolding

variable {graph : List (String × List String)}
  {child : List String → List (String × T) → List (String × T) → Walk T}
  {fromId : String} {rest : List String} {create sorted : List (String × T)}

theorem walkIds_cons_of_lookup_none (h : graph.lookup fromId = none) :
    walkIds graph child (fromId :: rest) create sorted =
      (emit fromId create sorted).andThen (walkIds graph child rest) := by
  simp [walkIds, h]

theorem walkIds_cons_of_lookup_some {toIds : List String} (h : graph.lookup fromId = some toIds) :
    walkIds graph child (fromId :: rest) create sorted =
      (child toIds create sorted).andThen fun create sorted =>
        (emit fromId create sorted).andThen (walkIds graph child rest) := by
  simp [walkIds, h]

end Unfolding

/-! ## The walk keeps the entries in order -/

section Order

variable {graph : List (String × List String)} {create₀ : List (String × T)}

/-- What the walk keeps: the entries of `create₀`, split between the create map and the sorted map,
and a sorted map closed under references in which no entry references a later one. -/
structure Sound (graph : List (String × List String)) (create₀ create sorted : List (String × T)) :
    Prop where
  perm : (sorted ++ create).Perm create₀
  closed : ∀ entry ∈ sorted, ∀ w, Edge graph entry.1 w → w ∈ keys sorted
  order : sorted.Pairwise fun a b => ¬ Edge graph a.1 b.1

/-- What a walk over `ids` guarantees: the invariant, none of the ids left in the create map, and
no entry put back. -/
def Post (graph : List (String × List String)) (create₀ : List (String × T)) (ids : List String)
    (create : List (String × T)) : Walk T → Prop
  | .running create' sorted' =>
    Sound graph create₀ create' sorted' ∧ (∀ id ∈ ids, id ∉ keys create') ∧
      ∀ k ∈ keys create', k ∈ keys create
  | .finished sorted' => Sound graph create₀ [] sorted'
  | .cyclical => False

/-- An id of `create₀` that the create map no longer has is sorted. -/
theorem Sound.mem_sorted {create sorted : List (String × T)} (hs : Sound graph create₀ create sorted)
    {w : String} (hw : w ∈ keys create₀) (hgone : w ∉ keys create) : w ∈ keys sorted := by
  have hmem : w ∈ keys (sorted ++ create) := (hs.perm.map (·.1)).mem_iff.mpr hw
  rw [keys, List.map_append] at hmem
  exact (List.mem_append.mp hmem).resolve_right hgone

theorem Post.mono {ids ids' : List String} {create : List (String × T)} {w : Walk T}
    (hw : Post graph create₀ ids create w) (hsub : ∀ id ∈ ids', id ∈ ids) :
    Post graph create₀ ids' create w := by
  cases w with
  | running c s => exact ⟨hw.1, fun id hid => hw.2.1 id (hsub id hid), hw.2.2⟩
  | finished s => exact hw
  | cyclical => exact hw.elim

/-- **Walks compose**: a walk over `ids₁` and, after it, one over `ids₂` leave neither. -/
theorem Post.andThen {ids₁ ids₂ : List String} {create : List (String × T)} {w : Walk T}
    {next : List (String × T) → List (String × T) → Walk T}
    (hw : Post graph create₀ ids₁ create w)
    (hnext : ∀ c s, Post graph create₀ ids₁ create (.running c s) →
      Post graph create₀ ids₂ c (next c s)) :
    Post graph create₀ (ids₁ ++ ids₂) create (w.andThen next) := by
  cases w with
  | running c s =>
    have hrest := hnext c s hw
    obtain ⟨_, hgone₁, hsub₁⟩ := hw
    simp only [Walk.andThen]
    rcases hstep : next c s with ⟨c', s'⟩ | s' | _
    · rw [hstep] at hrest
      obtain ⟨hsound, hgone₂, hsub₂⟩ := hrest
      refine ⟨hsound, fun id hid hmem => ?_, fun k hk => hsub₁ k (hsub₂ k hk)⟩
      rcases List.mem_append.mp hid with hid | hid
      · exact hgone₁ id hid (hsub₂ id hmem)
      · exact hgone₂ id hid hmem
    · rw [hstep] at hrest
      exact hrest
    · rw [hstep] at hrest
      exact hrest.elim
  | finished s => exact hw
  | cyclical => exact hw.elim

variable (hnodup : (keys create₀).Nodup)
include hnodup

theorem Sound.nodup {create sorted : List (String × T)} (hs : Sound graph create₀ create sorted) :
    (keys sorted ++ keys create).Nodup := by
  rw [← List.map_append]
  exact hs.perm.map (·.1) |>.nodup_iff.mpr hnodup

/-- **Emitting an id whose references are all sorted keeps the invariant.** -/
theorem Sound.emit {id : String} {create sorted : List (String × T)}
    (hs : Sound graph create₀ create sorted) (hdeps : ∀ w, Edge graph id w → w ∈ keys sorted) :
    Post graph create₀ [id] create (emit id create sorted) := by
  rcases emit_cases id create sorted with ⟨habsent, hemit⟩ | ⟨entry, rest, hid, hperm, hemit⟩
  · rw [hemit]
    exact ⟨hs, by simpa using habsent, fun _ hk => hk⟩
  · subst hid
    have hkeys : (keys create).Perm (keys (entry :: rest)) := hperm.map (·.1)
    have hdisjoint := ((hkeys.append_left (keys sorted)).nodup_iff).mp (hs.nodup hnodup)
    -- the entry's id was in the create map, so no sorted entry has it
    have hfresh : entry.1 ∉ keys sorted := fun hmem =>
      (List.nodup_append.mp hdisjoint).2.2 _ hmem _ (List.mem_cons_self) rfl
    have hsound : Sound graph create₀ rest (sorted ++ [entry]) := by
      refine ⟨?_, ?_, ?_⟩
      · rw [List.append_assoc, List.singleton_append]
        exact (List.Perm.append_left sorted hperm.symm).trans hs.perm
      · intro e he w hedge
        rw [keys, List.map_append]
        rcases List.mem_append.mp he with he | he
        · exact List.mem_append_left _ (hs.closed e he w hedge)
        · rw [List.mem_singleton.mp he] at hedge
          exact List.mem_append_left _ (hdeps w hedge)
      · refine List.pairwise_append.mpr ⟨hs.order, List.pairwise_singleton _ _, ?_⟩
        intro a ha b hb hedge
        rw [List.mem_singleton.mp hb] at hedge
        exact hfresh (hs.closed a ha _ hedge)
    have hrest : ∀ k ∈ keys rest, k ∈ keys create := fun k hk =>
      hkeys.mem_iff.mpr (List.mem_cons_of_mem _ hk)
    have hgone : entry.1 ∉ keys rest := (List.nodup_cons.mp (List.nodup_append.mp hdisjoint).2.1).1
    rw [hemit]
    split_ifs with hempty
    · rw [List.isEmpty_iff.mp hempty] at hsound
      exact hsound
    · exact ⟨hsound, by simpa using hgone, hrest⟩

variable (hrefs : ∀ u w, Edge graph u w → w ∈ keys create₀)
include hrefs

/-- **One level of the walk keeps the invariant**, when the walk of every dependency list it
pushes does. -/
theorem walkIds_post (ok : String → Prop)
    {child : List String → List (String × T) → List (String × T) → Walk T}
    (hchild : ∀ id toIds create sorted, ok id → graph.lookup id = some toIds →
      Sound graph create₀ create sorted → Post graph create₀ toIds create (child toIds create sorted)) :
    ∀ (ids : List String) (create sorted : List (String × T)), (∀ id ∈ ids, ok id) →
      Sound graph create₀ create sorted →
      Post graph create₀ ids create (walkIds graph child ids create sorted)
  | [], create, sorted, _, hs => ⟨hs, by simp, fun _ hk => hk⟩
  | id :: rest, create, sorted, hok, hs => by
    have hrest : ∀ c₀ c s, Post graph create₀ [id] c₀ (.running c s) →
        Post graph create₀ rest c (walkIds graph child rest c s) := fun _ c s hpost =>
      walkIds_post ok hchild rest c s (fun x hx => hok x (List.mem_cons_of_mem _ hx)) hpost.1
    cases hlookup : graph.lookup id with
    | none =>
      -- an id with no dependency list is emitted at once
      rw [walkIds_cons_of_lookup_none hlookup]
      have hemit := hs.emit hnodup fun w hedge => by
        obtain ⟨toIds, h, _⟩ := hedge
        exact absurd (hlookup.symm.trans h) (by simp)
      exact Post.andThen hemit (hrest create)
    | some toIds =>
      -- its dependency list is walked first, and leaves every id of it sorted
      rw [walkIds_cons_of_lookup_some hlookup]
      have hwalk := hchild id toIds create sorted (hok id List.mem_cons_self) hlookup hs
      have hafter : ∀ c s, Post graph create₀ toIds create (.running c s) →
          Post graph create₀ ([id] ++ rest) c ((emit id c s).andThen (walkIds graph child rest)) := by
        intro c s hpost
        have hdeps : ∀ w, Edge graph id w → w ∈ keys s := by
          rintro w ⟨toIds', hlookup', hw⟩
          rw [hlookup, Option.some.injEq] at hlookup'
          subst hlookup'
          exact hpost.1.mem_sorted (hrefs id w ⟨toIds, hlookup, hw⟩) (hpost.2.1 w hw)
        exact Post.andThen (hpost.1.emit hnodup hdeps) (hrest c)
      exact (Post.andThen hwalk hafter).mono fun x hx =>
        List.mem_append_right _ hx

/-- **The walk keeps the invariant** on ids that fit in its budget. -/
theorem walk_post : ∀ (budget : Nat) (ids : List String) (create sorted : List (String × T)),
    (∀ id ∈ ids, Fits graph budget id) → Sound graph create₀ create sorted →
      Post graph create₀ ids create (walk graph budget ids create sorted)
  | 0 => walkIds_post hnodup hrefs (Fits graph 0) fun _ _ _ _ hfits hlookup _ =>
    absurd (hfits.symm.trans hlookup) (by simp)
  | budget + 1 => walkIds_post hnodup hrefs (Fits graph (budget + 1))
    fun _ toIds create sorted hfits hlookup hs =>
      walk_post budget toIds create sorted (hfits toIds hlookup) hs

end Order

/-! ## A cycle stops the walk -/

section Cycles

variable {graph : List (String × List String)}

/-- An id on a cycle of references. -/
def OnCycle (graph : List (String × List String)) (id : String) : Prop :=
  Relation.TransGen (Edge graph) id id

/-- The next id of a cycle is on it too. -/
theorem OnCycle.next {id : String} (h : OnCycle graph id) : ∃ y, Edge graph id y ∧ OnCycle graph y := by
  obtain ⟨y, hedge, hback⟩ := Relation.TransGen.head'_iff.mp h
  exact ⟨y, hedge, Relation.TransGen.tail' hback hedge⟩

/-- What a walk guarantees while an id on a cycle is in the create map: it fails if it reaches one,
and otherwise keeps every id on a cycle in the create map, which then never empties. -/
def KeepsCycles (graph : List (String × List String)) (ids : List String)
    (create : List (String × T)) : Walk T → Prop
  | .running create' _ =>
    (∀ id ∈ ids, ¬ OnCycle graph id) ∧ ∀ c ∈ keys create, OnCycle graph c → c ∈ keys create'
  | .finished _ => False
  | .cyclical => True

/-- Emitting an id that is not on a cycle keeps the ids on cycles. -/
theorem keepsCycles_emit {id : String} {create sorted : List (String × T)}
    (hid : ¬ OnCycle graph id) (hcycle : ∃ c ∈ keys create, OnCycle graph c) :
    KeepsCycles graph [id] create (emit id create sorted) := by
  rcases emit_cases id create sorted with ⟨-, hemit⟩ | ⟨entry, rest, hentry, hperm, hemit⟩
  · rw [hemit]
    exact ⟨by simpa using hid, fun _ hc _ => hc⟩
  · -- the entry taken out is not on a cycle, so the ids on cycles stay in the rest
    have hkept : ∀ c ∈ keys create, OnCycle graph c → c ∈ keys rest := by
      intro c hc hcyc
      rcases List.mem_cons.mp ((hperm.map (·.1)).mem_iff.mp hc) with heq | hmem
      · have hc' : c = id := heq.trans hentry
        exact absurd (hc' ▸ hcyc) hid
      · exact hmem
    obtain ⟨c, hc, hcyc⟩ := hcycle
    rw [hemit]
    split_ifs with hempty
    · rw [List.isEmpty_iff.mp hempty] at hkept
      exact absurd (hkept c hc hcyc) (List.not_mem_nil)
    · exact ⟨by simpa using hid, hkept⟩

theorem KeepsCycles.mono {ids ids' : List String} {create : List (String × T)} {w : Walk T}
    (hw : KeepsCycles graph ids create w) (hsub : ∀ id ∈ ids', id ∈ ids) :
    KeepsCycles graph ids' create w := by
  cases w with
  | running c s => exact ⟨fun id hid => hw.1 id (hsub id hid), hw.2⟩
  | finished s => exact hw.elim
  | cyclical => trivial

theorem KeepsCycles.andThen {ids₁ ids₂ : List String} {create : List (String × T)} {w : Walk T}
    {next : List (String × T) → List (String × T) → Walk T}
    (hw : KeepsCycles graph ids₁ create w)
    (hnext : ∀ c s, KeepsCycles graph ids₁ create (.running c s) → KeepsCycles graph ids₂ c (next c s)) :
    KeepsCycles graph (ids₁ ++ ids₂) create (w.andThen next) := by
  cases w with
  | running c s =>
    have hrest := hnext c s hw
    obtain ⟨hnot₁, hkept₁⟩ := hw
    simp only [Walk.andThen]
    rcases hstep : next c s with ⟨c', s'⟩ | s' | _ <;> rw [hstep] at hrest
    · obtain ⟨hnot₂, hkept₂⟩ := hrest
      refine ⟨fun id hid => ?_, fun k hk hcyc => hkept₂ k (hkept₁ k hk hcyc) hcyc⟩
      rcases List.mem_append.mp hid with hid | hid
      · exact hnot₁ id hid
      · exact hnot₂ id hid
    · exact hrest.elim
    · trivial
  | finished s => exact hw.elim
  | cyclical => trivial

/-- **One level of the walk fails on an id on a cycle**, and keeps the ids on cycles otherwise,
when the walk of every dependency list it pushes does. -/
theorem walkIds_keepsCycles {child : List String → List (String × T) → List (String × T) → Walk T}
    (hchild : ∀ toIds create sorted, (∃ c ∈ keys create, OnCycle graph c) →
      KeepsCycles graph toIds create (child toIds create sorted)) :
    ∀ (ids : List String) (create sorted : List (String × T)), (∃ c ∈ keys create, OnCycle graph c) →
      KeepsCycles graph ids create (walkIds graph child ids create sorted)
  | [], create, sorted, _ => ⟨by simp, fun _ hc _ => hc⟩
  | id :: rest, create, sorted, hcycle => by
    have hrest : ∀ c₀ c s, KeepsCycles graph [id] c₀ (.running c s) → (∃ c' ∈ keys c₀, OnCycle graph c') →
        KeepsCycles graph rest c (walkIds graph child rest c s) := by
      rintro c₀ c s ⟨-, hkept⟩ ⟨c', hc', hcyc⟩
      exact walkIds_keepsCycles hchild rest c s ⟨c', hkept c' hc' hcyc, hcyc⟩
    by_cases hid : OnCycle graph id
    · -- the walk of its dependency list reaches the next id of the cycle, and fails
      obtain ⟨y, ⟨toIds, hlookup, hy⟩, hcyc⟩ := hid.next
      rw [walkIds_cons_of_lookup_some hlookup]
      have hwalk := hchild toIds create sorted hcycle
      rcases hstep : child toIds create sorted with ⟨c, s⟩ | s | _ <;> rw [hstep] at hwalk
      · exact absurd hcyc (hwalk.1 y hy)
      · exact hwalk.elim
      · trivial
    · have hemit : ∀ c s, (∃ c' ∈ keys c, OnCycle graph c') →
          KeepsCycles graph ([id] ++ rest) c ((emit id c s).andThen (walkIds graph child rest)) :=
        fun c s hc => KeepsCycles.andThen (keepsCycles_emit hid hc) fun c' s' hpost =>
          hrest c c' s' hpost hc
      cases hlookup : graph.lookup id with
      | none =>
        rw [walkIds_cons_of_lookup_none hlookup]
        exact hemit create sorted hcycle
      | some toIds =>
        rw [walkIds_cons_of_lookup_some hlookup]
        have hwalk : KeepsCycles graph (toIds ++ ([id] ++ rest)) create
            ((child toIds create sorted).andThen fun c s =>
              (emit id c s).andThen (walkIds graph child rest)) :=
          KeepsCycles.andThen (hchild toIds create sorted hcycle) fun c s hpost => hemit c s (by
            obtain ⟨c', hc', hcyc⟩ := hcycle
            exact ⟨c', hpost.2 c' hc' hcyc, hcyc⟩)
        exact hwalk.mono fun x hx => List.mem_append_right _ hx

/-- **The walk fails on an id on a cycle** while an id on a cycle is in the create map. -/
theorem walk_keepsCycles : ∀ (budget : Nat) (ids : List String) (create sorted : List (String × T)),
    (∃ c ∈ keys create, OnCycle graph c) →
      KeepsCycles graph ids create (walk graph budget ids create sorted)
  | 0 => walkIds_keepsCycles fun _ _ _ _ => trivial
  | budget + 1 => walkIds_keepsCycles fun toIds create sorted hcycle =>
    walk_keepsCycles budget toIds create sorted hcycle

end Cycles

/-! ## The sort -/

section Sorting

variable {create : List (String × T)} {graph : List (String × List String)}

/-- The first loop passes when every reference names an entry of the create map. -/
theorem checkReferences_ok (hrefs : ∀ entry ∈ graph, ∀ toId ∈ entry.2, toId ∈ keys create) :
    checkReferences create graph = .ok () := by
  unfold checkReferences
  rw [Except.forM_eq_ok_iff]
  rintro ⟨fromId, toIds⟩ hentry
  rw [Except.forM_eq_ok_iff]
  intro toId htoId
  have hmem : toId ∈ keys create := hrefs _ hentry toId htoId
  have hany : create.any (·.1 == toId) = true := by
    simpa [List.any_eq_true] using hmem
  simp only [hany, if_true]
  rfl

theorem edge_mem_keys (hrefs : ∀ entry ∈ graph, ∀ toId ∈ entry.2, toId ∈ keys create)
    {u w : String} (hedge : Edge graph u w) : w ∈ keys create := by
  obtain ⟨toIds, hlookup, hw⟩ := hedge
  exact hrefs _ (List.mem_of_lookup_eq_some hlookup) w hw

/-- An id the graph has no entry for references nothing. -/
theorem not_edge_of_not_mem {u w : String} (hu : u ∉ keys graph) : ¬ Edge graph u w := by
  rintro ⟨toIds, hlookup, -⟩
  rw [List.lookup_eq_none_of_not_mem hu] at hlookup
  cases hlookup

/-- **The sort orders every create map whose walk fits**: on references that all name entries,
and ids whose walks fit in the 1000 iterators of the stack, `topological_sort` returns the entries
of the create map with no entry referencing a later one. -/
theorem topologicalSort_ok (hnodup : (keys create).Nodup)
    (hrefs : ∀ entry ∈ graph, ∀ toId ∈ entry.2, toId ∈ keys create)
    (hfits : ∀ id ∈ keys graph, Fits graph 1000 id) :
    ∃ sorted, topologicalSort create graph = .ok sorted ∧ sorted.Perm create ∧
      sorted.Pairwise fun a b => ¬ Edge graph a.1 b.1 := by
  have hstart : Sound graph create create [] := ⟨by simp, by simp, List.Pairwise.nil⟩
  have hpost := walk_post hnodup (fun _ _ => edge_mem_keys hrefs) 1000 (keys graph) create [] hfits
    hstart
  unfold topologicalSort
  rw [checkReferences_ok hrefs]
  rcases hwalk : walk graph 1000 (keys graph) create [] with ⟨rest, sorted⟩ | sorted | _ <;>
    rw [hwalk] at hpost
  · -- the ids the walk did not reach have no dependency list, and reference nothing
    obtain ⟨hsound, hgone, -⟩ := hpost
    have hdisjoint := hsound.nodup hnodup
    refine ⟨sorted ++ rest, rfl, hsound.perm, List.pairwise_append.mpr ⟨hsound.order, ?_, ?_⟩⟩
    · exact List.Pairwise.imp_of_mem (fun {a _} ha _ _ => not_edge_of_not_mem
        fun hkey => hgone a.1 hkey (List.mem_map_of_mem ha)) (List.pairwise_of_forall fun _ _ => trivial)
    · intro a ha b hb hedge
      exact (List.nodup_append.mp hdisjoint).2.2 _ (hsound.closed a ha _ hedge) _
        (List.mem_map_of_mem hb) rfl
  · exact ⟨sorted, rfl, by simpa using hpost.perm, hpost.order⟩
  · exact hpost.elim

/-- **A reference to an id the create map does not have fails the sort.** -/
theorem topologicalSort_absent
    (habsent : ∃ entry ∈ graph, ∃ toId ∈ entry.2, toId ∉ keys create) :
    ∃ e, topologicalSort create graph = .error e := by
  cases hcheck : checkReferences create graph with
  | error e =>
    refine ⟨e, ?_⟩
    unfold topologicalSort
    rw [hcheck]
    rfl
  | ok u =>
    obtain ⟨entry, hentry, toId, htoId, hnot⟩ := habsent
    unfold checkReferences at hcheck
    rw [Except.forM_eq_ok_iff] at hcheck
    have hlist := hcheck entry hentry
    rw [Except.forM_eq_ok_iff] at hlist
    have hany : create.any (·.1 == toId) = false := by
      rw [Bool.eq_false_iff]
      intro hsome
      obtain ⟨e, he, heq⟩ := List.any_eq_true.mp hsome
      exact hnot (List.mem_map.mpr ⟨e, he, by simpa using heq⟩)
    have hthrow := hlist toId htoId
    simp only [hany, Bool.false_eq_true, if_false] at hthrow
    cases hthrow

theorem mem_keys_of_edge {u w : String} (hedge : Edge graph u w) : u ∈ keys graph := by
  obtain ⟨toIds, hlookup, -⟩ := hedge
  exact List.mem_map_of_mem (List.mem_of_lookup_eq_some hlookup)

/-- **A cycle fails the sort.** Either a reference of the cycle names no entry, or every id of
the cycle is in the create map: the walk then keeps them there and fails when it reaches one. -/
theorem topologicalSort_cycle {x : String} (hcycle : OnCycle graph x) :
    ∃ e, topologicalSort create graph = .error e := by
  by_cases hrefs : ∀ entry ∈ graph, ∀ toId ∈ entry.2, toId ∈ keys create
  · obtain ⟨y, hedge, hy⟩ := hcycle.next
    have hwalk := walk_keepsCycles 1000 (keys graph) create [] ⟨y, edge_mem_keys hrefs hedge, hy⟩
    refine ⟨.cyclical, ?_⟩
    unfold topologicalSort
    rw [checkReferences_ok hrefs]
    rcases hw : walk graph 1000 (keys graph) create [] with ⟨c, s⟩ | s | _ <;> rw [hw] at hwalk
    · exact absurd hcycle (hwalk.1 x (mem_keys_of_edge hedge))
    · exact hwalk.elim
    · rfl
  · simp only [not_forall] at hrefs
    obtain ⟨entry, hentry, toId, htoId, hnot⟩ := hrefs
    exact topologicalSort_absent ⟨entry, hentry, toId, htoId, hnot⟩

/-- An id whose paths have at most `budget` edges fits in `budget` iterators, when no dependency
list is empty: an id with one has a path of one edge more than each id of it. -/
theorem fits_of_paths (hne : NoEmptyLists graph) :
    ∀ (budget : Nat) (x : String),
      (∀ path, (x :: path).IsChain (Edge graph) → path.length ≤ budget) → Fits graph budget x
  | 0, x, hbound => by
    show graph.lookup x = none
    cases hlookup : graph.lookup x with
    | none => rfl
    | some toIds =>
      obtain ⟨y, hy⟩ := List.exists_mem_of_ne_nil _ (hne _ (List.mem_of_lookup_eq_some hlookup))
      have hpath := hbound [y] (List.isChain_pair.mpr ⟨toIds, hlookup, hy⟩)
      simp at hpath
  | budget + 1, x, hbound => by
    intro toIds hlookup y hy
    refine fits_of_paths hne budget y fun path hpath => ?_
    have hlonger := hbound (y :: path) (List.isChain_cons_cons.mpr ⟨⟨toIds, hlookup, hy⟩, hpath⟩)
    simpa using hlonger

end Sorting

end Walking

end Stalwart.Jmap
