import Stalwart.Jmap.TopologicalSort

/-!
# Creation-id references in a JMAP `/set` (`references::eval`, `references::resolve`)

A method call may name an object that an earlier call of the same request created. It writes
`#x` for the creation id `x`, and the response keeps the ids created so far. Before a `/set` runs,
`resolve_references` replaces these references. `eval_object_references` walks an object. At its
top level it resolves references held by a property used as a patch path (`mailboxIds/#x`), by a
property value, by the values of an array, and by the keys of an id set. One level down, in the
objects of an array, only property values are resolved. A reference that no earlier call created
is an error in an update. In a create it is an edge of the graph that `topological_sort` then
orders the creates by.

## What is proved

* A value of an array is resolved only when it is an object, so a `/set` whose create or update
  lists `#x` in an array keeps the reference, though `x` was created. In an update the call does
  not fail either, though no creation made `y` (`array_references_unresolved`).
* The walk of the creates adds an id to the graph only with the reference it found, so no
  dependency list of the graph is empty (`pushEdge_noEmptyLists`, `walkCreates_noEmptyLists`).
  With `Stalwart.Jmap.TopologicalSort`: the sort orders every create map whose graph has such
  lists, references only created ids and has no path longer than 1000 edges, and fails on every
  cycle and every reference to an id it does not create (`topological_sort_orders_or_rejects`).
-/

set_option autoImplicit false

namespace Stalwart.Jmap

/-- `jmap_tools::Key`: a property of the object type, or another string. -/
inductive Key (P : Type) where
  | property (p : P)
  | other (s : String)

/-- `jmap_tools::Value`. Its scalars (`Null`, `Bool`, `Number`, `Str`) are one constructor, as
nothing here looks into them. -/
inductive Value (P E : Type) where
  | element (e : E)
  | array (items : List (Value P E))
  | object (entries : List (Key P × Value P E))
  | scalar

/-- `JmapObjectId`: the reference `#x` a property or an element holds, and setting the id it
resolves to, which fails (`false`) on an id of the wrong type. -/
class IdReference (α I : Type) where
  asIdRef : α → Option String
  trySetId : α → I → Option α

/-- The errors of resolving references. -/
inductive RefError where
  /-- `InvalidResultReference`: "Id reference points to invalid type." -/
  | invalidType
  /-- `InvalidResultReference`: "Id reference {id_ref:?} not found." -/
  | notFound (idRef : String)
  /-- An error of `topological_sort`. -/
  | sort (e : SortError)

/-- `references::Graph`: the creation id whose object is walked and the graph of references so
far, or `None` outside a create. -/
abbrev Graph := Option (String × List (String × List String))

/-- `graph.entry(child_id).or_insert_with(Vec::new).push(id_ref)`. -/
def pushEdge (graph : List (String × List String)) (childId idRef : String) :
    List (String × List String) :=
  match graph.lookup childId with
  | some _ => graph.map fun (k, toIds) => if k = childId then (k, toIds ++ [idRef]) else (k, toIds)
  | none => graph ++ [(childId, [idRef])]

/-- **An edge makes no empty list**: it goes onto the list of its id, or starts one. -/
theorem pushEdge_noEmptyLists {graph : List (String × List String)} (h : NoEmptyLists graph)
    (childId idRef : String) : NoEmptyLists (pushEdge graph childId idRef) := by
  unfold pushEdge
  split
  · intro entry hentry
    obtain ⟨⟨k, toIds⟩, hmem, rfl⟩ := List.mem_map.mp hentry
    by_cases hk : k = childId
    · simp [hk]
    · simpa [hk] using h _ hmem
  · intro entry hentry
    rcases List.mem_append.mp hentry with hmem | hnew
    · exact h _ hmem
    · simp [List.mem_singleton.mp hnew]

section Eval

variable {P E I : Type} [IdReference P I] [IdReference E I]

/-- A reference resolved against the ids the response has created. -/
def resolveRef {α : Type} [IdReference α I] (createdIds : List (String × I)) (x : α)
    (idRef : String) : Except RefError α :=
  match createdIds.lookup idRef with
  | some id =>
    match IdReference.trySetId x id with
    | some x' => .ok x'
    | none => .error .invalidType
  | none => .error (.notFound idRef)

/-- A key whose property holds a reference (a patch path, or a key of an id set), resolved. -/
def resolveKey (createdIds : List (String × I)) : Key P → Except RefError (Key P)
  | .property p =>
    match IdReference.asIdRef I p with
    | some idRef => (resolveRef createdIds p idRef).map .property
    | none => .ok (.property p)
  | key => .ok key

mutual

/-- `eval_object_references`: only an object is walked. -/
def Value.evalObjectReferences (createdIds : List (String × I)) :
    Value P E → Graph → Nat → Except RefError (Value P E × Graph)
  | .object entries, graph, depth => do
    let (entries, graph) ← evalEntries createdIds entries graph depth
    pure (.object entries, graph)
  | value, graph, _ => pure (value, graph)

/-- The loop over the entries of an object: the key at depth 0, then the value. -/
def evalEntries (createdIds : List (String × I)) :
    List (Key P × Value P E) → Graph → Nat →
      Except RefError (List (Key P × Value P E) × Graph)
  | [], graph, _ => pure ([], graph)
  | (key, value) :: entries, graph, depth => do
    let key ← if depth = 0 then resolveKey createdIds key else pure key
    let (value, graph) ← evalValue createdIds value graph depth
    let (entries, graph) ← evalEntries createdIds entries graph depth
    pure ((key, value) :: entries, graph)

/-- The `match value` of the loop: an element holding a reference is resolved, or becomes an
edge of the graph in a create; at depth 0 the items of an array are walked one level down, and
the keys of an id set are resolved. -/
def evalValue (createdIds : List (String × I)) :
    Value P E → Graph → Nat → Except RefError (Value P E × Graph)
  | .element e, graph, _ =>
    match IdReference.asIdRef I e with
    | some idRef =>
      match createdIds.lookup idRef with
      | some id =>
        match IdReference.trySetId e id with
        | some e' => pure (.element e', graph)
        | none => throw .invalidType
      | none =>
        match graph with
        | some (childId, edges) => pure (.element e, some (childId, pushEdge edges childId idRef))
        | none => throw (.notFound idRef)
    | none => pure (.element e, graph)
  | .array items, graph, 0 => do
    let (items, graph) ← evalItems createdIds items graph
    pure (.array items, graph)
  | .object entries, graph, 0 => do
    let entries ← entries.mapM fun (key, value) => do
      let key ← resolveKey createdIds key
      pure (key, value)
    pure (.object entries, graph)
  | value, graph, _ => pure (value, graph)

/-- `for item in items { item.eval_object_references(response, graph, depth + 1)? }`. -/
def evalItems (createdIds : List (String × I)) :
    List (Value P E) → Graph → Except RefError (List (Value P E) × Graph)
  | [], graph => pure ([], graph)
  | item :: items, graph => do
    let (item, graph) ← item.evalObjectReferences createdIds graph 1
    let (items, graph) ← evalItems createdIds items graph
    pure (item :: items, graph)

end

/-- The loop over the creates in `resolve_references`: each object is walked with the graph of
references so far, under its creation id. -/
def walkCreates (createdIds : List (String × I)) (create : List (String × Value P E)) :
    Except RefError (List (String × Value P E) × List (String × List String)) :=
  create.foldlM (fun (acc, graph) (id, obj) => do
      let (obj, graph') ← obj.evalObjectReferences createdIds (some (id, graph)) 0
      pure (acc ++ [(id, obj)], (graph'.map (·.2)).getD graph)) ([], [])

/-! ## The graph of the creates -/

/-- **A walk makes no empty dependency list.** Outside a create there is no graph; in one, the
only change is an edge pushed by `pushEdge`. The induction follows the four functions of the
walk. -/
theorem evalObjectReferences_noEmptyLists (createdIds : List (String × I)) :
    (∀ (value : Value P E) graph depth r, (∀ g ∈ graph, NoEmptyLists g.2) →
      value.evalObjectReferences createdIds graph depth = .ok r → ∀ g ∈ r.2, NoEmptyLists g.2) ∧
    (∀ (entries : List (Key P × Value P E)) graph depth r, (∀ g ∈ graph, NoEmptyLists g.2) →
      evalEntries createdIds entries graph depth = .ok r → ∀ g ∈ r.2, NoEmptyLists g.2) ∧
    (∀ (value : Value P E) graph depth r, (∀ g ∈ graph, NoEmptyLists g.2) →
      evalValue createdIds value graph depth = .ok r → ∀ g ∈ r.2, NoEmptyLists g.2) ∧
    (∀ (items : List (Value P E)) graph r, (∀ g ∈ graph, NoEmptyLists g.2) →
      evalItems createdIds items graph = .ok r → ∀ g ∈ r.2, NoEmptyLists g.2) := by
  apply Value.evalObjectReferences.mutual_induct createdIds
  case case1 =>
    intro entries graph depth ih r hg h
    simp only [Value.evalObjectReferences] at h
    obtain ⟨⟨entries', graph'⟩, hentries, h⟩ := Except.bind_eq_ok_iff.mp h
    cases h
    exact ih _ hg hentries
  case case2 =>
    intro value graph x hne r hg h
    have hpure : value.evalObjectReferences createdIds graph x = pure (value, graph) := by
      cases value with
      | object entries => exact absurd rfl (hne entries)
      | _ => rfl
    rw [hpure] at h
    cases h
    exact hg
  case case3 =>
    intro e graph x idRef href id hid e' hset r hg h
    simp only [evalValue, href, hid, hset] at h
    cases h
    exact hg
  case case4 =>
    intro e graph x idRef href id hid hset r hg h
    simp only [evalValue, href, hid, hset] at h
    cases h
  case case5 =>
    -- the one place a walk changes the graph
    intro e x idRef href hid childId edges r hg h
    simp only [evalValue, href, hid] at h
    cases h
    rintro ⟨_, edges'⟩ hmem
    cases hmem
    exact pushEdge_noEmptyLists (hg _ rfl) childId idRef
  case case6 =>
    intro e x idRef href hid r hg h
    simp only [evalValue, href, hid] at h
    cases h
  case case7 =>
    intro e graph x href r hg h
    simp only [evalValue, href] at h
    cases h
    exact hg
  case case8 =>
    intro items graph ih r hg h
    simp only [evalValue] at h
    obtain ⟨⟨items', graph'⟩, hitems, h⟩ := Except.bind_eq_ok_iff.mp h
    cases h
    exact ih _ hg hitems
  case case9 =>
    intro entries graph r hg h
    simp only [evalValue] at h
    obtain ⟨entries', -, h⟩ := Except.bind_eq_ok_iff.mp h
    cases h
    exact hg
  case case10 =>
    intro value graph x hne harray hobject r hg h
    have hpure : evalValue createdIds value graph x = pure (value, graph) := by
      cases value with
      | element e => exact absurd rfl (hne e)
      | array items => cases x with
        | zero => exact absurd rfl (harray items rfl)
        | succ => rfl
      | object entries => cases x with
        | zero => exact absurd rfl (hobject entries rfl)
        | succ => rfl
      | scalar => rfl
    rw [hpure] at h
    cases h
    exact hg
  case case11 =>
    intro graph r hg h
    cases h
    exact hg
  case case12 =>
    intro item items graph ihitem ihitems r hg h
    simp only [evalItems] at h
    obtain ⟨⟨item', graph₁⟩, hitem, h⟩ := Except.bind_eq_ok_iff.mp h
    obtain ⟨⟨items', graph₂⟩, hitems, h⟩ := Except.bind_eq_ok_iff.mp h
    cases h
    exact ihitems _ (items', graph₂) (ihitem _ hg hitem) hitems
  case case13 =>
    intro graph x r hg h
    cases h
    exact hg
  case case14 =>
    intro key value entries graph ihvalue ihentries r hg h
    simp only [evalEntries, if_true] at h
    obtain ⟨key', -, h⟩ := Except.bind_eq_ok_iff.mp h
    obtain ⟨⟨value', graph₁⟩, hvalue, h⟩ := Except.bind_eq_ok_iff.mp h
    obtain ⟨⟨entries', graph₂⟩, hentries, h⟩ := Except.bind_eq_ok_iff.mp h
    cases h
    exact ihentries _ (entries', graph₂) (ihvalue _ hg hvalue) hentries
  case case15 =>
    intro key value entries graph depth hdepth ihvalue ihentries r hg h
    simp only [evalEntries, hdepth, if_false] at h
    obtain ⟨key', -, h⟩ := Except.bind_eq_ok_iff.mp h
    obtain ⟨⟨value', graph₁⟩, hvalue, h⟩ := Except.bind_eq_ok_iff.mp h
    obtain ⟨⟨entries', graph₂⟩, hentries, h⟩ := Except.bind_eq_ok_iff.mp h
    cases h
    exact ihentries _ (entries', graph₂) (ihvalue _ hg hvalue) hentries

/-- **The creates build a graph with no empty dependency list**: each walk starts from the graph
so far, which has none, and keeps it so. -/
theorem walkCreates_noEmptyLists {createdIds : List (String × I)} {create create' : List (String × Value P E)}
    {graph : List (String × List String)} (h : walkCreates createdIds create = .ok (create', graph)) :
    NoEmptyLists graph := by
  refine Except.foldlM_invariant (P := fun state => NoEmptyLists state.2) ?_ (by simp [NoEmptyLists]) h
  rintro ⟨acc, edges⟩ ⟨id, obj⟩ ⟨acc', edges'⟩ - hedges hstep
  obtain ⟨⟨obj', graph'⟩, hwalk, hstep⟩ := Except.bind_eq_ok_iff.mp hstep
  cases hstep
  have hkept := evalObjectReferences_noEmptyLists createdIds |>.1 obj _ 0 _
    (fun g hg => by cases hg; exact hedges) hwalk
  cases graph' with
  | none => exact hedges
  | some g => exact hkept g rfl

/-- A `/set` request: the objects to create by creation id, and the objects to update by id. -/
structure SetRequest (P E : Type) where
  create : Option (List (String × Value P E))
  update : Option (List (String × Value P E))

/-- `SetRequest::resolve_references`: walks every create with the graph of references, orders the
creates when the graph has an edge, and walks every update. -/
def SetRequest.resolveReferences (request : SetRequest P E) (createdIds : List (String × I)) :
    Except RefError (SetRequest P E) := do
  let create ← match request.create with
    | some create => do
      let (create, graph) ← walkCreates createdIds create
      if graph.isEmpty then pure (some create)
      else match topologicalSort create graph with
        | .ok sorted => pure (some sorted)
        | .error e => throw (.sort e)
    | none => pure none
  let update ← match request.update with
    | some update => some <$> update.mapM fun (id, obj) => do
        let (obj, _) ← obj.evalObjectReferences createdIds none 0
        pure (id, obj)
    | none => pure none
  pure { create, update }

end Eval

/-! ## Ids in an array -/

/-- An element that holds an id or a reference, like `EmailValue`. -/
inductive IdValue where
  | id (n : Nat)
  | idRef (r : String)

/-- A property, which here never holds a reference. -/
inductive IdProperty where
  | name (s : String)

instance : IdReference IdValue Nat where
  asIdRef
    | .idRef r => some r
    | .id _ => none
  trySetId _ n := some (.id n)

instance : IdReference IdProperty Nat where
  asIdRef _ := none
  trySetId p _ := some p

/-- An object whose property `ids` lists the reference `#x`. -/
def listingRef (x : String) : Value IdProperty IdValue :=
  .object [(.property (.name "ids"), .array [.element (.idRef x)])]

theorem array_references_unresolved :
    SetRequest.resolveReferences (I := Nat) ⟨some [("c1", listingRef "x")], some [("m1", listingRef "y")]⟩
        [("x", 7)] =
      .ok ⟨some [("c1", listingRef "x")], some [("m1", listingRef "y")]⟩ := by
  rfl

/-! ## The order of the creates -/

theorem topological_sort_orders_or_rejects {T P E I : Type} [IdReference P I] [IdReference E I] :
    (∀ (create : List (String × T)) (graph : List (String × List String)), (keys create).Nodup →
      (∀ entry ∈ graph, ∀ toId ∈ entry.2, toId ∈ keys create) → NoEmptyLists graph →
      (∀ path : List String, path.IsChain (Edge graph) → path.length ≤ 1001) →
      ∃ sorted, topologicalSort create graph = .ok sorted ∧ sorted.Perm create ∧
        sorted.Pairwise fun a b => ¬ Edge graph a.1 b.1) ∧
    (∀ (createdIds : List (String × I)) (create create' : List (String × Value P E))
      (graph : List (String × List String)),
      walkCreates createdIds create = .ok (create', graph) → NoEmptyLists graph) ∧
    (∀ (create : List (String × T)) (graph : List (String × List String)),
      ((∃ x, OnCycle graph x) ∨ ∃ entry ∈ graph, ∃ toId ∈ entry.2, toId ∉ keys create) →
      ∃ e, topologicalSort create graph = .error e) := by
  refine ⟨fun create graph hnodup hrefs hne hpaths => ?_, fun _ _ _ _ h => walkCreates_noEmptyLists h,
    fun create graph hbad => ?_⟩
  · -- a path of at most 1000 edges from every id: every walk fits
    refine topologicalSort_ok hnodup hrefs fun x _ => fits_of_paths hne 1000 x fun path hpath => ?_
    have hlength := hpaths (x :: path) hpath
    simp only [List.length_cons] at hlength
    omega
  · rcases hbad with ⟨x, hcycle⟩ | habsent
    · exact topologicalSort_cycle hcycle
    · exact topologicalSort_absent habsent

/-- Two creates, the first referencing the second by `#b`. -/
def twoObjectsCreate : List (String × Value IdProperty IdValue) :=
  [("a", .object [(.property (.name "ref"), .element (.idRef "b"))]), ("b", .object [])]

/-- The graph of `twoObjectsCreate`. -/
def twoObjectsGraph : List (String × List String) :=
  [("a", ["b"])]

theorem edge_twoObjectsGraph {u w : String} (hedge : Edge twoObjectsGraph u w) :
    u = "a" ∧ w = "b" := by
  obtain ⟨toIds, hlookup, hw⟩ := hedge
  have hmem := List.mem_of_lookup_eq_some hlookup
  simp only [twoObjectsGraph, List.mem_singleton, Prod.mk.injEq] at hmem
  obtain ⟨rfl, rfl⟩ := hmem
  exact ⟨rfl, List.mem_singleton.mp hw⟩

/-- Walking the two creates before any id was created gives the edge from `a` to `b`, and the
sort puts `b` first. -/
theorem topological_sort_two_objects :
    walkCreates (I := Nat) [] twoObjectsCreate = .ok (twoObjectsCreate, twoObjectsGraph) ∧
    ∃ sorted, topologicalSort twoObjectsCreate twoObjectsGraph = .ok sorted ∧
      sorted.Perm twoObjectsCreate ∧ sorted.Pairwise fun a b => ¬ Edge twoObjectsGraph a.1 b.1 := by
  have hwalk : walkCreates (I := Nat) [] twoObjectsCreate = .ok (twoObjectsCreate, twoObjectsGraph) :=
    rfl
  refine ⟨hwalk, (topological_sort_orders_or_rejects (P := IdProperty) (E := IdValue) (I := Nat)).1 _ _
    (by decide) (by decide) ((topological_sort_orders_or_rejects (T := Unit)).2.1 _ _ _ _ hwalk)
    fun path hpath => ?_⟩
  -- every edge leaves `a` for `b`, which references nothing: no path has two edges
  rcases path with _ | ⟨u, _ | ⟨v, _ | ⟨w, rest⟩⟩⟩
  · simp
  · simp
  · simp
  · obtain ⟨⟨-, hv⟩, ⟨hv', -⟩, -⟩ := List.isChain_cons_cons.mp hpath |>.imp
      edge_twoObjectsGraph fun h => List.isChain_cons_cons.mp h |>.imp_left edge_twoObjectsGraph
    exact absurd (hv.symm.trans hv') (by decide)

end Stalwart.Jmap
