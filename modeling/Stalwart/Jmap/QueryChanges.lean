import Stalwart.Jmap.Changes
import Stalwart.Lib.ListPatch

/-!
# JMAP `Foo/queryChanges`

`query_changes` tells a client how the results of a query moved since a query state it holds. It
asks `Foo/changes` for the ids created, updated and destroyed since that state, runs the query
again over the current state, and answers with the ids to remove from the old results and the ids
to insert, each at its index in the new results. A query whose filter and sort read only
properties that never change (`is_mutable` false, for emails) sends only the destroyed ids as
removed and the created ids as added, and stops at `upToId`.

## What is proved

**The patch law** (`applyResults_patch`, and `queryChanges_patch` for a whole call): when the
changes record exactly how the objects moved between the old and the new state, removing the
removed ids from the old results and inserting the added ones in ascending order of index gives
the new results. An immutable query with an `upToId` among the new results gives them up to
`upToId`, followed by the old results that survive after it. The law rests on the splice law and
on sorted restriction of `Lib.ListPatch`.

The law holds of the changes that the call of `changes` hands over. A `maxChanges` smaller than
the number of changes is passed on to that call, which then answers with a page of them and an
intermediate state, and `query_changes` patches with that page against the full new results
(`queryChanges_maxChanges_partial`).

The model leaves out the account id, the filter, sort and arguments of the request (they enter
through the results of the query and, for emails, `is_mutable`), and the errors of the query.
-/

namespace Stalwart.Jmap

/-- `QueryChangesRequest`, without its account id, filter, sort and arguments. -/
structure QueryChangesRequest where
  sinceQueryState : State
  maxChanges : Option Nat
  upToId : Option UInt64
  calculateTotal : Option Bool
  deriving DecidableEq, Repr

/-- `AddedItem`: an id and its index in the new results. -/
structure AddedItem where
  id : UInt64
  index : Nat
  deriving DecidableEq, Repr

/-- `QueryChangesResponse`, without its account id. -/
structure QueryChangesResponse where
  oldQueryState : State
  newQueryState : State
  total : Option Nat
  removed : List UInt64
  added : List AddedItem
  deriving DecidableEq, Repr

/-- What the query over the current state answers: its ids, in order, and its total. -/
structure QueryResults where
  ids : List UInt64
  total : Option Nat
  deriving DecidableEq, Repr

/-- `ChangesResponse::has_changes`. -/
def ChangesResponse.hasChanges (changes : ChangesResponse) : Bool :=
  !changes.created.isEmpty || !changes.updated.isEmpty || !changes.destroyed.isEmpty

theorem ChangesResponse.hasChanges_eq_false {changes : ChangesResponse} :
    changes.hasChanges = false ↔
      (changes.created = [] ∧ changes.updated = []) ∧ changes.destroyed = [] := by
  simp [ChangesResponse.hasChanges, List.isEmpty_iff]

/-- `build_changes_request`. -/
def buildChangesRequest (request : QueryChangesRequest) : ChangesRequest :=
  ⟨request.sinceQueryState, request.maxChanges⟩

/-- `build_query_changes_response`. -/
def buildQueryChangesResponse (changes : ChangesResponse) : QueryChangesResponse :=
  { oldQueryState := changes.oldState, newQueryState := changes.newState, total := none
    removed := [], added := [] }

/-- The loop of an immutable query: the created ids among the results, with their indices, up to
and including `upToId`. -/
def addedUpTo (created : List UInt64) (upToId : Option UInt64) :
    List (UInt64 × Nat) → List AddedItem
  | [] => []
  | (id, index) :: rest =>
    let added := if created.contains id then [⟨id, index⟩] else []
    if upToId == some id then added else added ++ addedUpTo created upToId rest

/-- The loop of a mutable query: the created and updated ids among the results, with their
indices. -/
def addedOf (changes : ChangesResponse) (ids : List UInt64) : List AddedItem :=
  ids.zipIdx.filterMap fun (id, index) =>
    if changes.created.contains id || changes.updated.contains id then some ⟨id, index⟩ else none

/-- The end of `query_changes`: the added and removed ids, from the changes and the results of the
query over the current state. -/
def applyResults (changes : ChangesResponse) (isMutable : Bool) (upToId : Option UInt64)
    (results : QueryResults) (response : QueryChangesResponse) : QueryChangesResponse :=
  let response :=
    if changes.hasChanges then
      let response :=
        if isMutable then
          { response with added := response.added ++ addedOf changes results.ids
                          removed := changes.updated }
        else
          { response with added := response.added ++ addedUpTo changes.created upToId
                            results.ids.zipIdx }
      if !changes.destroyed.isEmpty then
        { response with removed := response.removed ++ changes.destroyed }
      else response
    else response
  { response with total := results.total }

/-- `QueryChanges::query_changes`, on the logs of the request's account, for a request on the
objects `object`. `isMutableQuery` says whether the filter or the sort of an email query reads a
property that can change; the query of any other object counts as mutable. -/
def queryChanges (logs : Store.Write.SyncCollection → Store.ChangeLog)
    (changesMaxResults : Option Nat) (access : AccessCheck → Bool) (object : MethodObject)
    (request : QueryChangesRequest) (isMutableQuery : Bool) (results : QueryResults) :
    Except ChangesError QueryChangesResponse := do
  if object == .principal || object == .quota then throw (.cannotCalculateChanges none)
  let changes := (← changes logs changesMaxResults access (buildChangesRequest request) object).response
  let calculateTotal := request.calculateTotal.getD false
  let hasChanges := changes.hasChanges
  let response := buildQueryChangesResponse changes
  if !hasChanges && !calculateTotal then return response
  let isMutable := if object == .email then isMutableQuery else true
  return applyResults changes isMutable request.upToId results response

/-! ## What a client does with a response -/

/-- The client's patch: remove every removed id from its results, then insert each added id at its
index, in the order of the list. -/
def applyPatch (results removed : List UInt64) (added : List AddedItem) : List UInt64 :=
  List.insertEach (results.filter fun id => !removed.contains id)
    (added.map fun item => (item.id, item.index))

/-! ## The states a query runs over -/

/-- The objects of one type in an account: each id with what its queries read of it. -/
structure Snapshot (V : Type) where
  entries : List (UInt64 × V)
  nodup : (entries.map Prod.fst).Nodup

/-- A query: a filter and a sort, both functions of an object and what it holds. -/
structure QuerySpec (V : Type) where
  filter : V → Bool
  sort : SortOrder (UInt64 × V)

/-- The full results of a query over a snapshot. -/
def Snapshot.query {V : Type} (snapshot : Snapshot V) (spec : QuerySpec V) : List UInt64 :=
  ((snapshot.entries.filter fun entry => spec.filter entry.2).mergeSort spec.sort.le).map Prod.fst

/-- The changes record how the objects moved between two snapshots: an id none of them names
holds the same in both, a created id that is not also destroyed is new, and a destroyed id that
is not also created is gone. -/
structure ChangesResponse.Records {V : Type} (changes : ChangesResponse)
    (old new : Snapshot V) : Prop where
  same : ∀ id v, id ∉ changes.created → id ∉ changes.updated → id ∉ changes.destroyed →
    ((id, v) ∈ old.entries ↔ (id, v) ∈ new.entries)
  created_new : ∀ id ∈ changes.created, id ∉ changes.destroyed → ∀ v, (id, v) ∉ old.entries
  destroyed_gone : ∀ id ∈ changes.destroyed, id ∉ changes.created → ∀ v, (id, v) ∉ new.entries

/-! ## The added items -/

/-- An added item from an entry of the numbered results. -/
def AddedItem.ofEntry (entry : UInt64 × Nat) : AddedItem := ⟨entry.1, entry.2⟩

@[simp] theorem map_ofEntry (items : List (UInt64 × Nat)) :
    (items.map AddedItem.ofEntry).map (fun item => (item.id, item.index)) = items := by
  induction items with
  | nil => rfl
  | cons item items ih => simp [ih, AddedItem.ofEntry]

theorem filterMap_ofEntry (P : UInt64 × Nat → Bool) (items : List (UInt64 × Nat)) :
    items.filterMap (fun x => if P x = true then some (AddedItem.ofEntry x) else none) =
      (items.filter P).map AddedItem.ofEntry := by
  induction items with
  | nil => rfl
  | cons x items ih => cases hx : P x <;> simp [hx, ih]

/-- The ids of a mutable query's added items: every result the changes create or update. -/
theorem addedOf_eq (changes : ChangesResponse) (ids : List UInt64) :
    addedOf changes ids =
      ((ids.zipIdx).filter fun x =>
        changes.created.contains x.1 || changes.updated.contains x.1).map AddedItem.ofEntry :=
  filterMap_ofEntry _ ids.zipIdx

/-- The ids of an immutable query's added items: every created result up to the first result that
is `upToId`, all of them when none is. -/
theorem addedUpTo_eq (created : List UInt64) (upToId : Option UInt64) :
    ∀ (ids : List UInt64) (k : Nat),
      addedUpTo created upToId (ids.zipIdx k) =
        (((ids.take (ids.findIdx (fun id => upToId == some id) + 1)).zipIdx k).filter
          fun x => created.contains x.1).map AddedItem.ofEntry
  | [], _ => rfl
  | id :: ids, k => by
    rw [List.zipIdx_cons, addedUpTo, List.findIdx_cons]
    by_cases hstop : (upToId == some id) = true
    · -- the loop breaks after `upToId`
      by_cases hcreated : id ∈ created <;> simp [hstop, hcreated, AddedItem.ofEntry]
    · simp only [Bool.not_eq_true] at hstop
      rw [addedUpTo_eq created upToId ids (k + 1)]
      by_cases hcreated : id ∈ created <;> simp [hstop, hcreated, AddedItem.ofEntry]

/-- The added items come in ascending order of index. -/
theorem pairwise_index_filter_zipIdx (P : UInt64 × Nat → Bool) (ids : List UInt64) (k : Nat) :
    ((((ids.zipIdx k).filter P).map AddedItem.ofEntry).map (·.index)).Pairwise (· < ·) := by
  have hrange : ((ids.zipIdx k).map Prod.snd).Pairwise (· < ·) := by
    rw [List.zipIdx_map_snd]
    exact List.pairwise_lt_range' 1
  rw [List.map_map]
  exact hrange.sublist ((List.filter_sublist).map _)

/-! ## The response -/

section Response

variable {changes : ChangesResponse} {isMutable : Bool} {upToId : Option UInt64}
  {results : QueryResults}

@[simp] theorem applyResults_newQueryState :
    (applyResults changes isMutable upToId results (buildQueryChangesResponse changes)).newQueryState =
      changes.newState := by
  unfold applyResults
  split_ifs <;> rfl

theorem applyResults_removed (hchanges : changes.hasChanges = true) :
    (applyResults changes isMutable upToId results (buildQueryChangesResponse changes)).removed =
      (if isMutable then changes.updated else []) ++ changes.destroyed := by
  unfold applyResults
  cases isMutable <;> by_cases hempty : changes.destroyed.isEmpty = true <;>
    simp_all [buildQueryChangesResponse, List.isEmpty_iff]

theorem applyResults_added (hchanges : changes.hasChanges = true) :
    (applyResults changes isMutable upToId results (buildQueryChangesResponse changes)).added =
      if isMutable then addedOf changes results.ids
      else addedUpTo changes.created upToId results.ids.zipIdx := by
  unfold applyResults
  cases isMutable <;> split_ifs <;> simp [buildQueryChangesResponse]

/-- Without changes the response removes and adds nothing. -/
theorem applyResults_of_hasChanges_false (hchanges : changes.hasChanges = false) :
    (applyResults changes isMutable upToId results (buildQueryChangesResponse changes)).removed = [] ∧
      (applyResults changes isMutable upToId results (buildQueryChangesResponse changes)).added =
        [] := by
  simp [applyResults, hchanges, buildQueryChangesResponse]

/-- The added items come in ascending order of index, so the client's patch inserts them in that
order. -/
theorem applyResults_added_ascending :
    ((applyResults changes isMutable upToId results
      (buildQueryChangesResponse changes)).added.map (·.index)).Pairwise (· < ·) := by
  cases hchanges : changes.hasChanges
  · simp [applyResults_of_hasChanges_false hchanges]
  · rw [applyResults_added hchanges]
    cases isMutable
    · simpa [addedUpTo_eq] using pairwise_index_filter_zipIdx _ _ 0
    · simpa [addedOf_eq] using pairwise_index_filter_zipIdx _ results.ids 0

end Response

/-! ## The patch law -/

section Patch

variable {V : Type} {spec : QuerySpec V}

/-- Every result of a query names an object of the snapshot. -/
theorem Snapshot.mem_query {snapshot : Snapshot V} {id : UInt64}
    (h : id ∈ snapshot.query spec) : ∃ v, (id, v) ∈ snapshot.entries := by
  obtain ⟨⟨id', v⟩, hmem, rfl⟩ := List.mem_map.mp h
  exact ⟨v, (List.mem_filter.mp ((List.mergeSort_perm _ _).mem_iff.mp hmem)).1⟩

/-- Two snapshots that hold the same for the ids `U` accepts list those ids in the same order. -/
theorem Snapshot.query_filter_eq {old new : Snapshot V} (U : UInt64 → Bool)
    (hsame : ∀ id v, U id = true → ((id, v) ∈ old.entries ↔ (id, v) ∈ new.entries)) :
    (old.query spec).filter U = (new.query spec).filter U := by
  unfold Snapshot.query
  apply List.map_fst_mergeSort_filter_eq spec.sort ((old.nodup.of_map _).filter _)
    ((new.nodup.of_map _).filter _) U
  intro id v hU
  simp only [List.mem_filter]
  rw [hsame id v hU]

variable {changes : ChangesResponse} {old new : Snapshot V}

/-- For a mutable query, the old results left after removing the updated and destroyed ids are the
new results that are not created or updated. -/
theorem survivors_of_mutable (hrecords : changes.Records old new) :
    (old.query spec).filter (fun id => !(changes.updated ++ changes.destroyed).contains id) =
      (new.query spec).filter
        (fun id => !(changes.created.contains id || changes.updated.contains id)) := by
  -- both are the results that no change names
  let U : UInt64 → Bool := fun id =>
    !changes.created.contains id && !changes.updated.contains id && !changes.destroyed.contains id
  have hold : (old.query spec).filter
      (fun id => !(changes.updated ++ changes.destroyed).contains id) = (old.query spec).filter U := by
    refine List.filter_congr fun id hid => ?_
    obtain ⟨v, hv⟩ := Snapshot.mem_query hid
    by_cases hc : id ∈ changes.created
    · by_cases hd : id ∈ changes.destroyed
      · simp [U, hd]
      · exact absurd hv (hrecords.created_new id hc hd v)
    · simp [U, hc]
  have hnew : (new.query spec).filter
      (fun id => !(changes.created.contains id || changes.updated.contains id)) =
        (new.query spec).filter U := by
    refine List.filter_congr fun id hid => ?_
    obtain ⟨v, hv⟩ := Snapshot.mem_query hid
    by_cases hd : id ∈ changes.destroyed
    · by_cases hc : id ∈ changes.created
      · simp [U, hc]
      · exact absurd hv (hrecords.destroyed_gone id hd hc v)
    · simp [U, hd]
  rw [hold, hnew]
  refine Snapshot.query_filter_eq U fun id v hU => ?_
  simp only [U, Bool.and_eq_true, Bool.not_eq_true', List.contains_eq_mem,
    decide_eq_false_iff_not] at hU
  exact hrecords.same id v hU.1.1 hU.1.2 hU.2

/-- For an immutable query, the old results left after removing the destroyed ids are the new
results that are not created. -/
theorem survivors_of_immutable (hrecords : changes.Records old new)
    (himmutable : ∀ id v, id ∉ changes.created → id ∉ changes.destroyed →
      ((id, v) ∈ old.entries ↔ (id, v) ∈ new.entries)) :
    (old.query spec).filter (fun id => !changes.destroyed.contains id) =
      (new.query spec).filter (fun id => !changes.created.contains id) := by
  -- both are the results that are neither created nor destroyed
  let U : UInt64 → Bool := fun id => !changes.created.contains id && !changes.destroyed.contains id
  have hold : (old.query spec).filter (fun id => !changes.destroyed.contains id) =
      (old.query spec).filter U := by
    refine List.filter_congr fun id hid => ?_
    obtain ⟨v, hv⟩ := Snapshot.mem_query hid
    by_cases hc : id ∈ changes.created
    · by_cases hd : id ∈ changes.destroyed
      · simp [U, hd]
      · exact absurd hv (hrecords.created_new id hc hd v)
    · simp [U, hc]
  have hnew : (new.query spec).filter (fun id => !changes.created.contains id) =
      (new.query spec).filter U := by
    refine List.filter_congr fun id hid => ?_
    obtain ⟨v, hv⟩ := Snapshot.mem_query hid
    by_cases hd : id ∈ changes.destroyed
    · by_cases hc : id ∈ changes.created
      · simp [U, hc]
      · exact absurd hv (hrecords.destroyed_gone id hd hc v)
    · simp [U, hd]
  rw [hold, hnew]
  refine Snapshot.query_filter_eq U fun id v hU => ?_
  simp only [U, Bool.and_eq_true, Bool.not_eq_true', List.contains_eq_mem,
    decide_eq_false_iff_not] at hU
  exact himmutable id v hU.1 hU.2

/-- Without changes, the results do not move. -/
theorem query_eq_of_hasChanges_false (hrecords : changes.Records old new)
    (hchanges : changes.hasChanges = false) : old.query spec = new.query spec := by
  have hnone := ChangesResponse.hasChanges_eq_false.mp hchanges
  have h := @Snapshot.query_filter_eq V spec old new (fun _ => true) fun id v _ =>
    hrecords.same id v (by simp [hnone.1.1]) (by simp [hnone.1.2]) (by simp [hnone.2])
  simpa using h

/-- How far a response patches the results: over all of them for a mutable query; for an immutable
one, up to the first result that is `upToId`, and over all of them when none is. -/
def patchCut (isMutable : Bool) (upToId : Option UInt64) (ids : List UInt64) : Nat :=
  if isMutable then ids.length else ids.findIdx (fun id => upToId == some id) + 1

/-- **The patch law.** When the changes record how the objects moved, the response patches the old
results into the new ones, up to the cut; past it, the old results that survive stay. -/
theorem applyResults_patch {isMutable : Bool} {upToId : Option UInt64} {results : QueryResults}
    (hrecords : changes.Records old new) (hresults : results.ids = new.query spec)
    (himmutable : isMutable = false → ∀ id v, id ∉ changes.created → id ∉ changes.destroyed →
      ((id, v) ∈ old.entries ↔ (id, v) ∈ new.entries)) :
    applyPatch (old.query spec)
        (applyResults changes isMutable upToId results (buildQueryChangesResponse changes)).removed
        (applyResults changes isMutable upToId results (buildQueryChangesResponse changes)).added =
      (new.query spec).take (patchCut isMutable upToId (new.query spec)) ++
        ((new.query spec).drop (patchCut isMutable upToId (new.query spec))).filter
          fun id => !changes.created.contains id := by
  cases hchanges : changes.hasChanges
  · -- no changes: nothing moves, and nothing was created
    obtain ⟨hremoved, hadded⟩ :=
      @applyResults_of_hasChanges_false changes isMutable upToId results hchanges
    have hnone := ChangesResponse.hasChanges_eq_false.mp hchanges
    rw [hremoved, hadded, query_eq_of_hasChanges_false hrecords hchanges]
    simp [applyPatch, List.insertEach, hnone.1.1]
  · rw [applyPatch, applyResults_removed hchanges, applyResults_added hchanges]
    cases isMutable
    · -- immutable: the destroyed ids go, the created ones come, up to `upToId`
      simp only [Bool.false_eq_true, if_false, List.nil_append]
      rw [survivors_of_immutable hrecords (himmutable rfl), hresults, addedUpTo_eq, map_ofEntry]
      exact List.insertEach_take _ _ _
    · -- mutable: the updated and destroyed ids go, the created and updated ones come
      simp only [if_true]
      rw [survivors_of_mutable hrecords, hresults, addedOf_eq, map_ofEntry, List.insertEach_filter]
      simp [patchCut]

/-- The cut is past the last result, or right after the first result that is `upToId`. -/
theorem patchCut_cases (isMutable : Bool) (upToId : Option UInt64) (ids : List UInt64) :
    ids.length ≤ patchCut isMutable upToId ids ∨
      ∃ i, ∃ hi : i < ids.length, upToId = some ids[i] ∧ patchCut isMutable upToId ids = i + 1 := by
  unfold patchCut
  cases isMutable
  · simp only [Bool.false_eq_true, if_false]
    by_cases hfound : ids.findIdx (fun id => upToId == some id) < ids.length
    · -- the loop stops at `upToId`
      have hstop := @List.findIdx_getElem _ (fun id => upToId == some id) ids hfound
      exact Or.inr ⟨_, hfound, by simpa using hstop, rfl⟩
    · exact Or.inl (by omega)
  · exact Or.inl (le_of_eq rfl)

theorem queryChanges_patch {logs : Store.Write.SyncCollection → Store.ChangeLog}
    {changesMaxResults : Option Nat} {access : AccessCheck → Bool} {object : MethodObject}
    {request : QueryChangesRequest} {isMutableQuery : Bool} {results : QueryResults}
    {intermediate : IntermediateChangesResponse} {response : QueryChangesResponse}
    (hchanges : Jmap.changes logs changesMaxResults access (buildChangesRequest request) object =
      .ok intermediate)
    (hquery : queryChanges logs changesMaxResults access object request isMutableQuery results =
      .ok response)
    (hrecords : intermediate.response.Records old new) (hresults : results.ids = new.query spec)
    (himmutable : object = .email → isMutableQuery = false →
      ∀ id v, id ∉ intermediate.response.created → id ∉ intermediate.response.destroyed →
        ((id, v) ∈ old.entries ↔ (id, v) ∈ new.entries)) :
    response.newQueryState = intermediate.response.newState ∧
      (response.added.map (·.index)).Pairwise (· < ·) ∧
      (applyPatch (old.query spec) response.removed response.added = new.query spec ∨
        ∃ i, ∃ hi : i < (new.query spec).length, request.upToId = some (new.query spec)[i] ∧
          applyPatch (old.query spec) response.removed response.added =
            (new.query spec).take (i + 1) ++ ((new.query spec).drop (i + 1)).filter
              fun id => !intermediate.response.created.contains id) := by
  have hobject : (object == .principal || object == .quota) = false := by
    cases h : (object == .principal || object == .quota)
    · rfl
    · simp [queryChanges, h] at hquery
  simp only [queryChanges, hobject, Bool.false_eq_true, if_false, hchanges, Except.ok_bind_eq]
    at hquery
  generalize hmutable : (if (object == .email) = true then isMutableQuery else true) = isMutable
    at hquery
  by_cases hearly : (!intermediate.response.hasChanges && !request.calculateTotal.getD false) = true
  · -- the early return: no changes, so the results did not move
    rw [if_pos hearly] at hquery
    cases hquery
    have hnone : intermediate.response.hasChanges = false := by
      simpa using ((Bool.and_eq_true _ _).mp hearly).1
    refine ⟨rfl, by simp [buildQueryChangesResponse], Or.inl ?_⟩
    simp [buildQueryChangesResponse, applyPatch, List.insertEach,
      query_eq_of_hasChanges_false hrecords hnone]
  · rw [if_neg hearly] at hquery
    cases hquery
    -- only an email query can be immutable
    have himmutable' : isMutable = false → ∀ id v, id ∉ intermediate.response.created →
        id ∉ intermediate.response.destroyed → ((id, v) ∈ old.entries ↔ (id, v) ∈ new.entries) := by
      intro hfalse
      by_cases hemail : object = .email
      · exact himmutable hemail (by simpa [hemail, hfalse] using hmutable)
      · simp [hemail, hfalse] at hmutable
    refine ⟨applyResults_newQueryState, applyResults_added_ascending, ?_⟩
    rw [applyResults_patch hrecords hresults himmutable']
    rcases patchCut_cases isMutable request.upToId (new.query spec) with hall | ⟨i, hi, hupTo, hcut⟩
    · -- the cut is past the results: the patch gives them all
      left
      rw [List.take_of_length_le hall, List.drop_of_length_le hall, List.filter_nil,
        List.append_nil]
    · right
      exact ⟨i, hi, hupTo, by rw [hcut]⟩

end Patch

/-! ## A page of changes -/

/-- No email yet. -/
def noEmails : Snapshot Unit := ⟨[], by decide⟩

/-- The emails 10 and 11 of the two inserts of `insertsLog`. -/
def twoEmails : Snapshot Unit := ⟨[(10, ()), (11, ())], by decide⟩

/-- Every email, in the order they arrived: by id. -/
def allById : QuerySpec Unit where
  filter := fun _ => true
  sort :=
    { le := fun a b => decide (a.1 ≤ b.1)
      trans := fun _ _ _ hab hbc => decide_eq_true (UInt64.le_trans (of_decide_eq_true hab)
        (of_decide_eq_true hbc))
      total := fun a b => by
        rcases UInt64.le_total a.1 b.1 with h | h <;> simp [h]
      antisymm := fun a b hab hba => Prod.ext
        (UInt64.le_antisymm (of_decide_eq_true hab) (of_decide_eq_true hba)) rfl }

theorem twoEmails_query : twoEmails.query allById = [10, 11] := by
  have hfilter : twoEmails.entries.filter (fun entry => allById.filter entry.2) =
      twoEmails.entries := List.filter_eq_self.mpr fun _ _ => rfl
  unfold Snapshot.query
  rw [hfilter, List.mergeSort_eq_self_of_pairwise (by decide)]
  rfl

/-- From no email to the two inserts: the call sends both as added, at indices `0` and `1`, and
the patch gives the new results. -/
theorem queryChanges_patch_inserts :
    changes (fun _ => insertsLog) none (fun _ => true) ⟨.initial, none⟩ .email =
        .ok ⟨{ oldState := .initial, newState := .exact 2, created := [10, 11] }, .email, false⟩ ∧
      queryChanges (fun _ => insertsLog) none (fun _ => true) .email ⟨.initial, none, none, none⟩
          false ⟨twoEmails.query allById, none⟩ =
        .ok ⟨.initial, .exact 2, none, [], [⟨10, 0⟩, ⟨11, 1⟩]⟩ ∧
      ({ oldState := .initial, newState := .exact 2, created := [10, 11] } : ChangesResponse).Records
        noEmails twoEmails ∧
      applyPatch (noEmails.query allById) [] [⟨10, 0⟩, ⟨11, 1⟩] = twoEmails.query allById := by
  have hrecords : ({ oldState := .initial, newState := .exact 2, created := [10, 11] } :
      ChangesResponse).Records noEmails twoEmails := by
    refine ⟨fun id v hcreated _ _ => ?_, fun _ _ _ _ => List.not_mem_nil, fun _ h => nomatch h⟩
    -- an email that was not created is in neither snapshot
    simp only [noEmails, twoEmails, List.not_mem_nil, false_iff]
    intro hmem
    exact hcreated (List.mem_map_of_mem (f := Prod.fst) hmem)
  have hquery : queryChanges (fun _ => insertsLog) none (fun _ => true) .email
      ⟨.initial, none, none, none⟩ false ⟨twoEmails.query allById, none⟩ =
        .ok ⟨.initial, .exact 2, none, [], [⟨10, 0⟩, ⟨11, 1⟩]⟩ := by
    simp only [queryChanges, buildChangesRequest, changes_insertsLog, twoEmails_query]
    rfl
  have hresults : (⟨twoEmails.query allById, none⟩ : QueryResults).ids = twoEmails.query allById :=
    rfl
  have hpatch := queryChanges_patch changes_insertsLog hquery hrecords hresults
    fun _ _ id v hcreated hdestroyed => hrecords.same id v hcreated List.not_mem_nil hdestroyed
  refine ⟨changes_insertsLog, hquery, hrecords, ?_⟩
  -- no `upToId`: the patch gives the whole new results
  rcases hpatch.2.2 with h | ⟨_, _, hupTo, _⟩
  · exact h
  · cases hupTo

theorem queryChanges_maxChanges_partial :
    (changes (fun _ => insertsLog) none (fun _ => true) ⟨.initial, none⟩ .email).map
        (·.response) = .ok { oldState := .initial, newState := .exact 2, created := [10, 11] } ∧
      queryChanges (fun _ => insertsLog) none (fun _ => true) .email
          ⟨.initial, some 1, none, none⟩ false ⟨twoEmails.query allById, none⟩ =
        .ok { oldQueryState := .initial, newQueryState := .intermediate 1 2 1, total := none
              removed := [], added := [⟨10, 0⟩] } ∧
      applyPatch (noEmails.query allById) [] [⟨10, 0⟩] = [10] ∧
      twoEmails.query allById = [10, 11] := by
  have hpage : changes (fun _ => insertsLog) none (fun _ => true) ⟨.initial, some 1⟩ .email =
      .ok ⟨{ oldState := .initial, newState := .intermediate 1 2 1, hasMoreChanges := true
             created := [10] }, .email, false⟩ := by
    rw [changes_of_target rfl rfl]
    simp only [readChangelog, storeChanges, Store.changes_of_holds insertsLog_holds]
    rfl
  refine ⟨by rw [changes_insertsLog]; rfl, ?_, by simp [applyPatch, Snapshot.query, noEmails, List.insertEach],
    twoEmails_query⟩
  simp only [queryChanges, buildChangesRequest, hpage, twoEmails_query]
  rfl

end Stalwart.Jmap
