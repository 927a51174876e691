import Mathlib.Data.Finset.Basic
import Stalwart.Lib.ByteOrder

/-!
# Range scans and sort order of the search index

An indexed field of a document is stored as one key of the search-index subspace: the class
byte, the account id, the field id, the value's bytes and the document id, with nothing between
the value and the document id (`indexKey`). Integers are written as eight big-endian bytes, a
signed one as the bits of its two's complement, and a text as its first
`SEARCH_INDEX_MAX_FIELD_LEN` bytes (`SearchValue.indexData`).

`range_to_bitmap` answers a comparison with a match value by one ascending scan between two keys
that pair a value with document id `0` or `u32::MAX` (`rangeBounds`), and keeps the documents of
the keys whose value compares as asked (`rangeVisit`). `sort_order` scans the whole field and
numbers its distinct values in key order (`sortVisit`). The store's scan is `Store::iterate` of
the RocksDB backend: from the first key at or after the start, up to a key past the end or a
callback that answers `false` (`iterate`).

## What is proved

**The scan law** (`rangeToBitmap_spec`): over any store, `range_to_bitmap` keeps exactly the
matching keys of the field between its two bounds. **Exactness for fixed widths**
(`mem_rangeToBitmap_of_fixedWidth`): when every value of the field and the match value have one
length, every matching key lies between the bounds, so the documents returned are exactly those
whose value bytes compare as asked; for `Uint` values the byte order is the numeric order
(`matches_toBeBytes_iff`), so its scans are exact in the numbers' order
(`mem_rangeToBitmap_uint`).

Neither holds for every field. A negative `Int` is written as the bytes of a number
above every non-negative one, so it is found by no `<` with a non-negative match value and is
sorted after the positive values; and a text whose match value is a proper prefix of it is
skipped by the scan that starts at the match value followed by `u32::MAX`.
-/

set_option autoImplicit false

namespace Stalwart.Store.Search

open ByteOrder

/-! ## Keys -/

/-- `SearchIndex` of a stored document; the in-memory index writes no keys. -/
inductive SearchIndex where
  | email
  | calendar
  | contacts
  | file
  | tracing
  deriving DecidableEq, Repr

/-- `SearchIndex::as_u8`. -/
def SearchIndex.asU8 : SearchIndex → UInt8
  | .email => 0
  | .calendar => 1
  | .contacts => 2
  | .file => 3
  | .tracing => 4

/-- `SEARCH_INDEX_MAX_FIELD_LEN`. -/
def searchIndexMaxFieldLen : Nat := 128

/-- `u32::MAX`. -/
def u32Max : UInt32 := 4294967295

/-- The values of an indexed field; key-value maps are indexed as terms and have no key here. -/
inductive SearchValue where
  | text (value : List UInt8)
  | int (value : Int64)
  | uint (value : UInt64)
  | boolean (value : Bool)
  deriving DecidableEq, Repr

/-- The bytes a value is indexed with. `TermIndexBuilder` writes a document's value and the filter
evaluation writes the match value the same way: `(v as u64).to_be_bytes()` for an `Int`,
`to_be_bytes` for a `Uint`, the truncated UTF-8 bytes of a text and one byte for a boolean. -/
def SearchValue.indexData : SearchValue → List UInt8
  | .text value => value.take searchIndexMaxFieldLen
  | .int value => toBeBytes 8 value.toUInt64.toNat
  | .uint value => toBeBytes 8 value.toNat
  | .boolean value => [value.toUInt8]

/-- The class byte of an index key: `index.as_u8() | 1 << 6`. -/
def indexClass (index : SearchIndex) : UInt8 := index.asU8 ||| (1 : UInt8) <<< 6

/-- The prefix `range_to_bitmap` keeps the scan in: class byte, account id and field id. -/
def indexPrefix (index : SearchIndex) (accountId : UInt32) (fieldId : UInt8) : List UInt8 :=
  indexClass index :: toBeBytes 4 accountId.toNat ++ [fieldId]

/-- `ValueClass::serialize` of the `SearchIndexType::Index` key of an account's document. -/
def indexKey (index : SearchIndex) (accountId : UInt32) (fieldId : UInt8) (data : List UInt8)
    (documentId : UInt32) : List UInt8 :=
  indexClass index :: toBeBytes 4 accountId.toNat ++ [fieldId] ++ data ++
    toBeBytes 4 documentId.toNat

theorem indexKey_eq (index : SearchIndex) (accountId : UInt32) (fieldId : UInt8)
    (data : List UInt8) (documentId : UInt32) :
    indexKey index accountId fieldId data documentId =
      indexPrefix index accountId fieldId ++ data ++ toBeBytes 4 documentId.toNat := by
  simp [indexKey, indexPrefix]

@[simp] theorem length_indexPrefix (index : SearchIndex) (accountId : UInt32) (fieldId : UInt8) :
    (indexPrefix index accountId fieldId).length = 6 := by
  simp [indexPrefix]

/-! ## The store's scan -/

/-- The keys of the search-index subspace, in the order the store keeps them. -/
structure KeySpace where
  keys : List (List UInt8)
  sorted : keys.Pairwise (· < ·)

/-- The errors of a scan: `trc::Error::corrupted_key`. -/
inductive StoreError where
  | corruptedKey (key : List UInt8)
  deriving DecidableEq, Repr

/-- The loop of `Store::iterate`, ascending and without values: each key goes to the callback in
turn, until a key outside the bounds or a callback that answers `false`. -/
def iterateLoop {σ : Type} (begin «end» : List UInt8)
    (cb : σ → List UInt8 → Except StoreError (Bool × σ)) :
    List (List UInt8) → σ → Except StoreError σ
  | [], state => .ok state
  | key :: keys, state =>
    if key < begin ∨ «end» < key then .ok state
    else
      match cb state key with
      | .error e => .error e
      | .ok (true, state) => iterateLoop begin «end» cb keys state
      | .ok (false, state) => .ok state

/-- `Store::iterate`: the iterator starts at the first key at or after `begin`. -/
def iterate {σ : Type} (space : KeySpace) (begin «end» : List UInt8)
    (cb : σ → List UInt8 → Except StoreError (Bool × σ)) (state : σ) : Except StoreError σ :=
  iterateLoop begin «end» cb (space.keys.dropWhile fun key => decide (key < begin)) state

/-! ## `range_to_bitmap` -/

/-- `SearchOperator`. -/
inductive SearchOperator where
  | lowerThan
  | lowerEqualThan
  | greaterThan
  | greaterEqualThan
  | equal
  | contains
  deriving DecidableEq, Repr

/-- How `range_to_bitmap` compares a key's value with the match value. -/
def SearchOperator.matches : SearchOperator → List UInt8 → List UInt8 → Bool
  | .lowerThan, value, matchValue => decide (value < matchValue)
  | .lowerEqualThan, value, matchValue => decide (value ≤ matchValue)
  | .greaterThan, value, matchValue => decide (matchValue < value)
  | .greaterEqualThan, value, matchValue => decide (matchValue ≤ value)
  | .equal, value, matchValue => value == matchValue
  | .contains, value, matchValue => value == matchValue

/-- The first and the last key of the scan: the match value or no value, with document id `0` or
`u32::MAX`; the scans above the match value end at the next field. -/
def rangeBounds (index : SearchIndex) (accountId : UInt32) (fieldId : UInt8)
    (matchValue : List UInt8) : SearchOperator → List UInt8 × List UInt8
  | .lowerThan =>
    (indexKey index accountId fieldId [] 0, indexKey index accountId fieldId matchValue 0)
  | .lowerEqualThan =>
    (indexKey index accountId fieldId [] 0, indexKey index accountId fieldId matchValue u32Max)
  | .greaterThan =>
    (indexKey index accountId fieldId matchValue u32Max,
      indexKey index accountId (fieldId + 1) [] u32Max)
  | .greaterEqualThan =>
    (indexKey index accountId fieldId matchValue 0,
      indexKey index accountId (fieldId + 1) [] u32Max)
  | .equal | .contains =>
    (indexKey index accountId fieldId matchValue 0,
      indexKey index accountId fieldId matchValue u32Max)

/-- The value of a key between a prefix of `prefixLen` bytes and the document id:
`key.get(prefix_len..key.len() - U32_LEN)`. -/
def keyValue (prefixLen : Nat) (key : List UInt8) : List UInt8 :=
  (key.take (key.length - 4)).drop prefixLen

/-- The document id at the end of a key: `deserialize_be_u32(key.len() - U32_LEN)`. -/
def keyDocumentId (key : List UInt8) : UInt32 :=
  UInt32.ofNat (fromBeBytes (key.drop (key.length - 4)))

/-- The callback of `range_to_bitmap`: a key outside the prefix ends the scan, a key too short for
a value is corrupted, and a key whose value compares as asked adds its document. -/
def rangeVisit (pfx matchValue : List UInt8) (op : SearchOperator) (bm : Finset UInt32)
    (key : List UInt8) : Except StoreError (Bool × Finset UInt32) :=
  if !pfx.isPrefixOf key then .ok (false, bm)
  else if key.length - 4 < pfx.length then .error (.corruptedKey key)
  else if op.matches (keyValue pfx.length key) matchValue then
    .ok (true, insert (keyDocumentId key) bm)
  else .ok (true, bm)

/-- `range_to_bitmap`; `none` is the empty bitmap. -/
def rangeToBitmap (space : KeySpace) (index : SearchIndex) (accountId : UInt32) (fieldId : UInt8)
    (matchValue : List UInt8) (op : SearchOperator) :
    Except StoreError (Option (Finset UInt32)) :=
  let (begin, «end») := rangeBounds index accountId fieldId matchValue op
  (iterate space begin «end» (rangeVisit (indexPrefix index accountId fieldId) matchValue op)
    ∅).map fun bm => if bm.Nonempty then some bm else none

/-! ## `sort_order` -/

/-- The state of the `sort_order` scan: the last value seen, the positions given so far (the
latest first, as a map's `insert` overwrites) and the current position. -/
structure SortState where
  lastValue : List UInt8 := []
  results : List (UInt32 × Nat) := []
  pos : Nat := 0
  deriving DecidableEq, Repr

/-- The callback of `sort_order`: a key with a new value opens the next position, and its
document takes the current one. -/
def sortVisit (state : SortState) (key : List UInt8) : Except StoreError (Bool × SortState) :=
  if key.length - 4 < 6 then .error (.corruptedKey key)
  else
    let value := keyValue 6 key
    let state := if value != state.lastValue then
      { state with pos := state.pos + 1, lastValue := value } else state
    .ok (true, { state with results := (keyDocumentId key, state.pos) :: state.results })

/-- `sort_order`: the scan runs from the value `[0]` with document id `0` to
`SEARCH_INDEX_MAX_FIELD_LEN` bytes `0xFF` with `u32::MAX`. -/
def sortOrder (space : KeySpace) (index : SearchIndex) (accountId : UInt32) (fieldId : UInt8) :
    Except StoreError (List (UInt32 × Nat)) :=
  (iterate space (indexKey index accountId fieldId [0] 0)
    (indexKey index accountId fieldId (List.replicate searchIndexMaxFieldLen 255) u32Max)
    sortVisit {}).map SortState.results

/-! ## Reading a key back -/

section Keys

variable {index : SearchIndex} {accountId : UInt32} {fieldId : UInt8}

@[simp] theorem length_indexKey (data : List UInt8) (documentId : UInt32) :
    (indexKey index accountId fieldId data documentId).length = data.length + 10 := by
  rw [indexKey_eq]
  simp only [List.length_append, length_indexPrefix, length_toBeBytes]
  omega

theorem prefix_indexKey (data : List UInt8) (documentId : UInt32) :
    indexPrefix index accountId fieldId <+: indexKey index accountId fieldId data documentId := by
  rw [indexKey_eq, List.append_assoc]
  exact List.prefix_append _ _

@[simp] theorem keyValue_indexKey (data : List UInt8) (documentId : UInt32) :
    keyValue 6 (indexKey index accountId fieldId data documentId) = data := by
  have hlen : (indexPrefix index accountId fieldId ++ data).length =
      (indexKey index accountId fieldId data documentId).length - 4 := by
    simp only [List.length_append, length_indexPrefix, length_indexKey]
    omega
  rw [keyValue, ← hlen, indexKey_eq, List.take_left, ← length_indexPrefix index accountId fieldId,
    List.drop_left]

@[simp] theorem keyDocumentId_indexKey (data : List UInt8) (documentId : UInt32) :
    keyDocumentId (indexKey index accountId fieldId data documentId) = documentId := by
  have hlen : (indexPrefix index accountId fieldId ++ data).length =
      (indexKey index accountId fieldId data documentId).length - 4 := by
    simp only [List.length_append, length_indexPrefix, length_indexKey]
    omega
  rw [keyDocumentId, ← hlen, indexKey_eq, List.drop_left, fromBeBytes_toBeBytes,
    Nat.mod_eq_of_lt (by simpa using documentId.toNat_lt_size), UInt32.ofNat_toNat]

end Keys

/-! ## The scan law -/

/-- What the callback of `range_to_bitmap` does to the bitmap with a key of the field. -/
def insertMatch (prefixLen : Nat) (matchValue : List UInt8) (op : SearchOperator)
    (bm : Finset UInt32) (key : List UInt8) : Finset UInt32 :=
  if op.matches (keyValue prefixLen key) matchValue then insert (keyDocumentId key) bm else bm

section Scan

variable {pfx matchValue : List UInt8} {op : SearchOperator}

theorem rangeVisit_of_prefix {key : List UInt8} (hpfx : pfx <+: key)
    (hlen : pfx.length + 4 ≤ key.length) (bm : Finset UInt32) :
    rangeVisit pfx matchValue op bm key = .ok (true, insertMatch pfx.length matchValue op bm key) := by
  rw [rangeVisit, if_neg (by simpa using hpfx), if_neg (by omega), insertMatch]
  split <;> rfl

theorem rangeVisit_of_not_prefix {key : List UInt8} (hpfx : ¬ pfx <+: key) (bm : Finset UInt32) :
    rangeVisit pfx matchValue op bm key = .ok (false, bm) := by
  have hnot : pfx.isPrefixOf key = false :=
    Bool.eq_false_iff.mpr fun h => hpfx (List.isPrefixOf_iff_prefix.mp h)
  rw [rangeVisit, if_pos (by simp [hnot])]

theorem mem_foldl_insertMatch {prefixLen : Nat} (d : UInt32) :
    ∀ (keys : List (List UInt8)) (bm : Finset UInt32),
      d ∈ keys.foldl (insertMatch prefixLen matchValue op) bm ↔
        d ∈ bm ∨ ∃ key ∈ keys, op.matches (keyValue prefixLen key) matchValue ∧
          keyDocumentId key = d
  | [], bm => by simp
  | key :: keys, bm => by
    rw [List.foldl_cons, mem_foldl_insertMatch d keys]
    simp only [List.mem_cons, or_and_right, exists_or, exists_eq_left]
    by_cases hm : op.matches (keyValue prefixLen key) matchValue = true
    · simp only [insertMatch, hm, if_true, Finset.mem_insert, true_and, @eq_comm _ d]
      tauto
    · simp [insertMatch, hm]

/-- **One scan of the loop.** Over keys in ascending order from the start of the scan, the loop
keeps the bitmap step of every key of the prefix up to the end: a key past the end ends the
scan with every key after it, and a key outside the prefix does too, since the keys after it
that are not past the end lie between it and the start and would have the prefix. -/
theorem iterateLoop_rangeVisit {begin «end» : List UInt8} (hbegin : pfx <+: begin) :
    ∀ {keys : List (List UInt8)}, keys.Pairwise (· < ·) → (∀ key ∈ keys, begin ≤ key) →
      (∀ key ∈ keys, pfx <+: key → pfx.length + 4 ≤ key.length) → ∀ bm : Finset UInt32,
      iterateLoop begin «end» (rangeVisit pfx matchValue op) keys bm =
        .ok ((keys.filter fun key => decide (key ≤ «end») && pfx.isPrefixOf key).foldl
          (insertMatch pfx.length matchValue op) bm)
  | [], _, _, _, bm => rfl
  | key :: keys, hsorted, hge, hlen, bm => by
    obtain ⟨hhead, hsorted⟩ := List.pairwise_cons.mp hsorted
    have hbegin_key : ¬ key < begin := hge key List.mem_cons_self
    -- nothing after a key that stops the scan is kept
    have hrest_nil (hstop : «end» < key ∨ ¬ pfx <+: key) :
        keys.filter (fun key => decide (key ≤ «end») && pfx.isPrefixOf key) = [] := by
      rw [List.filter_eq_nil_iff]
      intro k hk
      have hlt : key < k := hhead k hk
      simp only [Bool.and_eq_true, decide_eq_true_eq, List.isPrefixOf_iff_prefix, not_and]
      intro hk_end hk_pfx
      rcases hstop with hend | hpfx
      · exact hk_end (List.lt_trans hend hlt)
      · obtain ⟨s, rfl⟩ := hbegin
        obtain ⟨t, rfl⟩ := hk_pfx
        exact hpfx (List.prefix_of_le_of_le hbegin_key (List.le_of_lt hlt))
    by_cases hend : «end» < key
    · rw [iterateLoop, if_pos (.inr hend), List.filter_cons_of_neg (by simp [hend]),
        hrest_nil (.inl hend)]
      rfl
    by_cases hpfx : pfx <+: key
    · rw [iterateLoop, if_neg (by tauto), rangeVisit_of_prefix hpfx (hlen key List.mem_cons_self hpfx)]
      dsimp only
      rw [iterateLoop_rangeVisit hbegin hsorted (fun k hk => hge k (List.mem_cons_of_mem _ hk))
        (fun k hk => hlen k (List.mem_cons_of_mem _ hk)),
        List.filter_cons_of_pos (by simpa [List.isPrefixOf_iff_prefix] using ⟨hend, hpfx⟩),
        List.foldl_cons]
    · rw [iterateLoop, if_neg (by tauto), rangeVisit_of_not_prefix hpfx,
        List.filter_cons_of_neg (by simp [List.isPrefixOf_iff_prefix, hpfx]), hrest_nil (.inr hpfx)]
      rfl

theorem prefix_rangeBounds (index : SearchIndex) (accountId : UInt32) (fieldId : UInt8)
    (matchValue : List UInt8) :
    ∀ op, indexPrefix index accountId fieldId <+: (rangeBounds index accountId fieldId matchValue op).1
  | .lowerThan | .lowerEqualThan | .greaterThan | .greaterEqualThan | .equal | .contains =>
    prefix_indexKey _ _

theorem getD_nonempty (bm : Finset UInt32) :
    (if bm.Nonempty then some bm else none).getD ∅ = bm := by
  split
  · rfl
  · simp_all [Finset.not_nonempty_iff_eq_empty]

/-- **The scan law.** Over any store whose keys under the prefix hold a value and a document id,
`range_to_bitmap` returns the documents of the keys of the field between its two bounds whose
value compares as asked. -/
theorem rangeToBitmap_spec (space : KeySpace) (index : SearchIndex) (accountId : UInt32)
    (fieldId : UInt8) (matchValue : List UInt8) (op : SearchOperator)
    (hlen : ∀ key ∈ space.keys, indexPrefix index accountId fieldId <+: key → 10 ≤ key.length) :
    ∃ bm, rangeToBitmap space index accountId fieldId matchValue op = .ok bm ∧
      ∀ d, d ∈ bm.getD ∅ ↔ ∃ key ∈ space.keys,
        (rangeBounds index accountId fieldId matchValue op).1 ≤ key ∧
        key ≤ (rangeBounds index accountId fieldId matchValue op).2 ∧
        indexPrefix index accountId fieldId <+: key ∧
        op.matches (keyValue 6 key) matchValue ∧ keyDocumentId key = d := by
  have hbegin := prefix_rangeBounds index accountId fieldId matchValue op
  unfold rangeToBitmap
  generalize rangeBounds index accountId fieldId matchValue op = bounds at hbegin ⊢
  obtain ⟨begin, «end»⟩ := bounds
  dsimp only at hbegin ⊢
  -- the loop runs over the keys from the start of the scan on, which are sorted and long enough
  have hsub : List.Sublist (space.keys.dropWhile fun key => decide (key < begin)) space.keys :=
    (List.dropWhile_suffix _).sublist
  have hloop : iterate space begin «end» (rangeVisit (indexPrefix index accountId fieldId)
      matchValue op) ∅ = .ok (((space.keys.dropWhile fun key => decide (key < begin)).filter
        fun key => decide (key ≤ «end») && (indexPrefix index accountId fieldId).isPrefixOf key).foldl
          (insertMatch (indexPrefix index accountId fieldId).length matchValue op) ∅) :=
    iterateLoop_rangeVisit hbegin (space.sorted.sublist hsub)
      (List.le_of_mem_dropWhile_lt space.sorted)
      (fun key hkey hpfx => by simpa using hlen key (hsub.subset hkey) hpfx) ∅
  rw [hloop]
  refine ⟨_, rfl, fun d => ?_⟩
  rw [getD_nonempty, List.filter_dropWhile_lt _ space.sorted, length_indexPrefix,
    mem_foldl_insertMatch]
  simp [List.isPrefixOf_iff_prefix, and_assoc]

end Scan

/-! ## Scans of values of one width -/

/-- The keys a store holds under one account and field are those of the documents' values. -/
structure Indexes (space : KeySpace) (index : SearchIndex) (accountId : UInt32) (fieldId : UInt8)
    (docs : List (UInt32 × SearchValue)) : Prop where
  mem_keys : ∀ doc ∈ docs, indexKey index accountId fieldId doc.2.indexData doc.1 ∈ space.keys
  of_prefix : ∀ key ∈ space.keys, indexPrefix index accountId fieldId <+: key →
    ∃ doc ∈ docs, key = indexKey index accountId fieldId doc.2.indexData doc.1

section Bounds

variable {index : SearchIndex} {accountId : UInt32}

theorem zeros_le {l : List UInt8} (h : 4 ≤ l.length) : toBeBytes 4 (0 : UInt32).toNat ≤ l := by
  have hzeros : toBeBytes 4 (0 : UInt32).toNat = List.replicate 4 0 := by decide
  rw [hzeros]
  exact List.replicate_le_of_length_le (fun x => by simp [UInt8.lt_iff_toNat_lt]) h

theorem le_ones {l : List UInt8} (h : l.length ≤ 4) : l ≤ toBeBytes 4 u32Max.toNat := by
  have hones : toBeBytes 4 u32Max.toNat = List.replicate 4 255 := by decide
  rw [hones]
  refine List.le_replicate_of_length_le (fun x => ?_) h
  have := x.toNat_lt
  simp only [UInt8.lt_iff_toNat_lt, UInt8.reduceToNat]
  omega

theorem lt_add_one_of_ne {fieldId : UInt8} (hfield : fieldId ≠ 255) : fieldId < fieldId + 1 := by
  have hne : fieldId.toNat ≠ 255 := fun h => hfield (UInt8.toNat_inj.mp h)
  have := fieldId.toNat_lt
  rw [UInt8.lt_iff_toNat_lt, UInt8.toNat_add]
  simp only [UInt8.reduceToNat, Nat.reducePow]
  omega

/-- Keys of one field whose values have one length compare as the values. -/
theorem indexKey_lt_of_lt {fieldId : UInt8} {data data' : List UInt8}
    (hlen : data.length = data'.length) (h : data < data') (documentId documentId' : UInt32) :
    indexKey index accountId fieldId data documentId <
      indexKey index accountId fieldId data' documentId' := by
  rw [indexKey_eq, indexKey_eq, List.append_assoc, List.append_assoc]
  exact List.append_left_lt (List.append_lt_append_of_lt hlen h)

theorem indexKey_zero_le {fieldId : UInt8} (data : List UInt8) (documentId : UInt32) :
    indexKey index accountId fieldId data 0 ≤ indexKey index accountId fieldId data documentId := by
  rw [indexKey_eq, indexKey_eq]
  exact List.append_left_le (zeros_le (by simp))

theorem indexKey_le_max {fieldId : UInt8} (data : List UInt8) (documentId : UInt32) :
    indexKey index accountId fieldId data documentId ≤
      indexKey index accountId fieldId data u32Max := by
  rw [indexKey_eq, indexKey_eq]
  exact List.append_left_le (le_ones (by simp))

theorem indexKey_nil_le {fieldId : UInt8} (data : List UInt8) (documentId : UInt32) :
    indexKey index accountId fieldId [] 0 ≤ indexKey index accountId fieldId data documentId := by
  rw [indexKey_eq, indexKey_eq, List.append_nil, List.append_assoc]
  exact List.append_left_le (zeros_le (by simp))

/-- The keys of a field come before those of the next field. -/
theorem indexKey_lt_next_field {fieldId : UInt8} (hfield : fieldId ≠ 255) (data data' : List UInt8)
    (documentId documentId' : UInt32) :
    indexKey index accountId fieldId data documentId <
      indexKey index accountId (fieldId + 1) data' documentId' := by
  rw [indexKey_eq, indexKey_eq, List.append_assoc, List.append_assoc]
  apply List.append_lt_append_of_lt (by simp)
  -- the prefixes differ in their last byte, the field id
  exact List.append_left_lt (singleton_lt_singleton.mpr (lt_add_one_of_ne hfield))

/-- **A matching key lies in the scan.** When a value and the match value have one length, the
key of the value lies between the two bounds of the scan of every operator it satisfies. -/
theorem mem_rangeBounds_of_matches {fieldId : UInt8} (hfield : fieldId ≠ 255)
    {data matchValue : List UInt8} (hlen : data.length = matchValue.length)
    (documentId : UInt32) : ∀ {op : SearchOperator}, op.matches data matchValue = true →
      (rangeBounds index accountId fieldId matchValue op).1 ≤
          indexKey index accountId fieldId data documentId ∧
        indexKey index accountId fieldId data documentId ≤
          (rangeBounds index accountId fieldId matchValue op).2
  | .lowerThan, h =>
    ⟨indexKey_nil_le _ _, List.le_of_lt (indexKey_lt_of_lt hlen (by simpa [SearchOperator.matches] using h) _ _)⟩
  | .lowerEqualThan, h => by
    rcases List.le_iff_lt_or_eq.mp (by simpa [SearchOperator.matches] using h) with hlt | rfl
    · exact ⟨indexKey_nil_le _ _, List.le_of_lt (indexKey_lt_of_lt hlen hlt _ _)⟩
    · exact ⟨indexKey_nil_le _ _, indexKey_le_max _ _⟩
  | .greaterThan, h =>
    ⟨List.le_of_lt (indexKey_lt_of_lt hlen.symm (by simpa [SearchOperator.matches] using h) _ _),
      List.le_of_lt (indexKey_lt_next_field hfield _ _ _ _)⟩
  | .greaterEqualThan, h => by
    rcases List.le_iff_lt_or_eq.mp (by simpa [SearchOperator.matches] using h) with hlt | rfl
    · exact ⟨List.le_of_lt (indexKey_lt_of_lt hlen.symm hlt _ _),
        List.le_of_lt (indexKey_lt_next_field hfield _ _ _ _)⟩
    · exact ⟨indexKey_zero_le _ _, List.le_of_lt (indexKey_lt_next_field hfield _ _ _ _)⟩
  | .equal, h | .contains, h => by
    obtain rfl : data = matchValue := by simpa [SearchOperator.matches] using h
    exact ⟨indexKey_zero_le _ _, indexKey_le_max _ _⟩

end Bounds

/-- **Exactness for fixed widths.** When every value of the field has the match value's length,
`range_to_bitmap` returns exactly the documents whose value bytes compare as asked. -/
theorem mem_rangeToBitmap_of_fixedWidth {space : KeySpace} {index : SearchIndex}
    {accountId : UInt32} {fieldId : UInt8} {docs : List (UInt32 × SearchValue)}
    (hdocs : Indexes space index accountId fieldId docs) {matchValue : List UInt8}
    (hwidth : ∀ doc ∈ docs, doc.2.indexData.length = matchValue.length) (hfield : fieldId ≠ 255)
    (op : SearchOperator) :
    ∃ bm, rangeToBitmap space index accountId fieldId matchValue op = .ok bm ∧
      ∀ d, d ∈ bm.getD ∅ ↔ ∃ doc ∈ docs, doc.1 = d ∧ op.matches doc.2.indexData matchValue := by
  have hlen : ∀ key ∈ space.keys, indexPrefix index accountId fieldId <+: key →
      10 ≤ key.length := by
    intro key hkey hpfx
    obtain ⟨doc, -, rfl⟩ := hdocs.of_prefix key hkey hpfx
    simp
  obtain ⟨bm, hbm, hmem⟩ := rangeToBitmap_spec space index accountId fieldId matchValue op hlen
  refine ⟨bm, hbm, fun d => (hmem d).trans ⟨?_, ?_⟩⟩
  · -- a key the scan keeps is a document's key, and reads back as its value and id
    rintro ⟨key, hkey, -, -, hpfx, hmatch, rfl⟩
    obtain ⟨doc, hdoc, rfl⟩ := hdocs.of_prefix key hkey hpfx
    exact ⟨doc, hdoc, by simp, by simpa using hmatch⟩
  · rintro ⟨doc, hdoc, rfl, hmatch⟩
    obtain ⟨hbegin, hend⟩ := mem_rangeBounds_of_matches hfield (hwidth doc hdoc) doc.1 hmatch
    exact ⟨_, hdocs.mem_keys doc hdoc, hbegin, hend, prefix_indexKey _ _, by simpa using hmatch,
      by simp⟩

/-! ## Numbers -/

/-- What an operator asks of a value and the match value, in the order of their type; `Contains`
on a value that is not a text is equality. -/
def SearchOperator.Holds {α : Type} [LT α] [LE α] : SearchOperator → α → α → Prop
  | .lowerThan, value, matchValue => value < matchValue
  | .lowerEqualThan, value, matchValue => value ≤ matchValue
  | .greaterThan, value, matchValue => matchValue < value
  | .greaterEqualThan, value, matchValue => matchValue ≤ value
  | .equal, value, matchValue => value = matchValue
  | .contains, value, matchValue => value = matchValue

theorem toBeBytes_lt_toBeBytes_iff_lt (a b : UInt64) :
    toBeBytes 8 a.toNat < toBeBytes 8 b.toNat ↔ a < b := by
  rw [toBeBytes_lt_toBeBytes_iff (a.toNat_lt_size.trans_eq rfl) (b.toNat_lt_size.trans_eq rfl),
    UInt64.lt_iff_toNat_lt]

/-- **Big-endian order is the numbers' order**, under every operator. -/
theorem matches_toBeBytes_iff (op : SearchOperator) (a b : UInt64) :
    op.matches (toBeBytes 8 a.toNat) (toBeBytes 8 b.toNat) = true ↔ op.Holds a b := by
  have heq : toBeBytes 8 a.toNat = toBeBytes 8 b.toNat ↔ a = b := by
    rw [toBeBytes_inj (a.toNat_lt_size.trans_eq rfl) (b.toNat_lt_size.trans_eq rfl),
      UInt64.toNat_inj]
  cases op <;>
    simp [SearchOperator.matches, SearchOperator.Holds, ← List.not_lt, ← UInt64.not_lt,
      toBeBytes_lt_toBeBytes_iff_lt, heq]

/-- Scans of a field whose values are all written as the eight big-endian bytes of a word are
exact in the order of the words. -/
theorem mem_rangeToBitmap_of_word {β : Type} {kind : β → SearchValue} {word : β → UInt64}
    (hdata : ∀ value, (kind value).indexData = toBeBytes 8 (word value).toNat)
    {space : KeySpace} {index : SearchIndex} {accountId : UInt32} {fieldId : UInt8}
    {docs : List (UInt32 × SearchValue)} (hdocs : Indexes space index accountId fieldId docs)
    (hkind : ∀ doc ∈ docs, ∃ value, doc.2 = kind value) (hfield : fieldId ≠ 255)
    (matchValue : β) (op : SearchOperator) :
    ∃ bm, rangeToBitmap space index accountId fieldId (kind matchValue).indexData op = .ok bm ∧
      ∀ d, d ∈ bm.getD ∅ ↔ ∃ value, (d, kind value) ∈ docs ∧
        op.Holds (word value) (word matchValue) := by
  have hwidth : ∀ doc ∈ docs, doc.2.indexData.length = (kind matchValue).indexData.length := by
    intro doc hdoc
    obtain ⟨value, hvalue⟩ := hkind doc hdoc
    simp [hvalue, hdata]
  obtain ⟨bm, hbm, hmem⟩ := mem_rangeToBitmap_of_fixedWidth hdocs hwidth hfield op
  refine ⟨bm, hbm, fun d => (hmem d).trans ⟨?_, ?_⟩⟩
  · rintro ⟨⟨d, v⟩, hdoc, rfl, hmatch⟩
    obtain ⟨value, rfl⟩ := hkind _ hdoc
    rw [hdata, hdata] at hmatch
    exact ⟨value, hdoc, (matches_toBeBytes_iff op _ _).mp hmatch⟩
  · rintro ⟨value, hdoc, hholds⟩
    refine ⟨_, hdoc, rfl, ?_⟩
    rw [hdata, hdata]
    exact (matches_toBeBytes_iff op _ _).mpr hholds

/-- Scans of `Uint` values are exact in the numbers' order. -/
theorem mem_rangeToBitmap_uint {space : KeySpace} {index : SearchIndex} {accountId : UInt32}
    {fieldId : UInt8} {docs : List (UInt32 × SearchValue)}
    (hdocs : Indexes space index accountId fieldId docs)
    (huint : ∀ doc ∈ docs, ∃ value, doc.2 = .uint value) (hfield : fieldId ≠ 255)
    (matchValue : UInt64) (op : SearchOperator) :
    ∃ bm, rangeToBitmap space index accountId fieldId (SearchValue.uint matchValue).indexData op =
        .ok bm ∧
      ∀ d, d ∈ bm.getD ∅ ↔ ∃ value, (d, SearchValue.uint value) ∈ docs ∧ op.Holds value matchValue :=
  mem_rangeToBitmap_of_word
    (show ∀ value : UInt64, (SearchValue.uint value).indexData = toBeBytes 8 (id value).toNat from
      fun _ => rfl) hdocs huint hfield matchValue op

/-! ## Negative integers and text prefixes -/

/-- Two documents of an `Int` field: document 1 holds `-1` and document 2 holds `5`. -/
def signedDocs : List (UInt32 × SearchValue) := [(1, .int (-1)), (2, .int 5)]

/-- The keys of `signedDocs` in the email index of account 1, field 10. The key of `5` comes
first: `-1` is written as the bytes of `u64::MAX`. -/
def signedSpace : KeySpace :=
  ⟨[indexKey .email 1 10 (SearchValue.int 5).indexData 2,
    indexKey .email 1 10 (SearchValue.int (-1)).indexData 1], by decide⟩

/-- One document of a text field, holding `"ab"`. -/
def prefixDocs : List (UInt32 × SearchValue) := [(1, .text [97, 98])]

/-- The key of `prefixDocs` in the email index of account 1, field 7. -/
def prefixSpace : KeySpace :=
  ⟨[indexKey .email 1 7 (SearchValue.text [97, 98]).indexData 1], by decide⟩

theorem search_index_order_exact_only_for_unsigned :
    (∀ (space : KeySpace) (index : SearchIndex) (accountId : UInt32) (fieldId : UInt8)
        (docs : List (UInt32 × SearchValue)), Indexes space index accountId fieldId docs →
      (∀ doc ∈ docs, ∃ value, doc.2 = .uint value) → fieldId ≠ 255 →
      ∀ (matchValue : UInt64) (op : SearchOperator),
        ∃ bm, rangeToBitmap space index accountId fieldId (SearchValue.uint matchValue).indexData
            op = .ok bm ∧
          ∀ d, d ∈ bm.getD ∅ ↔
            ∃ value, (d, SearchValue.uint value) ∈ docs ∧ op.Holds value matchValue) ∧
    Indexes signedSpace .email 1 10 signedDocs ∧ (-1 : Int64) < 0 ∧
    rangeToBitmap signedSpace .email 1 10 (SearchValue.int 0).indexData .lowerThan = .ok none ∧
    (-1 : Int64) < 5 ∧ sortOrder signedSpace .email 1 10 = .ok [(1, 2), (2, 1)] ∧
    Indexes prefixSpace .email 1 7 prefixDocs ∧ ([97] : List UInt8) < [97, 98] ∧
    rangeToBitmap prefixSpace .email 1 7 (SearchValue.text [97]).indexData .greaterThan =
      .ok none :=
  ⟨fun _ _ _ _ _ hdocs huint hfield matchValue op =>
      mem_rangeToBitmap_uint hdocs huint hfield matchValue op,
    ⟨by decide, by decide⟩, by decide, by decide, by decide, by decide, ⟨by decide, by decide⟩,
    by decide, by decide⟩

end Stalwart.Store.Search
