import Mathlib.Data.List.Basic

/-!
# The window of a JMAP `/query` response

A JMAP query answers with a window of its sorted results. `QueryResponseBuilder` finds the window
online: the results are fed to it one at a time, in order, until it says it has enough
(`add_id` returns `false`), and `build` then trims the window and reports its position. The request
places the window by a position (counted from the end when negative), or by an anchor result and
an offset from it, and bounds it by a limit, capped by the server's `max_results`. A limit of 0 is
the builder's "no limit".

## What is proved

A limit of 0 bounds the window by nothing, not even `max_results`, and with an anchor and an
offset `≥ 0` the position reported is the requested one, whatever the index of the anchor: on
three results with `max_results = 1`, the anchor `2` and a limit of 0 the query answers two ids
at position 0 (`query_anchor_limit_zero`).
-/

namespace Stalwart.Jmap

/-- The paging part of a query request (`QueryRequest`): position, anchor (its document id),
anchor offset, limit, and whether to count the results. -/
structure QueryRequest where
  position : Option Int
  anchor : Option UInt32
  anchorOffset : Option Int
  limit : Option Nat
  calculateTotal : Option Bool
  deriving DecidableEq, Repr

/-- The paging part of a query response (`QueryResponse`). -/
structure QueryResponse where
  position : Int
  ids : List UInt32
  total : Option Nat
  limit : Option Nat
  deriving DecidableEq, Repr

/-- The error a query answers when its anchor is not among the results. -/
inductive QueryError where
  | anchorNotFound
  deriving DecidableEq, Repr

/-- `QueryResponseBuilder`: the state of the window search. -/
structure QueryResponseBuilder where
  requestedPosition : Int
  position : Int
  limit : Nat
  anchor : UInt32
  anchorOffset : Int
  hasAnchor : Bool
  anchorFound : Bool
  response : QueryResponse
  deriving DecidableEq, Repr

/-- `QueryResponseBuilder::new`: the limit is the requested one capped by `max_results` and by
the number of results, or 0 when the request asks for 0; without a requested limit, `max_results`
capped by the number of results. -/
def QueryResponseBuilder.new (totalResults maxResults : Nat) (request : QueryRequest) :
    QueryResponseBuilder :=
  let (limitTotal, limit) : Nat × Nat := match request.limit with
    | some limit =>
      if limit > 0 then (min (min limit maxResults) totalResults, min limit maxResults) else (0, 0)
    | none => (min maxResults totalResults, maxResults)
  let (hasAnchor, anchor) := (request.anchor.map fun anchor => (true, anchor)).getD (false, 0)
  { requestedPosition := request.position.getD 0
    position := request.position.getD 0
    limit := limitTotal
    anchor, hasAnchor
    anchorOffset := request.anchorOffset.getD 0
    anchorFound := false
    response :=
      { position := 0, ids := []
        total := if request.calculateTotal.getD false then some totalResults else none
        limit := if totalResults > limit then some limit else none } }

/-- Adds an id to the window. -/
def QueryResponseBuilder.push (builder : QueryResponseBuilder) (id : UInt32) :
    QueryResponseBuilder :=
  { builder with response := { builder.response with ids := builder.response.ids ++ [id] } }

/-- `add_id`: takes the next result; `false` when the window is complete. -/
def QueryResponseBuilder.addId (builder : QueryResponseBuilder) (id : UInt32) :
    Bool × QueryResponseBuilder :=
  if !builder.hasAnchor then
    if builder.position ≥ 0 then
      if builder.position > 0 then (true, { builder with position := builder.position - 1 })
      else
        let builder := builder.push id
        (builder.response.ids.length != builder.limit, builder)
    else (true, builder.push id)
  else if builder.anchorOffset ≥ 0 then
    if !builder.anchorFound && id != builder.anchor then (true, builder)
    else
      let builder := { builder with anchorFound := true }
      if builder.anchorOffset > 0 then
        (true, { builder with anchorOffset := builder.anchorOffset - 1 })
      else
        let builder := builder.push id
        (builder.response.ids.length != builder.limit, builder)
  else
    let builder := { builder.push id with anchorFound := id == builder.anchor }
    if id == builder.anchor then (false, { builder with position := builder.anchorOffset })
    else (true, builder)

/-- The caller's loop: feeds the results in order until `add_id` returns `false`. -/
def QueryResponseBuilder.feed (builder : QueryResponseBuilder) : List UInt32 → QueryResponseBuilder
  | [] => builder
  | id :: rest =>
    match builder.addId id with
    | (true, builder) => builder.feed rest
    | (false, builder) => builder

/-- `build`: reports the position; a window collected from a negative position or offset is trimmed
to its last results first. -/
def QueryResponseBuilder.build (builder : QueryResponseBuilder) :
    Except QueryError QueryResponse :=
  if !builder.hasAnchor || builder.anchorFound then
    if !builder.hasAnchor && builder.requestedPosition ≥ 0 then
      .ok { builder.response with
        position := if builder.position = 0 then builder.requestedPosition else 0 }
    else if builder.position ≥ 0 then .ok { builder.response with position := builder.position }
    else
      let ids := builder.response.ids
      let position := builder.position.natAbs
      let startOffset := if position < ids.length then ids.length - position else 0
      let endOffset := if builder.limit > 0 then min (startOffset + builder.limit) ids.length
        else ids.length
      .ok { builder.response with
        position := startOffset, ids := (ids.drop startOffset).take (endOffset - startOffset) }
  else .error .anchorNotFound

/-- A query over sorted results: the builder fed with them, then built. -/
def query (results : List UInt32) (maxResults : Nat) (request : QueryRequest) :
    Except QueryError QueryResponse :=
  ((QueryResponseBuilder.new results.length maxResults request).feed results).build

/-- An anchored request with a limit of 0. -/
def anchoredUnlimited : QueryRequest := ⟨none, some 2, none, some 0, none⟩

theorem query_anchor_limit_zero :
    query [1, 2, 3] 1 anchoredUnlimited = .ok ⟨0, [2, 3], none, some 0⟩ ∧
      [1, 2, 3].idxOf (2 : UInt32) = 1 := by
  decide

end Stalwart.Jmap
