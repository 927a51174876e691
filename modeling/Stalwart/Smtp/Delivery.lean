import Stalwart.Smtp.QueueQuota

/-!
# Scheduling in the outbound queue (`deliver_task`, `send_dsn`, `next_events`)

Each recipient of a queued message has a retry schedule, a delay-notification schedule, an
expiry, a virtual queue and a status. The worker of queue `q` runs `deliver_task` on the
message. It first marks as failed the recipients that have expired (`has_pending_delivery`),
and sends the delivery status notifications that are due (`send_dsn`). Then it removes the
message when no recipient is left. It goes on to deliver when a recipient of `q` is due for a
retry, and writes the message back otherwise (`save_changes`). Writing the message back stores
one queue event per virtual queue. The event is due at the earliest retry, notification or
expiry of the queue's pending recipients (`next_events`).

`send_dsn` advances a due notification in two places only. `handle_double_bounce` does it for a
message with an empty return path. `build_dsn` does it after the early return it takes when no
notification text was produced, and only when some recipient produced delay text.

## What is proved

* `deliverTask_event_le_now`: an event at or before `now` that `deliver_task` writes back for
  `q` comes from a pending recipient of `q` whose notification is due. The retries and expiries
  of the recipients left are all after `now`.
* `sendDsn_notify_after` and `deliverTask_events_after`: `send_dsn` moves every due notification
  past `now` when the return path is empty, or when some recipient produces delay text. Then
  every event written for `q` is after `now`.
* `deliver_task_requeues_due_event`: otherwise the queue does not always schedule in the future.
  Take a recipient whose notification is due but who asked for no delay notification
  (`NOTIFY=NEVER`). Its message is written back with an event before `now`.

The message bodies, the DSN texts and the delivery itself are not modelled: `build_dsn` is
modelled by the kind of text each recipient adds.
-/

set_option autoImplicit false

namespace Stalwart.Smtp.Delivery

/-- `u64::MAX`. -/
def u64Max : Nat := 2 ^ 64 - 1

/-- `Schedule<u32>`: a due time and the count of the attempts or notifications made. -/
structure Schedule where
  due : Nat
  inner : Nat
  deriving DecidableEq, Repr

/-- `QueueExpiry`: a time to live, or a number of attempts. -/
inductive QueueExpiry where
  | ttl (time : Nat)
  | attempts (count : Nat)
  deriving DecidableEq, Repr

/-- The bits of a recipient's `flags` the notification code reads: `RCPT_DSN_SENT`, and the DSN
`NOTIFY` parameter (`RCPT_NOTIFY_NEVER`, `_SUCCESS`, `_FAILURE`, `_DELAY`). -/
structure Flags where
  dsnSent : Bool
  notifyNever : Bool
  notifySuccess : Bool
  notifyFailure : Bool
  notifyDelay : Bool
  deriving DecidableEq, Repr

/-- A recipient, with the fields scheduling reads. -/
structure Recipient where
  retry : Schedule
  notify : Schedule
  expires : QueueExpiry
  queue : Nat
  status : Status
  flags : Flags
  deriving DecidableEq, Repr

/-- A queued message: its creation time, its return path and its recipients. -/
structure Message where
  created : Nat
  returnPath : String
  recipients : List Recipient
  deriving DecidableEq, Repr

/-- `Recipient::expiration_time`. -/
def Recipient.expirationTime (r : Recipient) (created : Nat) : Option Nat :=
  match r.expires with
  | .ttl time => some (created + time)
  | .attempts _ => none

/-- `Recipient::is_expired`. -/
def Recipient.isExpired (r : Recipient) (created now : Nat) : Bool :=
  match r.expires with
  | .ttl time => created + time ≤ now
  | .attempts count => count ≤ r.retry.inner

/-! ## `has_pending_delivery` -/

/-- `PendingDelivery`: whether any recipient has a delivery to make, and whether one of them is in
the worker's queue. -/
inductive PendingDelivery where
  | yes (matchesQueue : Bool)
  | no
  deriving DecidableEq, Repr

/-- The arms of `has_pending_delivery` on one recipient: an expired one that still had a delivery
to make becomes a permanent failure. -/
def Recipient.expire (created now : Nat) (r : Recipient) : Recipient :=
  if r.status.isPending && r.isExpired created now then { r with status := .permanentFailure }
  else r

/-- `MessageWrapper::has_pending_delivery`, for the worker of `queueName`. -/
def hasPendingDelivery (queueName now : Nat) (m : Message) : Message × PendingDelivery :=
  let recipients := m.recipients.map (Recipient.expire m.created now)
  let pending := recipients.filter (·.status.isPending)
  ({ m with recipients := recipients },
    if pending.isEmpty then .no else .yes (pending.any (·.queue == queueName)))

/-! ## `send_dsn` -/

/-- Which text a recipient adds to the notification `build_dsn` writes. -/
inductive DsnText where
  | none
  | success
  | delay
  | failure
  deriving DecidableEq, Repr

/-- The loop of `build_dsn` on one recipient: the flags it sets and the text it adds. -/
def Recipient.dsnEntry (now : Nat) (r : Recipient) : Recipient × DsnText :=
  if r.flags.dsnSent || r.flags.notifyNever then (r, .none)
  else match r.status with
    | .completed =>
      ({ r with flags := { r.flags with dsnSent := true } },
        if r.flags.notifySuccess then .success else .none)
    -- a temporary failure, and (the source says it should not happen) a scheduled recipient
    | .temporaryFailure | .scheduled =>
      (r, if r.notify.due ≤ now && r.flags.notifyDelay then .delay else .none)
    | .permanentFailure =>
      ({ r with flags := { r.flags with dsnSent := true } },
        if r.flags.notifyFailure then .failure else .none)

/-- The rescheduling of a due delay notification in `build_dsn`: the next interval of the
recipient's queue, or never once the intervals are used up. -/
def Recipient.nextNotify (now : Nat) (intervals : List Nat) (r : Recipient) : Recipient :=
  match intervals[r.notify.inner + 1]? with
  | some next => { r with notify := ⟨now + next, r.notify.inner + 1⟩ }
  | none => { r with notify := ⟨u64Max, r.notify.inner⟩ }

/-- `build_dsn`, without the text: the message after its loop and its rescheduling, and whether it
returns a notification. `notifyOf` gives the notification intervals of a recipient's queue. -/
def buildDsn (notifyOf : Recipient → List Nat) (now : Nat) (m : Message) : Message × Bool :=
  let entries := m.recipients.map (Recipient.dsnEntry now)
  let recipients := entries.map (·.1)
  if entries.all (·.2 == .none) then ({ m with recipients := recipients }, false)
  else
    let recipients :=
      if entries.any (·.2 == .delay) then
        recipients.map fun r =>
          if r.status.isPending && r.notify.due ≤ now then r.nextNotify now (notifyOf r) else r
      else recipients
    ({ m with recipients := recipients }, true)

/-- The loop of `handle_double_bounce` on one recipient. -/
def Recipient.doubleBounce (created now : Nat) (r : Recipient) : Recipient :=
  let r :=
    if !(r.flags.dsnSent || r.flags.notifyNever) && r.status == .permanentFailure then
      { r with flags := { r.flags with dsnSent := true } }
    else r
  if r.notify.due ≤ now then
    { r with notify := { r.notify with due := ((r.expirationTime created).map (· + 10)).getD u64Max } }
  else r

/-- `handle_double_bounce`: a message with no return path cannot be notified about. -/
def handleDoubleBounce (now : Nat) (m : Message) : Message :=
  { m with recipients := m.recipients.map (Recipient.doubleBounce m.created now) }

/-- `send_dsn`, on the message it is given (the notification it queues is a new message). -/
def sendDsn (notifyOf : Recipient → List Nat) (now : Nat) (m : Message) : Message :=
  if !m.returnPath.isEmpty then (buildDsn notifyOf now m).1 else handleDoubleBounce now m

/-! ## The events of a message -/

/-- The step of `next_delivery_event`'s loop: the earlier of the retries seen and this one. -/
def earlierRetry (next : Option Nat) (r : Recipient) : Option Nat :=
  some (match next with
    | some due => min due r.retry.due
    | none => r.retry.due)

/-- `Message::next_delivery_event(Some(queue))`: the earliest retry of the queue's pending
recipients. -/
def Message.nextDeliveryEvent (m : Message) (queue : Nat) : Option Nat :=
  (m.recipients.filter fun r => r.status.isPending && r.queue == queue).foldl earlierRetry none

/-- The earliest event of a recipient in `next_events`: its retry, its notification, or its
expiry. -/
def Recipient.earliestEvent (r : Recipient) (created : Nat) : Nat :=
  match r.expirationTime created with
  | some expires => min (min r.retry.due r.notify.due) expires
  | none => min r.retry.due r.notify.due

/-- The `entry` arms of `next_events`: a queue's event becomes the earlier of the two. -/
def recordEvent (events : List (Nat × Nat)) (queue due : Nat) : List (Nat × Nat) :=
  match events.lookup queue with
  | some current =>
    if due < current then events.map fun e => if e.1 == queue then (queue, due) else e else events
  | none => events ++ [(queue, due)]

/-- The step of `next_events`' loop: a pending recipient records its earliest event. -/
def recordRecipient (created : Nat) (events : List (Nat × Nat)) (r : Recipient) :
    List (Nat × Nat) :=
  if r.status.isPending then recordEvent events r.queue (r.earliestEvent created) else events

/-- `Message::next_events`: for each queue, the earliest event of its pending recipients. -/
def Message.nextEvents (m : Message) : List (Nat × Nat) :=
  m.recipients.foldl (recordRecipient m.created) []

/-! ## `deliver_task` -/

/-- What the worker does with the message. -/
inductive TaskOutcome where
  /-- `message.remove`: the message leaves the queue. -/
  | completed
  /-- `message.save_changes`: the message is written back, with its `next_events`. -/
  | deferred (message : Message)
  /-- On to routing and delivery. -/
  | deliver (message : Message)
  deriving DecidableEq, Repr

/-- A refusal of a sender throttle: the due recipients of the queue retry at `retryAt`. -/
def Recipient.throttle (queueName now retryAt : Nat) (r : Recipient) : Recipient :=
  if r.status.isPending && r.retry.due ≤ now && r.queue == queueName then
    { r with retry := { r.retry with due := retryAt }, status := .temporaryFailure }
  else r

/-- `deliver_task` up to the delivery, for the worker of `queueName` at time `now`. The sender
throttles answer `throttled = some retryAt` when one of them refuses with `Err(retry_at)`. -/
def deliverTask (queueName now : Nat) (notifyOf : Recipient → List Nat) (throttled : Option Nat)
    (m : Message) : TaskOutcome :=
  let checked := hasPendingDelivery queueName now m
  let m := sendDsn notifyOf now checked.1
  match checked.2 with
  | .yes true =>
    if (m.nextDeliveryEvent queueName).any (· ≤ now) then
      match throttled with
      | some retryAt =>
        .deferred { m with recipients := m.recipients.map (Recipient.throttle queueName now retryAt) }
      | none => .deliver m
    -- re-queued: not yet due for delivery
    else .deferred m
  | .no => .completed
  | .yes false => .deferred m

/-! ## What `send_dsn` leaves alone -/

/-- The fields the deliveries of a recipient are scheduled by: `send_dsn` leaves them alone. -/
def Recipient.plan (r : Recipient) : Status × Schedule × QueueExpiry × Nat :=
  (r.status, r.retry, r.expires, r.queue)

@[simp] theorem Recipient.plan_dsnEntry (now : Nat) (r : Recipient) :
    (r.dsnEntry now).1.plan = r.plan := by
  unfold Recipient.dsnEntry
  split
  · rfl
  · split <;> rfl

@[simp] theorem Recipient.plan_nextNotify (now : Nat) (intervals : List Nat) (r : Recipient) :
    (r.nextNotify now intervals).plan = r.plan := by
  unfold Recipient.nextNotify
  split <;> rfl

@[simp] theorem Recipient.plan_doubleBounce (created now : Nat) (r : Recipient) :
    (r.doubleBounce created now).plan = r.plan := by
  unfold Recipient.doubleBounce
  dsimp only
  split <;> split <;> rfl

theorem sendDsn_plan (notifyOf : Recipient → List Nat) (now : Nat) (m : Message) :
    (sendDsn notifyOf now m).recipients.map Recipient.plan = m.recipients.map Recipient.plan := by
  unfold sendDsn buildDsn handleDoubleBounce
  split
  · dsimp only
    split
    · simp [Function.comp_def]
    · split <;> simp [Function.comp_def, apply_ite]
  · simp [Function.comp_def]

theorem sendDsn_created (notifyOf : Recipient → List Nat) (now : Nat) (m : Message) :
    (sendDsn notifyOf now m).created = m.created := by
  unfold sendDsn buildDsn handleDoubleBounce
  split
  · dsimp only
    split
    · rfl
    · split <;> rfl
  · rfl

/-- A recipient after `send_dsn` is one of before, with the same plan. -/
theorem exists_plan_of_mem_sendDsn {notifyOf : Recipient → List Nat} {now : Nat} {m : Message}
    {r : Recipient} (hr : r ∈ (sendDsn notifyOf now m).recipients) :
    ∃ r₀ ∈ m.recipients, r₀.plan = r.plan := by
  have hmem : r.plan ∈ m.recipients.map Recipient.plan :=
    sendDsn_plan notifyOf now m ▸ List.mem_map_of_mem hr
  simpa using hmem

theorem Recipient.status_eq_of_plan {r r' : Recipient} (h : r.plan = r'.plan) :
    r.status = r'.status := (Prod.mk.inj h).1

theorem Recipient.queue_eq_of_plan {r r' : Recipient} (h : r.plan = r'.plan) :
    r.queue = r'.queue := (Prod.mk.inj (Prod.mk.inj (Prod.mk.inj h).2).2).2

theorem Recipient.expirationTime_eq_of_plan {r r' : Recipient} (h : r.plan = r'.plan)
    (created : Nat) : r.expirationTime created = r'.expirationTime created := by
  have hexp : r.expires = r'.expires := (Prod.mk.inj (Prod.mk.inj (Prod.mk.inj h).2).2).1
  simp only [Recipient.expirationTime, hexp]

/-! ## Expiry -/

theorem Recipient.unexpired_of_expire {created now : Nat} {r : Recipient}
    (h : (r.expire created now).status.isPending) :
    r.isExpired created now = false ∧ r.expire created now = r := by
  unfold Recipient.expire at h ⊢
  by_cases hc : (r.status.isPending && r.isExpired created now) = true
  · rw [if_pos hc] at h
    cases h
  · rw [if_neg hc] at h ⊢
    simp only [h, Bool.true_and] at hc
    exact ⟨by simpa using hc, rfl⟩

/-- An unexpired recipient's expiry is after `now`. -/
theorem Recipient.lt_of_expirationTime {created now e : Nat} {r : Recipient}
    (h : r.isExpired created now = false) (he : r.expirationTime created = some e) : now < e := by
  unfold Recipient.isExpired at h
  unfold Recipient.expirationTime at he
  cases hx : r.expires with
  | ttl time =>
    rw [hx] at h he
    simp only [decide_eq_false_iff_not, Nat.not_le] at h
    cases he
    exact h
  | attempts count =>
    rw [hx] at he
    cases he

/-- After `has_pending_delivery`, the pending recipients have not expired. -/
theorem hasPendingDelivery_unexpired (queueName now : Nat) (m : Message) {r : Recipient}
    (hr : r ∈ (hasPendingDelivery queueName now m).1.recipients) (hp : r.status.isPending) :
    ∀ e, r.expirationTime m.created = some e → now < e := by
  simp only [hasPendingDelivery, List.mem_map] at hr
  obtain ⟨r₀, -, rfl⟩ := hr
  obtain ⟨hexp, heq⟩ := Recipient.unexpired_of_expire hp
  rw [heq]
  exact fun e he => Recipient.lt_of_expirationTime hexp he

/-- `Yes(false)`: no pending recipient is in the worker's queue. -/
theorem hasPendingDelivery_not_matching {queueName now : Nat} {m : Message}
    (h : (hasPendingDelivery queueName now m).2 = .yes false) {r : Recipient}
    (hr : r ∈ (hasPendingDelivery queueName now m).1.recipients) (hp : r.status.isPending) :
    r.queue ≠ queueName := by
  intro hq
  simp only [hasPendingDelivery] at h hr
  split at h
  · cases h
  · simp only [PendingDelivery.yes.injEq, List.any_eq_false] at h
    exact h r (List.mem_filter.mpr ⟨hr, hp⟩) (by simp [hq])

/-! ## The events of a message -/

theorem foldl_earlierRetry_le_init (l : List Recipient) :
    ∀ (next : Option Nat) {a : Nat}, next = some a →
      ∃ d, l.foldl earlierRetry next = some d ∧ d ≤ a := by
  induction l with
  | nil => exact fun _ _ h => ⟨_, h, Nat.le_refl _⟩
  | cons r rest ih =>
    intro next a h
    obtain ⟨d, hd, hle⟩ := ih (earlierRetry next r) rfl
    refine ⟨d, hd, ?_⟩
    subst h
    simp only at hle
    omega

theorem foldl_earlierRetry_le_mem {l : List Recipient} {r : Recipient} (hr : r ∈ l) :
    ∀ {next : Option Nat}, ∃ d, l.foldl earlierRetry next = some d ∧ d ≤ r.retry.due := by
  induction l with
  | nil => cases hr
  | cons r' rest ih =>
    intro next
    rcases List.mem_cons.mp hr with rfl | hr
    · -- the recipient is read here: what follows only lowers the minimum
      obtain ⟨d, hd, hle⟩ := foldl_earlierRetry_le_init rest (earlierRetry next r) rfl
      refine ⟨d, hd, ?_⟩
      cases next <;> simp only at hle <;> omega
    · exact ih hr

/-- The earliest retry of a queue is at or before each of its pending recipients'. -/
theorem nextDeliveryEvent_le {m : Message} {queue : Nat} {r : Recipient} (hr : r ∈ m.recipients)
    (hp : r.status.isPending) (hq : r.queue = queue) :
    ∃ d, m.nextDeliveryEvent queue = some d ∧ d ≤ r.retry.due :=
  foldl_earlierRetry_le_mem (List.mem_filter.mpr ⟨hr, by simp [hp, hq]⟩)

theorem mem_recordEvent {events : List (Nat × Nat)} {queue due : Nat} {e : Nat × Nat}
    (h : e ∈ recordEvent events queue due) : e ∈ events ∨ e = (queue, due) := by
  unfold recordEvent at h
  split at h
  · split_ifs at h
    · obtain ⟨x, hx, rfl⟩ := List.mem_map.mp h
      by_cases hxq : (x.1 == queue) = true
      · exact .inr (if_pos hxq)
      · exact .inl (by rw [if_neg hxq]; exact hx)
    · exact .inl h
  · rcases List.mem_append.mp h with h | h
    · exact .inl h
    · exact .inr (List.mem_singleton.mp h)

theorem mem_foldl_recordRecipient (created : Nat) (l : List Recipient) :
    ∀ {events : List (Nat × Nat)} {e : Nat × Nat}, e ∈ l.foldl (recordRecipient created) events →
      e ∈ events ∨ ∃ r ∈ l, r.status.isPending ∧ (r.queue, r.earliestEvent created) = e := by
  induction l with
  | nil => exact fun h => .inl h
  | cons r rest ih =>
    intro events e h
    rcases ih h with h | ⟨r', hr', hp, he⟩
    · unfold recordRecipient at h
      split at h
      · rcases mem_recordEvent h with h | h
        · exact .inl h
        · exact .inr ⟨r, List.mem_cons_self, ‹_›, h.symm⟩
      · exact .inl h
    · exact .inr ⟨r', List.mem_cons_of_mem r hr', hp, he⟩

/-- Each event of `next_events` is the earliest event of a pending recipient of its queue. -/
theorem mem_nextEvents {m : Message} {queue due : Nat} (h : (queue, due) ∈ m.nextEvents) :
    ∃ r ∈ m.recipients, r.status.isPending ∧ r.queue = queue ∧ r.earliestEvent m.created = due := by
  rcases mem_foldl_recordRecipient m.created m.recipients h with h | ⟨r, hr, hp, he⟩
  · cases h
  · obtain ⟨hq, hd⟩ := Prod.mk.inj he
    exact ⟨r, hr, hp, hq, hd⟩

theorem Recipient.earliestEvent_le {r : Recipient} {created now : Nat}
    (h : r.earliestEvent created ≤ now) :
    r.retry.due ≤ now ∨ r.notify.due ≤ now ∨ ∃ e, r.expirationTime created = some e ∧ e ≤ now := by
  unfold Recipient.earliestEvent at h
  split at h
  · rename_i e he
    by_cases hle : e ≤ now
    · exact .inr (.inr ⟨e, he, hle⟩)
    · omega
  · omega

/-! ## What `deliver_task` writes back -/

section Deferred

variable {queueName now : Nat} {notifyOf : Recipient → List Nat} {throttled : Option Nat}
  {m m' : Message}

/-- The pending recipients after `send_dsn` have not expired. -/
theorem sendDsn_unexpired {r : Recipient}
    (hr : r ∈ (sendDsn notifyOf now (hasPendingDelivery queueName now m).1).recipients)
    (hp : r.status.isPending) : ∀ e, r.expirationTime m.created = some e → now < e := by
  obtain ⟨r₀, hr₀, hplan⟩ := exists_plan_of_mem_sendDsn hr
  rw [← Recipient.expirationTime_eq_of_plan hplan]
  exact hasPendingDelivery_unexpired queueName now m hr₀
    (by rw [Recipient.status_eq_of_plan hplan]; exact hp)

/-- A throttled recipient: one the throttle moved retries at `retryAt`, and the others are as they
were. -/
theorem Recipient.throttle_cases (queueName now retryAt : Nat) (r : Recipient) :
    (r.status.isPending ∧ r.retry.due ≤ now ∧ r.queue = queueName ∧
        (r.throttle queueName now retryAt).retry.due = retryAt ∧
        (r.throttle queueName now retryAt).status.isPending ∧
        (r.throttle queueName now retryAt).plan.2.2 = r.plan.2.2 ∧
        (r.throttle queueName now retryAt).notify = r.notify) ∨
      (¬ (r.status.isPending ∧ r.retry.due ≤ now ∧ r.queue = queueName) ∧
        r.throttle queueName now retryAt = r) := by
  unfold Recipient.throttle
  split
  · rename_i hc
    simp only [Bool.and_eq_true, decide_eq_true_eq, beq_iff_eq] at hc
    exact .inl ⟨hc.1.1, hc.1.2, hc.2, rfl, rfl, rfl, rfl⟩
  · rename_i hc
    simp only [Bool.and_eq_true, decide_eq_true_eq, beq_iff_eq] at hc
    exact .inr ⟨fun h => hc ⟨⟨h.1, h.2.1⟩, h.2.2⟩, rfl⟩

/-- **What a deferred message holds.** Each pending recipient of the message written back has
not expired, retries after `now` when it is in the worker's queue, and has the notification
schedule `send_dsn` left it. -/
theorem deliverTask_deferred_pending (hthrottle : ∀ t, throttled = some t → now < t)
    (h : deliverTask queueName now notifyOf throttled m = .deferred m') {r : Recipient}
    (hr : r ∈ m'.recipients) (hp : r.status.isPending) :
    (r.queue = queueName → now < r.retry.due) ∧ (∀ e, r.expirationTime m'.created = some e → now < e) ∧
      ∃ r₀ ∈ (sendDsn notifyOf now (hasPendingDelivery queueName now m).1).recipients,
        r₀.status.isPending ∧ r₀.notify = r.notify := by
  have hcreated : (sendDsn notifyOf now (hasPendingDelivery queueName now m).1).created =
      m.created := sendDsn_created notifyOf now _
  unfold deliverTask at h
  dsimp only at h
  rcases hpending : (hasPendingDelivery queueName now m).2 with ⟨_ | _⟩ | _
  · -- `Yes(false)`: no pending recipient in the worker's queue
    rw [hpending] at h
    cases h
    refine ⟨fun hq => ?_, by rw [hcreated]; exact sendDsn_unexpired hr hp, r, hr, hp, rfl⟩
    obtain ⟨r₀, hr₀, hplan⟩ := exists_plan_of_mem_sendDsn hr
    exact absurd (Recipient.queue_eq_of_plan hplan ▸ hq)
      (hasPendingDelivery_not_matching hpending hr₀
        (by rw [Recipient.status_eq_of_plan hplan]; exact hp))
  · rw [hpending] at h
    dsimp only at h
    split at h
    · -- due for delivery, but a sender throttle refused: the due recipients retry later
      cases hthr : throttled with
      | none => rw [hthr] at h; cases h
      | some retryAt =>
        rw [hthr] at h
        cases h
        obtain ⟨r₁, hr₁, rfl⟩ := List.mem_map.mp hr
        rw [hcreated]
        rcases Recipient.throttle_cases queueName now retryAt r₁ with
          ⟨hp₁, -, -, hretry, -, hexpires, hnotify⟩ | ⟨hc, heq⟩
        · refine ⟨fun _ => by rw [hretry]; exact hthrottle retryAt hthr, ?_, r₁, hr₁, hp₁,
            hnotify.symm⟩
          have hexp : (r₁.throttle queueName now retryAt).expirationTime m.created =
              r₁.expirationTime m.created := by
            simp only [Recipient.plan] at hexpires
            simp only [Recipient.expirationTime, (Prod.mk.inj hexpires).1]
          rw [hexp]
          exact sendDsn_unexpired hr₁ hp₁
        · rw [heq] at hp ⊢
          exact ⟨fun hq => Nat.lt_of_not_le fun hle => hc ⟨hp, hle, hq⟩,
            sendDsn_unexpired hr₁ hp, r₁, hr₁, hp, rfl⟩
    · -- written back before its retries are due
      rename_i hdue
      cases h
      refine ⟨fun hq => ?_, by rw [hcreated]; exact sendDsn_unexpired hr hp, r, hr, hp, rfl⟩
      obtain ⟨d, hd, hle⟩ := nextDeliveryEvent_le hr hp hq
      rw [hd] at hdue
      simp only [Option.any_some, decide_eq_true_eq] at hdue
      omega
  · rw [hpending] at h
    cases h

/-- **Where a past event comes from.** An event for the worker's queue that is at or before
`now`, in a message `deliver_task` writes back, is the notification of one of its pending
recipients. -/
theorem deliverTask_event_le_now (hthrottle : ∀ t, throttled = some t → now < t)
    (h : deliverTask queueName now notifyOf throttled m = .deferred m') {due : Nat}
    (hmem : (queueName, due) ∈ m'.nextEvents) (hle : due ≤ now) :
    ∃ r ∈ m'.recipients, r.status.isPending ∧ r.queue = queueName ∧ r.notify.due ≤ now := by
  obtain ⟨r, hr, hp, hq, rfl⟩ := mem_nextEvents hmem
  obtain ⟨hretry, hexp, -⟩ := deliverTask_deferred_pending hthrottle h hr hp
  rcases Recipient.earliestEvent_le hle with hle | hle | ⟨e, he, hle⟩
  · exact absurd hle (Nat.not_le_of_lt (hretry hq))
  · exact ⟨r, hr, hp, hq, hle⟩
  · exact absurd hle (Nat.not_le_of_lt (hexp e he))

/-! ## When `send_dsn` moves the notifications -/

theorem Recipient.doubleBounce_notify_due (created now : Nat) (r : Recipient) :
    (r.doubleBounce created now).notify.due =
      if r.notify.due ≤ now then ((r.expirationTime created).map (· + 10)).getD u64Max
      else r.notify.due := by
  unfold Recipient.doubleBounce
  dsimp only
  split <;> split <;> rfl

theorem Recipient.nextNotify_due (now : Nat) (intervals : List Nat) (r : Recipient) :
    (∃ next ∈ intervals, (r.nextNotify now intervals).notify.due = now + next) ∨
      (r.nextNotify now intervals).notify.due = u64Max := by
  unfold Recipient.nextNotify
  split
  · rename_i next hnext
    exact .inl ⟨next, List.mem_of_getElem? hnext, rfl⟩
  · exact .inr rfl

/-- **`send_dsn` moves the due notifications past `now`** when the return path is empty
(`handle_double_bounce`), or when some recipient writes delay text (`build_dsn`'s rescheduling):
given positive intervals and unexpired pending recipients, every pending recipient's
notification is then after `now`. -/
theorem sendDsn_notify_after (hpos : ∀ r, ∀ x ∈ notifyOf r, 0 < x) (hnow : now < u64Max)
    (hdsn : m.returnPath.isEmpty ∨ ∃ r ∈ m.recipients, (r.dsnEntry now).2 = .delay)
    (hexp : ∀ r ∈ m.recipients, r.status.isPending →
      ∀ e, r.expirationTime m.created = some e → now < e) :
    ∀ r ∈ (sendDsn notifyOf now m).recipients, r.status.isPending → now < r.notify.due := by
  intro r hr hp
  obtain ⟨r₀, hr₀, hplan⟩ := exists_plan_of_mem_sendDsn hr
  have hp₀ : r₀.status.isPending := by rw [Recipient.status_eq_of_plan hplan]; exact hp
  unfold sendDsn at hr
  by_cases hempty : m.returnPath.isEmpty
  · -- a double bounce: a due notification moves to after the expiry, or to never
    simp only [hempty, Bool.not_true, Bool.false_eq_true, if_false] at hr
    obtain ⟨r₁, hr₁, rfl⟩ := List.mem_map.mp hr
    have hp₁ : r₁.status.isPending := by
      rw [← Recipient.status_eq_of_plan (Recipient.plan_doubleBounce m.created now r₁)]; exact hp
    rw [Recipient.doubleBounce_notify_due]
    split
    · cases hexpiry : r₁.expirationTime m.created with
      | none => exact hnow
      | some e =>
        have := hexp r₁ hr₁ hp₁ e hexpiry
        simp only [Option.map_some, Option.getD_some]
        omega
    · omega
  · -- some recipient writes delay text: every due notification is rescheduled
    obtain ⟨rd, hrd, hdelay⟩ := hdsn.resolve_left hempty
    rw [Bool.not_eq_true] at hempty
    simp only [hempty, Bool.not_false, if_true] at hr
    unfold buildDsn at hr
    have hnone : ¬ ((m.recipients.map (Recipient.dsnEntry now)).all (·.2 == .none)) = true := by
      simp only [List.all_map, List.all_eq_true, Function.comp_apply, beq_iff_eq, not_forall]
      exact ⟨rd, hrd, by rw [hdelay]; decide⟩
    have hany : ((m.recipients.map (Recipient.dsnEntry now)).any (·.2 == .delay)) = true := by
      simp only [List.any_map, List.any_eq_true, Function.comp_apply, beq_iff_eq]
      exact ⟨rd, hrd, hdelay⟩
    dsimp only at hr
    rw [if_neg hnone, if_pos hany] at hr
    obtain ⟨r₁, hr₁, rfl⟩ := List.mem_map.mp hr
    split
    · rcases Recipient.nextNotify_due now (notifyOf r₁) r₁ with ⟨next, hnext, hdue⟩ | hdue
      · rw [hdue]
        have := hpos r₁ next hnext
        omega
      · rw [hdue]
        exact hnow
    · rename_i hc
      rw [if_neg hc] at hp
      simp only [hp, Bool.true_and, decide_eq_true_eq, Nat.not_le] at hc
      exact hc

/-- **Writeback after `now`, when a delay notice goes out.** When the return path is empty, or
some recipient writes delay text, every event `deliver_task` writes back for the worker's queue is
after `now`. -/
theorem deliverTask_events_after (hpos : ∀ r, ∀ x ∈ notifyOf r, 0 < x) (hnow : now < u64Max)
    (hthrottle : ∀ t, throttled = some t → now < t)
    (hdsn : m.returnPath.isEmpty ∨
      ∃ r ∈ (hasPendingDelivery queueName now m).1.recipients, (r.dsnEntry now).2 = .delay)
    (h : deliverTask queueName now notifyOf throttled m = .deferred m') {due : Nat}
    (hmem : (queueName, due) ∈ m'.nextEvents) : now < due := by
  refine Nat.lt_of_not_le fun hle => ?_
  obtain ⟨r, hr, hp, -, hdue⟩ := deliverTask_event_le_now hthrottle h hmem hle
  obtain ⟨-, -, r₀, hr₀, hp₀, hnotify⟩ := deliverTask_deferred_pending hthrottle h hr hp
  have hafter : ∀ r ∈ (sendDsn notifyOf now (hasPendingDelivery queueName now m).1).recipients,
      r.status.isPending → now < r.notify.due :=
    sendDsn_notify_after hpos hnow hdsn
      (fun r hr hp => hasPendingDelivery_unexpired queueName now m hr hp)
  have := hafter r₀ hr₀ hp₀
  rw [hnotify] at this
  omega

end Deferred

/-- A recipient of queue `0` that asked for delay notifications: one is due, its next retry is
not. -/
def delayNotified : Recipient :=
  ⟨⟨200, 1⟩, ⟨50, 0⟩, .ttl 1000, 0, .temporaryFailure, ⟨false, false, false, false, true⟩⟩

/-- The delay notice goes out and the next one is set for `220`: the message is written back with
its event at the retry, `200`, after `now`. -/
theorem deliverTask_events_after_delayNotified :
    deliverTask 0 100 (fun _ => [60, 120]) none ⟨0, "s@a.org", [delayNotified]⟩ =
        .deferred ⟨0, "s@a.org", [{ delayNotified with notify := ⟨220, 1⟩ }]⟩ ∧
      (0, 200) ∈ Message.nextEvents ⟨0, "s@a.org", [{ delayNotified with notify := ⟨220, 1⟩ }]⟩ ∧
      100 < 200 := by
  have h : deliverTask 0 100 (fun _ => [60, 120]) none ⟨0, "s@a.org", [delayNotified]⟩ =
      .deferred ⟨0, "s@a.org", [{ delayNotified with notify := ⟨220, 1⟩ }]⟩ := by
    decide
  have hmem : (0, 200) ∈
      Message.nextEvents ⟨0, "s@a.org", [{ delayNotified with notify := ⟨220, 1⟩ }]⟩ := by
    decide
  have hpos : ∀ r : Recipient, ∀ x ∈ [60, 120], 0 < x := by
    intro _ x hx
    simp only [List.mem_cons, List.not_mem_nil, or_false] at hx
    omega
  exact ⟨h, hmem, deliverTask_events_after hpos (by decide) (by simp)
    (.inr (by decide)) h hmem⟩

/-- A recipient of queue `0` that asked never to be notified (`NOTIFY=NEVER`): its notification
time has passed, its next retry has not. -/
def neverNotified : Recipient :=
  ⟨⟨200, 1⟩, ⟨50, 0⟩, .ttl 1000, 0, .temporaryFailure, ⟨false, true, false, false, false⟩⟩

theorem deliver_task_requeues_due_event :
    deliverTask 0 100 (fun _ => [60, 120]) none ⟨0, "sender@example.org", [neverNotified]⟩ =
      .deferred ⟨0, "sender@example.org", [neverNotified]⟩ ∧
    (0, 50) ∈ (Message.nextEvents ⟨0, "sender@example.org", [neverNotified]⟩) := by
  constructor <;> decide

end Stalwart.Smtp.Delivery
