import Save.Lib.Run
import Mathlib.Data.List.Count
import Mathlib.Algebra.Group.Nat.Defs

/-!
# Requests in flight

`track_requests` (`middleware.rs`) raises the counter of the `RequestTracker` when a
request's future is first polled and lowers it behind the one await, for the
handler's response. A future that is dropped there, as when its client disconnects,
never lowers it. The counter and both drain loops are right throughout a run exactly
when that does not happen to a tracked request (`in_flight_exact_iff`). The metric
that is moved with the counter is left out.
-/

namespace Save.Api
set_option autoImplicit false
open Save.Run

/-! ## The middleware -/

/-- `track_requests` of one request, at the points where its future can be dropped. -/
inductive TrackedRequest where
  /-- Not polled yet. -/
  | created (path : String)
  /-- At the await for the response. -/
  | awaiting (shouldTrack : Bool)
  | completed
  | dropped
  deriving DecidableEq, Repr

def shouldTrack (path : String) : Bool :=
  !(path == "/metrics" || path == "/health" || path == "/health/ready")

/-- The counter, an `AtomicUsize`, and the requests in the order of their arrival. -/
structure RequestTracker where
  inFlight : UInt64
  requests : List TrackedRequest

def RequestTracker.new : RequestTracker := ⟨0, []⟩

inductive RequestEvent where
  | arrive (path : String)
  | poll (i : Nat)
  | complete (i : Nat)
  | drop (i : Nat)
  deriving DecidableEq, Repr

def RequestTracker.step (t : RequestTracker) : RequestEvent → Option RequestTracker
  | .arrive path => some { t with requests := t.requests ++ [.created path] }
  | .poll i =>
    match t.requests[i]? with
    | some (.created path) => some
      { inFlight := if shouldTrack path then t.inFlight + 1 else t.inFlight
        requests := t.requests.set i (.awaiting (shouldTrack path)) }
    | _ => none
  | .complete i =>
    match t.requests[i]? with
    | some (.awaiting track) => some
      { inFlight := if track then t.inFlight - 1 else t.inFlight
        requests := t.requests.set i .completed }
    | _ => none
  | .drop i =>
    match t.requests[i]? with
    | some (.created _) => some { t with requests := t.requests.set i .dropped }
    | some (.awaiting _) => some { t with requests := t.requests.set i .dropped }
    | _ => none

/-- The tracked requests that are started and neither completed nor dropped. -/
def RequestTracker.running (t : RequestTracker) : Nat := t.requests.countP (· == .awaiting true)

/-! ## The drain loops -/

structure DrainNodeResponse where
  success : Bool
  errorMessage : String
  drainedRequests : Nat
  deriving DecidableEq, Repr

/-- One turn of the loop of `drain_node`: the time, and the counter before and after its sleep. -/
structure DrainTurn where
  elapsed : Nat
  inFlight : UInt64
  newInFlight : UInt64

/-- `drain_node`; `none` while it goes on. -/
def drainNode (timeout : Nat) : List DrainTurn → Nat → Option DrainNodeResponse
  | [], _ => none
  | turn :: turns, drained =>
    if turn.inFlight = 0 then some ⟨true, "", drained⟩
    else if timeout ≤ turn.elapsed then
      some ⟨false, "Drain timeout: " ++ toString turn.inFlight ++ " requests still in flight", drained⟩
    else
      drainNode timeout turns
        (if turn.newInFlight < turn.inFlight then
          drained + (turn.inFlight - turn.newInFlight).toNat
        else drained)

/-- The drain loop of `handle_graceful_shutdown` over the times and the counter of its turns; the
result says whether all requests were drained. -/
def drainBeforeShutdown (timeout : Nat) : List (Nat × UInt64) → Option Bool
  | [] => none
  | (elapsed, inFlight) :: turns =>
    if inFlight = 0 then some true
    else if timeout ≤ elapsed then some false
    else drainBeforeShutdown timeout turns

/-! ## The counter -/

/-- The counter is the number of running requests, and a drain loop that reads it when there are none
ends with everything drained. -/
structure RequestTracker.Exact (t : RequestTracker) : Prop where
  count : t.inFlight.toNat = t.running
  drains : t.running = 0 → ∀ timeout elapsed newInFlight drained turns readings,
    drainNode timeout (⟨elapsed, t.inFlight, newInFlight⟩ :: turns) drained =
        some ⟨true, "", drained⟩ ∧
      drainBeforeShutdown timeout ((elapsed, t.inFlight) :: readings) = some true

/-- No tracked request is dropped at its await, and fewer than `2^64` run at once. -/
def RequestTracker.Balanced (t : RequestTracker) : RequestEvent → Prop
  | .drop i => t.requests[i]? ≠ some (.awaiting true)
  | .poll i => ∀ path, t.requests[i]? = some (.created path) → shouldTrack path = true →
      t.running + 1 < 2 ^ 64
  | _ => True

theorem toNat_inc {count : UInt64} (room : count.toNat + 1 < 2 ^ 64) :
    (count + 1).toNat = count.toNat + 1 := by
  rw [UInt64.toNat_add]
  exact Nat.mod_eq_of_lt room

theorem toNat_dec {count : UInt64} (positive : 0 < count.toNat) :
    (count - 1).toNat = count.toNat - 1 :=
  UInt64.toNat_sub_of_le count 1 (UInt64.le_iff_toNat_le.2 positive)

/-- A request that changes its stage. -/
theorem countP_set_add {p : TrackedRequest → Bool} {requests : List TrackedRequest} {i : Nat}
    {now : TrackedRequest} (found : requests[i]? = some now) (next : TrackedRequest) :
    (requests.set i next).countP p + (if p now then 1 else 0) =
      requests.countP p + if p next then 1 else 0 := by
  obtain ⟨inside, same⟩ := List.getElem?_eq_some_iff.1 found
  have enough := List.boole_getElem_le_countP (p := p) inside
  rw [same] at enough
  rw [List.countP_set inside, same]
  omega

section

variable {t t' : RequestTracker}

theorem RequestTracker.running_set {i : Nat} {now : TrackedRequest} (found : t.requests[i]? = some now)
    (inFlight : UInt64) (next : TrackedRequest) :
    RequestTracker.running ⟨inFlight, t.requests.set i next⟩ +
        (if now = .awaiting true then 1 else 0) =
      t.running + if next = .awaiting true then 1 else 0 := by
  have counted := countP_set_add (p := (· == .awaiting true)) found next
  simp only [beq_iff_eq] at counted
  exact counted

theorem RequestTracker.exact_of_count (count : t.inFlight.toNat = t.running) : t.Exact := by
  refine ⟨count, fun none timeout elapsed newInFlight drained turns readings => ?_⟩
  have zero : t.inFlight = 0 := by
    rw [← UInt64.toNat_inj, count, none]
    rfl
  exact ⟨if_pos zero, if_pos zero⟩

/-- A step that leaves no tracked request behind keeps the counter exact. -/
theorem RequestTracker.Exact.step {e : RequestEvent} (exact : t.Exact) (balanced : t.Balanced e)
    (next : t.step e = some t') : t'.Exact := by
  have count := exact.count
  apply RequestTracker.exact_of_count
  cases e with
  | arrive path =>
    cases next
    simpa [RequestTracker.running] using count
  | poll i =>
    simp only [RequestTracker.step] at next
    split at next
    · rename_i path found
      cases next
      have moved := running_set found (if shouldTrack path then t.inFlight + 1 else t.inFlight)
        (.awaiting (shouldTrack path))
      cases tracked : shouldTrack path with
      | false =>
        simp only [tracked, reduceCtorEq, TrackedRequest.awaiting.injEq, Bool.false_eq_true,
          if_false] at moved ⊢
        omega
      | true =>
        have room := balanced path found tracked
        simp only [tracked, reduceCtorEq, if_true, if_false] at moved ⊢
        rw [toNat_inc (by omega)]
        omega
    · cases next
  | complete i =>
    simp only [RequestTracker.step] at next
    split at next
    · rename_i track found
      cases next
      have moved := running_set found (if track then t.inFlight - 1 else t.inFlight) .completed
      cases track with
      | false =>
        simp only [reduceCtorEq, TrackedRequest.awaiting.injEq, Bool.false_eq_true,
          if_false] at moved ⊢
        omega
      | true =>
        simp only [reduceCtorEq, if_true, if_false] at moved ⊢
        -- the request itself is one of those that are counted
        rw [toNat_dec (by omega)]
        omega
    · cases next
  | drop i =>
    simp only [RequestTracker.step] at next
    split at next
    · rename_i path found
      cases next
      have moved := running_set found t.inFlight .dropped
      simp only [reduceCtorEq, if_false] at moved
      exact count.trans moved.symm
    · rename_i track found
      cases next
      have moved := running_set found t.inFlight .dropped
      rw [if_neg (fun same => balanced (found.trans (congrArg some same)))] at moved
      simp only [reduceCtorEq, if_false] at moved
      exact count.trans moved.symm
    · cases next

/-- The other steps lose it: the counter of a dropped request stays, and `2^64` wraps to zero. -/
theorem RequestTracker.Exact.lost {e : RequestEvent} (exact : t.Exact) (other : ¬ t.Balanced e) :
    ∃ t', t.step e = some t' ∧ ¬ t'.Exact := by
  have count := exact.count
  cases e with
  | arrive path => exact absurd trivial other
  | complete i => exact absurd trivial other
  | poll i =>
    simp only [RequestTracker.Balanced, not_forall, Nat.not_lt] at other
    obtain ⟨path, found, tracked, full⟩ := other
    refine ⟨⟨t.inFlight + 1, t.requests.set i (.awaiting true)⟩, ?_, fun still => ?_⟩
    · simp only [RequestTracker.step, found, tracked, if_true]
    · have moved := running_set found (t.inFlight + 1) (.awaiting true)
      simp only [reduceCtorEq, if_true, if_false] at moved
      have fits := UInt64.toNat_lt (t.inFlight + 1)
      have same : (t.inFlight + 1).toNat = RequestTracker.running ⟨_, _⟩ := still.count
      omega
  | drop i =>
    have found : t.requests[i]? = some (.awaiting true) := not_not.1 other
    refine ⟨⟨t.inFlight, t.requests.set i .dropped⟩, ?_, fun still => ?_⟩
    · simp only [RequestTracker.step, found]
    · have moved := running_set found t.inFlight .dropped
      simp only [reduceCtorEq, if_true, if_false] at moved
      have same : t.inFlight.toNat = RequestTracker.running ⟨_, _⟩ := still.count
      omega

end

/-- The counter is exact in every state of a run exactly when no tracked request is dropped at its
await, and fewer than `2^64` run at once. -/
theorem in_flight_exact_iff (events : List RequestEvent) :
    Throughout RequestTracker.step RequestTracker.Exact .new events ↔
      Along RequestTracker.step RequestTracker.Balanced .new events :=
  throughout_iff_along (fun _ _ _ exact balanced next => exact.step balanced next)
    (fun _ _ exact other => exact.lost other) (RequestTracker.exact_of_count rfl) events

/-- A client that disconnects before its response is there: no request runs any more, the counter
stays at one, and the drain goes on to its timeout. -/
theorem disconnected_client_stays_counted :
    ∃ t, exec RequestTracker.step .new [.arrive "/bucket/key", .poll 0, .drop 0] = some t ∧
      t.running = 0 ∧ t.inFlight = 1 ∧ ¬ t.Exact ∧
      drainNode 1 [⟨0, t.inFlight, t.inFlight⟩, ⟨1, t.inFlight, t.inFlight⟩] 0 =
        some ⟨false, "Drain timeout: 1 requests still in flight", 0⟩ ∧
      drainBeforeShutdown 1 [(0, t.inFlight), (1, t.inFlight)] = some false := by
  refine ⟨⟨1, [.dropped]⟩, rfl, rfl, rfl, fun exact => ?_, by decide, by decide⟩
  have count := exact.count
  cases count

end Save.Api
