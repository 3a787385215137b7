import Save.Lib.Delivery

/-!
# Calls over a cached connection

Any number of calls over any number of clients to one server: an attempt takes
the cached connection of its client or makes one under a lock, sends the request
and waits; after a failure of the transport the connection is given up and the
call may be tried again. A request that its caller no longer waits for may still
arrive. Server, messages and failures are parameters; a call that sleeps between
attempts may wake at any time.
-/

namespace Save.Calling
set_option autoImplicit false
open Save.Run Save.Delivery

variable {W E Q A R F : Type}

/-- What is called, and how: how often a call is tried again, how an answer is read, and after
which failures the connection is given up. -/
structure Endpoint (W E Q A R F : Type) where
  server : Server W E Q A
  maxRetries : Nat
  decode : Q → A → Except F R
  transport : F → Bool
  /-- A failure that ends the call. -/
  fatal : F
  ends : transport fatal = false

/-- The call, or the making of a connection, is tried again. -/
def Endpoint.retries (p : Endpoint W E Q A R F) (attempt : Nat) (e : F) : Bool :=
  attempt < p.maxRetries && p.transport e

structure Client where
  /-- The cached connection, by the number it was given. -/
  channel : Option Nat
  /-- The call that holds the write lock of the cache. -/
  holder : Option Nat

inductive CallStage (R F : Type) where
  /-- Before the read lock of the cache. -/
  | looking
  /-- No connection was found; waiting for the write lock. -/
  | locking
  /-- A connection is made under the write lock, after so many failures. -/
  | connecting (failures : Nat)
  | readying (channel : Nat)
  /-- The request of the attempt is sent. -/
  | waiting (channel : Nat)
  /-- To give up the connection, the call waits for the write lock. -/
  | resetting (e : F)
  | sleeping
  | returned (result : Except F R)
  /-- The caller has dropped the future. -/
  | dropped

structure Call (Q R F : Type) where
  client : Nat
  request : Q
  /-- Attempts are counted from zero. -/
  attempt : Nat
  /-- The last connection that an attempt failed on. -/
  failedOn : Option Nat
  stage : CallStage R F

/-- An attempt ends with an error, on a connection or without one. -/
def Call.failed (p : Endpoint W E Q A R F) (c : Call Q R F) (on : Option Nat) (e : F) : Call Q R F :=
  if p.transport e then { c with failedOn := on.or c.failedOn, stage := .resetting e }
  else { c with stage := .returned (.error e) }

structure Calls (W E Q A R F : Type) where
  net : Net W E Q A
  clients : Nat → Client
  calls : Nat → Option (Call Q R F)
  next : Nat
  /-- How many connections have been made. -/
  connections : Nat

def Calls.start (w : W) : Calls W E Q A R F := ⟨.start w, fun _ => ⟨none, none⟩, fun _ => none, 0, 0⟩

def Calls.put (sys : Calls W E Q A R F) (i : Nat) (c : Call Q R F) : Calls W E Q A R F :=
  { sys with calls := Function.update sys.calls i (some c) }

def Calls.setClient (sys : Calls W E Q A R F) (k : Nat) (client : Client) : Calls W E Q A R F :=
  { sys with clients := Function.update sys.clients k client }

inductive CallEvent (E Q F : Type) where
  | call (client : Nat) (q : Q)
  | look (i : Nat)
  | lock (i : Nat)
  /-- A connection is made, or not. -/
  | connect (i : Nat) (failure : Option F)
  | ready (i : Nat) (failure : Option F)
  /-- The answer to the request of the attempt arrives. -/
  | answer (i : Nat)
  /-- The attempt ends without an answer. -/
  | broken (i : Nat) (failure : F)
  | reset (i : Nat)
  | wake (i : Nat)
  | drop (i : Nat)
  | net (e : NetEvent E)

def Calls.step (p : Endpoint W E Q A R F) (sys : Calls W E Q A R F) :
    CallEvent E Q F → Option (Calls W E Q A R F)
  | .call k q =>
    some { sys with calls := Function.update sys.calls sys.next (some ⟨k, q, 0, none, .looking⟩)
                    next := sys.next + 1 }
  | .look i =>
    match sys.calls i with
    | some ⟨k, q, n, failedOn, .looking⟩ =>
      if (sys.clients k).holder.isSome then none
      else some (sys.put i ⟨k, q, n, failedOn, (sys.clients k).channel.elim .locking .readying⟩)
    | _ => none
  | .lock i =>
    match sys.calls i with
    | some ⟨k, q, n, failedOn, .locking⟩ =>
      if (sys.clients k).holder.isSome then none
      else
        some ((sys.clients k).channel.elim
          ((sys.setClient k ⟨none, some i⟩).put i ⟨k, q, n, failedOn, .connecting 0⟩)
          fun g => sys.put i ⟨k, q, n, failedOn, .readying g⟩)
    | _ => none
  | .connect i failure =>
    match sys.calls i with
    | some ⟨k, q, n, failedOn, .connecting failures⟩ =>
      match failure with
      | none =>
        some { (sys.setClient k ⟨some (sys.connections + 1), none⟩).put i
            ⟨k, q, n, failedOn, .readying (sys.connections + 1)⟩ with connections := sys.connections + 1 }
      | some e =>
        if p.retries failures e then
          some (sys.put i ⟨k, q, n, failedOn, .connecting (failures + 1)⟩)
        else
          some ((sys.setClient k ⟨none, none⟩).put i
            (Call.failed p ⟨k, q, n, failedOn, .connecting failures⟩ none e))
    | _ => none
  | .ready i failure =>
    match sys.calls i with
    | some ⟨k, q, n, failedOn, .readying g⟩ =>
      match failure with
      | none =>
        some ({ sys with net := sys.net.send ⟨i, n⟩ q }.put i ⟨k, q, n, failedOn, .waiting g⟩)
      | some e =>
        some (sys.put i (Call.failed p ⟨k, q, n, failedOn, .readying g⟩ (some g) e))
    | _ => none
  | .answer i =>
    match sys.calls i with
    | some ⟨k, q, n, failedOn, .waiting g⟩ =>
      match answerTo sys.net.log ⟨i, n⟩ with
      | none => none
      | some a =>
        match p.decode q a with
        | .ok r => some (sys.put i ⟨k, q, n, failedOn, .returned (.ok r)⟩)
        | .error e =>
          some (sys.put i (Call.failed p ⟨k, q, n, failedOn, .waiting g⟩ (some g) e))
    | _ => none
  | .broken i e =>
    match sys.calls i with
    | some ⟨k, q, n, failedOn, .waiting g⟩ =>
      some (sys.put i (Call.failed p ⟨k, q, n, failedOn, .waiting g⟩ (some g) e))
    | _ => none
  | .reset i =>
    match sys.calls i with
    | some ⟨k, q, n, failedOn, .resetting e⟩ =>
      if (sys.clients k).holder.isSome then none
      else
        some ((sys.setClient k ⟨none, none⟩).put i
          ⟨k, q, n, failedOn, if p.retries n e then .sleeping else .returned (.error e)⟩)
    | _ => none
  | .wake i =>
    match sys.calls i with
    | some ⟨k, q, n, failedOn, .sleeping⟩ => some (sys.put i ⟨k, q, n + 1, failedOn, .looking⟩)
    | _ => none
  | .drop i =>
    match sys.calls i with
    | none => none
    | some ⟨k, q, n, failedOn, .connecting _⟩ =>
      some ((sys.setClient k ⟨none, none⟩).put i ⟨k, q, n, failedOn, .dropped⟩)
    | some ⟨k, q, n, failedOn, stage⟩ =>
      match stage with
      | .returned _ => none
      | _ => some (sys.put i ⟨k, q, n, failedOn, .dropped⟩)
  | .net e => (sys.net.step p.server e).map fun net => { sys with net }

/-! ## The invariant -/

/-- The request of the attempt may have been sent. -/
def CallStage.Sent : CallStage R F → Prop
  | .looking => False
  | .locking => False
  | .connecting _ => False
  | .readying _ => False
  | _ => True

/-- The call has not chosen its next connection. -/
def CallStage.Seeking : CallStage R F → Prop
  | .looking => True
  | .locking => True
  | .connecting _ => True
  | .sleeping => True
  | _ => False

def CallStage.Connecting : CallStage R F → Prop
  | .connecting _ => True
  | _ => False

section
variable (p : Endpoint W E Q A R F) (sys : Calls W E Q A R F) (i : Nat)

/-- What a call at a stage can rely on. -/
def Call.AtStage (c : Call Q R F) : Prop :=
  match c.stage with
  | .connecting failures => failures ≤ p.maxRetries ∧ (sys.clients c.client).channel = none
  | .readying g => g ≤ sys.connections ∧ ∀ u, c.failedOn = some u → u < g
  | .waiting g => g ≤ sys.connections ∧ ∀ u, c.failedOn = some u → u < g
  | .resetting e => p.transport e = true
  | .sleeping => c.attempt < p.maxRetries
  | .returned (.ok r) => ∃ a, answerTo sys.net.log ⟨i, c.attempt⟩ = some a ∧ p.decode c.request a = .ok r
  | .returned (.error e) => p.transport e = true → c.attempt = p.maxRetries
  | _ => True

structure Call.Fits (c : Call Q R F) : Prop where
  attempts : c.attempt ≤ p.maxRetries
  sent : ∀ m ∈ sys.net.sent, m.1.caller = i → m.2 = c.request ∧
    (m.1.attempt < c.attempt ∨ m.1.attempt = c.attempt ∧ c.stage.Sent)
  held : ∀ k, (sys.clients k).holder = some i ↔ k = c.client ∧ c.stage.Connecting
  stage : c.AtStage p sys i
  failedOn : ∀ u, c.failedOn = some u → u ≤ sys.connections ∧
    (c.stage.Seeking → ∀ g, (sys.clients c.client).channel = some g → u < g)

structure Calls.Sound [DecidableEq A] (w : W) : Prop where
  net : sys.net.Sound p.server w
  calls : ∀ i c, sys.calls i = some c → c.Fits p sys i
  below : ∀ i c, sys.calls i = some c → i < sys.next
  known : ∀ m ∈ sys.net.sent, ∃ c, sys.calls m.1.caller = some c
  holders : ∀ k i, (sys.clients k).holder = some i → ∃ c, sys.calls i = some c
  channels : ∀ k g, (sys.clients k).channel = some g → g ≤ sys.connections

/-- What an event of a call leaves of what the others rely on. -/
structure Calls.Beside (sys' : Calls W E Q A R F) : Prop where
  sent : ∀ m ∈ sys'.net.sent, m ∈ sys.net.sent ∨ m.1.caller = i
  log : ∀ slip a, answerTo sys.net.log slip = some a → answerTo sys'.net.log slip = some a
  held : ∀ k j, j ≠ i → ((sys'.clients k).holder = some j ↔ (sys.clients k).holder = some j)
  locked : ∀ k j, j ≠ i → (sys.clients k).holder = some j →
    (sys'.clients k).channel = (sys.clients k).channel
  channel : ∀ k g, (sys'.clients k).channel = some g →
    (sys.clients k).channel = some g ∨ sys.connections < g
  connections : sys.connections ≤ sys'.connections

end

section
variable {p : Endpoint W E Q A R F} {sys sys' : Calls W E Q A R F} {i j : Nat} {c c' : Call Q R F}

/-- A call is not disturbed by the events of others. -/
theorem Call.Fits.beside (fits : c.Fits p sys j) (other : j ≠ i) (beside : sys.Beside i sys') :
    c.Fits p sys' j where
  attempts := fits.attempts
  sent m member own := by
    rcases beside.sent m member with old | new
    · exact fits.sent m old own
    · exact absurd (own.symm.trans new) other
  held k := (beside.held k j other).trans (fits.held k)
  stage := by
    have here := fits.stage
    have more := beside.connections
    unfold Call.AtStage at here ⊢
    split
    · rename_i failures connecting
      simp only [connecting] at here
      have holds := (fits.held c.client).2 ⟨rfl, by rw [connecting]; trivial⟩
      exact ⟨here.1, (beside.locked _ j other holds).trans here.2⟩
    · rename_i g readying
      simp only [readying] at here
      exact ⟨by omega, here.2⟩
    · rename_i g waiting
      simp only [waiting] at here
      exact ⟨by omega, here.2⟩
    · rename_i e resetting
      simpa only [resetting] using here
    · rename_i sleeping
      simpa only [sleeping] using here
    · rename_i r returned
      simp only [returned] at here
      obtain ⟨a, there, read⟩ := here
      exact ⟨a, beside.log _ a there, read⟩
    · rename_i e returned
      simpa only [returned] using here
    · trivial
  failedOn u failed := by
    obtain ⟨old, newer⟩ := fits.failedOn u failed
    have more := beside.connections
    refine ⟨by omega, fun seeking g channel => ?_⟩
    rcases beside.channel _ g channel with same | new
    · exact newer seeking g same
    · omega

/-- An event of one call. -/
theorem Calls.Sound.move [DecidableEq A] {w : W} (sound : sys.Sound p w) (there : sys.calls i = some c)
    (calls : sys'.calls = Function.update sys.calls i (some c')) (next : sys'.next = sys.next)
    (beside : sys.Beside i sys') (net : sys'.net.Sound p.server w) (fits : c'.Fits p sys' i)
    (channels : ∀ k g, (sys'.clients k).channel = some g → g ≤ sys'.connections) : sys'.Sound p w where
  net
  calls j d found := by
    rw [calls, Function.update_apply] at found
    split at found
    · rename_i same
      cases found
      rwa [same]
    · rename_i other
      exact (sound.calls j d found).beside other beside
  below j d found := by
    rw [calls, Function.update_apply] at found
    rw [next]
    split at found
    · rename_i same
      rw [same]
      exact sound.below i c there
    · exact sound.below j d found
  known m member := by
    rw [calls, Function.update_apply]
    split
    · exact ⟨c', rfl⟩
    · rename_i other
      exact sound.known m ((beside.sent m member).resolve_right other)
  holders k j held := by
    rw [calls, Function.update_apply]
    split
    · exact ⟨c', rfl⟩
    · rename_i other
      exact sound.holders k j ((beside.held k j other).1 held)
  channels

/-- A call that goes on has not lost what it sent. -/
def Call.Follows (c' c : Call Q R F) : Prop :=
  c'.client = c.client ∧ c'.request = c.request ∧
    (c.attempt < c'.attempt ∨ c'.attempt = c.attempt ∧ (c.stage.Sent → c'.stage.Sent))

theorem Call.Fits.follow (fits : c.Fits p sys i) (follows : c'.Follows c) :
    ∀ m ∈ sys.net.sent, m.1.caller = i → m.2 = c'.request ∧
      (m.1.attempt < c'.attempt ∨ m.1.attempt = c'.attempt ∧ c'.stage.Sent) := by
  intro m member own
  obtain ⟨-, request, later⟩ := follows
  obtain ⟨same, before⟩ := fits.sent m member own
  refine ⟨same.trans request.symm, ?_⟩
  rcases later with more | ⟨equal, kept⟩
  · left
    omega
  · rcases before with less | ⟨last, sent⟩
    · left
      omega
    · exact .inr ⟨last.trans equal.symm, kept sent⟩

/-- A call goes on and leaves its client as `client`, which it may do when no other holds the lock. -/
theorem Calls.Sound.update [DecidableEq A] {w : W} (sound : sys.Sound p w) (there : sys.calls i = some c)
    (c' : Call Q R F) (client : Client) (follows : c'.Follows c) {connections : Nat}
    (more : sys.connections ≤ connections)
    (free : ∀ j, (sys.clients c.client).holder = some j → j = i)
    (holder : ∀ j, client.holder = some j ↔ j = i ∧ c'.stage.Connecting)
    (channel : ∀ g, client.channel = some g →
      (sys.clients c.client).channel = some g ∨ sys.connections < g ∧ g ≤ connections)
    (attempts : c'.attempt ≤ p.maxRetries)
    (stage : c'.AtStage p { (sys.setClient c.client client).put i c' with connections } i)
    (failedOn : ∀ u, c'.failedOn = some u → u ≤ connections ∧
      (c'.stage.Seeking → ∀ g, client.channel = some g → u < g)) :
    Calls.Sound p { (sys.setClient c.client client).put i c' with connections } w := by
  have fits := sound.calls i c there
  refine sound.move there rfl rfl ?_ sound.net ?_ ?_
  · refine ⟨fun m member => .inl member, fun slip a found => found, ?_, ?_, ?_, more⟩
    · intro k j other
      simp only [Calls.put, Calls.setClient, Function.update_apply]
      split
      · rename_i same
        rw [same, holder]
        constructor
        · exact fun held => absurd held.1 other
        · exact fun held => absurd (free j held) other
      · exact Iff.rfl
    · intro k j other held
      simp only [Calls.put, Calls.setClient, Function.update_apply]
      split
      · rename_i same
        rw [same] at held
        exact absurd (free j held) other
      · rfl
    · intro k g found
      simp only [Calls.put, Calls.setClient, Function.update_apply] at found
      split at found
      · rename_i same
        rw [same]
        exact (channel g found).imp_right And.left
      · exact .inl found
  · refine ⟨attempts, fits.follow follows, ?_, stage, ?_⟩
    · intro k
      simp only [Calls.put, Calls.setClient, Function.update_apply, follows.1]
      split
      · rename_i same
        rw [holder]
        simp [same]
      · rename_i other
        rw [fits.held]
        simp [other]
    · intro u failed
      simpa [Calls.put, Calls.setClient, follows.1] using failedOn u failed
  · intro k g found
    simp only [Calls.put, Calls.setClient, Function.update_apply] at found
    split at found
    · rcases channel g found with old | new
      · have := sound.channels _ g old
        show g ≤ connections
        omega
      · exact new.2
    · have := sound.channels k g found
      show g ≤ connections
      omega

/-- A call goes on and leaves its client as it is. -/
theorem Calls.Sound.put [DecidableEq A] {w : W} (sound : sys.Sound p w) (there : sys.calls i = some c)
    (follows : c'.Follows c) (connecting : c'.stage.Connecting ↔ c.stage.Connecting)
    (attempts : c'.attempt ≤ p.maxRetries) (stage : c'.AtStage p (sys.put i c') i)
    (failedOn : ∀ u, c'.failedOn = some u → u ≤ sys.connections ∧
      (c'.stage.Seeking → ∀ g, (sys.clients c.client).channel = some g → u < g)) :
    (sys.put i c').Sound p w := by
  have fits := sound.calls i c there
  refine sound.move there rfl rfl ?_ sound.net ?_ sound.channels
  · exact ⟨fun m member => .inl member, fun slip a found => found, fun k j other => Iff.rfl,
      fun k j other held => rfl, fun k g found => .inl found, Nat.le_refl _⟩
  · refine ⟨attempts, fits.follow follows, fun k => ?_, stage, fun u failed => ?_⟩
    · rw [follows.1, connecting]
      exact fits.held k
    · rw [follows.1]
      exact failedOn u failed

/-- The request of an attempt is sent. -/
theorem Calls.Sound.send [DecidableEq A] {w : W} (sound : sys.Sound p w) {k n g : Nat} {q : Q}
    {failedOn : Option Nat} (there : sys.calls i = some ⟨k, q, n, failedOn, .readying g⟩) :
    Calls.Sound p ({ sys with net := sys.net.send ⟨i, n⟩ q }.put i ⟨k, q, n, failedOn, .waiting g⟩) w := by
  have fits := sound.calls i _ there
  have fresh : (⟨i, n⟩ : Slip) ∉ sys.net.sent.map Prod.fst := by
    intro used
    obtain ⟨m, member, slip⟩ := List.mem_map.1 used
    obtain ⟨-, less | ⟨-, sent⟩⟩ := fits.sent m member (by rw [slip])
    · rw [slip] at less
      exact absurd less (Nat.lt_irrefl n)
    · exact sent
  refine sound.move there rfl rfl ?_ (sound.net.send fresh) ?_ sound.channels
  · refine ⟨fun m member => ?_, fun slip a found => found, fun k j other => Iff.rfl,
      fun k j other held => rfl, fun k g found => .inl found, Nat.le_refl _⟩
    exact (Net.mem_send.1 member).imp_right fun new => by rw [new]
  · refine ⟨fits.attempts, fun m member own => ?_, fits.held, fits.stage, fun u failed => ?_⟩
    · rcases Net.mem_send.1 member with old | rfl
      · obtain ⟨same, less | ⟨last, sent⟩⟩ := fits.sent m old own
        · exact ⟨same, .inl less⟩
        · exact ⟨same, .inr ⟨last, trivial⟩⟩
      · exact ⟨rfl, .inr ⟨rfl, trivial⟩⟩
    · exact ⟨(fits.failedOn u failed).1, fun seeking => seeking.elim⟩

/-! ### Attempts that fail -/

theorem Call.failed_spec (p : Endpoint W E Q A R F) (c : Call Q R F) (on : Option Nat) (e : F) :
    (c.failed p on e).Follows c ∧ (c.failed p on e).attempt = c.attempt ∧
      ¬ (c.failed p on e).stage.Connecting ∧ ¬ (c.failed p on e).stage.Seeking := by
  unfold Call.failed
  split
  · exact ⟨⟨rfl, rfl, .inr ⟨rfl, fun _ => trivial⟩⟩, rfl, id, id⟩
  · exact ⟨⟨rfl, rfl, .inr ⟨rfl, fun _ => trivial⟩⟩, rfl, id, id⟩

theorem Call.failed_atStage (c : Call Q R F) (on : Option Nat) (e : F) :
    (c.failed p on e).AtStage p sys i := by
  unfold Call.failed
  split
  · rename_i transport
    exact transport
  · rename_i permanent
    exact fun transport => absurd transport permanent

theorem Call.failedOn_failed {c : Call Q R F} {on : Option Nat} {e : F} {u : Nat}
    (failed : (c.failed p on e).failedOn = some u) : on = some u ∨ c.failedOn = some u := by
  unfold Call.failed at failed
  split at failed
  · exact (Option.or_eq_some_iff.1 failed).imp_right And.right
  · exact .inr failed

/-- An attempt fails on a connection. -/
theorem Calls.Sound.fail [DecidableEq A] {w : W} (sound : sys.Sound p w) (there : sys.calls i = some c)
    {g : Nat} (made : g ≤ sys.connections) (free : ¬ c.stage.Connecting) (e : F) :
    (sys.put i (c.failed p (some g) e)).Sound p w := by
  have fits := sound.calls i c there
  obtain ⟨follows, same, apart, settled⟩ := c.failed_spec p (some g) e
  refine sound.put there follows (iff_of_false apart free) (same ▸ fits.attempts)
    (c.failed_atStage _ _) fun u failed => ⟨?_, fun seeking => absurd seeking settled⟩
  rcases Call.failedOn_failed failed with here | before
  · cases here
    exact made
  · exact (fits.failedOn u before).1

/-! ### Every event -/

section Events
variable [DecidableEq A] {w : W} {k n : Nat} {q : Q} {failedOn : Option Nat}

theorem Calls.Sound.call (sound : sys.Sound p w) (k : Nat) (q : Q) :
    Calls.Sound p { sys with calls := Function.update sys.calls sys.next (some ⟨k, q, 0, none, .looking⟩)
                             next := sys.next + 1 } w := by
  have absent : ∀ j c, sys.calls j = some c → j ≠ sys.next := fun j c there =>
    Nat.ne_of_lt (sound.below j c there)
  have begun : ∀ j, j ≠ sys.next → Function.update sys.calls sys.next
      (some ⟨k, q, 0, none, .looking⟩) j = sys.calls j := fun j other =>
    Function.update_of_ne other _ _
  have unsent : ∀ m ∈ sys.net.sent, m.1.caller ≠ sys.next := by
    intro m member
    obtain ⟨c, there⟩ := sound.known m member
    exact absent _ c there
  have unheld : ∀ k, (sys.clients k).holder ≠ some sys.next := by
    intro k held
    obtain ⟨c, there⟩ := sound.holders k _ held
    exact absent _ c there rfl
  refine ⟨sound.net, fun j c found => ?_, fun j c found => ?_, fun m member => ?_,
    fun k j held => ?_, sound.channels⟩
  · by_cases here : j = sys.next
    · subst here
      simp only [Function.update_self, Option.some.injEq] at found
      subst found
      refine ⟨Nat.zero_le _, fun m member own => absurd own (unsent m member), fun k => ?_, trivial,
        fun u failed => ?_⟩
      · exact iff_of_false (unheld k) fun held => held.2
      · cases failed
    · have fits := sound.calls j c ((begun j here).symm.trans found)
      exact fits.beside here ⟨fun m member => .inl member, fun slip a found => found, fun k j other => Iff.rfl,
        fun k j other held => rfl, fun k g found => .inl found, Nat.le_refl _⟩
  · show j < sys.next + 1
    by_cases here : j = sys.next
    · omega
    · have := sound.below j c ((begun j here).symm.trans found)
      omega
  · obtain ⟨c, there⟩ := sound.known m member
    exact ⟨c, (begun _ (unsent m member)).trans there⟩
  · obtain ⟨c, there⟩ := sound.holders k j held
    exact ⟨c, (begun _ fun here => unheld k (here ▸ held)).trans there⟩

/-- The cached connection is taken. It is newer than one that the call failed on. -/
theorem Calls.Sound.find {stage : CallStage R F} (sound : sys.Sound p w)
    (there : sys.calls i = some ⟨k, q, n, failedOn, stage⟩) (seeking : stage.Seeking)
    (unsent : ¬ stage.Sent) (free : ¬ stage.Connecting) {g : Nat}
    (channel : (sys.clients k).channel = some g) :
    (sys.put i ⟨k, q, n, failedOn, .readying g⟩).Sound p w := by
  have fits := sound.calls i _ there
  have newer : ∀ u, failedOn = some u → u < g := fun u failed =>
    (fits.failedOn u failed).2 seeking g channel
  exact sound.put there ⟨rfl, rfl, .inr ⟨rfl, fun sent => absurd sent unsent⟩⟩ (iff_of_false id free)
    fits.attempts ⟨sound.channels _ g channel, newer⟩
    fun u failed => ⟨(fits.failedOn u failed).1, False.elim⟩

/-- The lock is taken. -/
theorem Calls.Sound.lock (sound : sys.Sound p w) (there : sys.calls i = some ⟨k, q, n, failedOn, .locking⟩)
    (free : (sys.clients k).holder = none) :
    Calls.Sound p ((sys.setClient k ⟨none, some i⟩).put i ⟨k, q, n, failedOn, .connecting 0⟩) w := by
  have fits := sound.calls i _ there
  refine sound.update there ⟨k, q, n, failedOn, .connecting 0⟩ ⟨none, some i⟩
    ⟨rfl, rfl, .inr ⟨rfl, False.elim⟩⟩ (Nat.le_refl _)
    (fun j held => ?_) (fun j => ?_) (fun g none => ?_) fits.attempts ⟨Nat.zero_le _, ?_⟩
    fun u failed => ⟨(fits.failedOn u failed).1, fun _ g none => ?_⟩
  · rw [free] at held
    cases held
  · simp [CallStage.Connecting, eq_comm]
  · cases none
  · simp [Calls.put, Calls.setClient]
  · cases none

omit [DecidableEq A] in
theorem Call.Fits.alone {failures : Nat}
    (fits : Call.Fits p sys i ⟨k, q, n, failedOn, .connecting failures⟩) :
    ∀ j, (sys.clients k).holder = some j → j = i := by
  have holds : (sys.clients k).holder = some i := (fits.held k).2 ⟨rfl, trivial⟩
  intro j held
  rw [holds] at held
  exact (Option.some.inj held).symm

/-- A connection is made, and the lock is let go. -/
theorem Calls.Sound.connected {failures : Nat} (sound : sys.Sound p w)
    (there : sys.calls i = some ⟨k, q, n, failedOn, .connecting failures⟩) :
    Calls.Sound p { (sys.setClient k ⟨some (sys.connections + 1), none⟩).put i
      ⟨k, q, n, failedOn, .readying (sys.connections + 1)⟩ with connections := sys.connections + 1 } w := by
  have fits := sound.calls i _ there
  have older : ∀ u, failedOn = some u → u ≤ sys.connections := fun u failed => (fits.failedOn u failed).1
  refine sound.update there ⟨k, q, n, failedOn, .readying (sys.connections + 1)⟩
    ⟨some (sys.connections + 1), none⟩ ⟨rfl, rfl, .inr ⟨rfl, False.elim⟩⟩ (Nat.le_succ _) fits.alone (fun j => ?_)
    (fun g made => ?_) fits.attempts ⟨Nat.le_refl _, fun u failed => ?_⟩ fun u failed => ⟨?_, False.elim⟩
  · exact iff_of_false (Option.some_ne_none j).symm fun held => held.2
  · right
    cases made
    omega
  · exact Nat.lt_succ_of_le (older u failed)
  · exact Nat.le_succ_of_le (older u failed)

/-- The attempts to connect are given up, and the lock is let go. -/
theorem Calls.Sound.unconnected {failures : Nat} (sound : sys.Sound p w)
    (there : sys.calls i = some ⟨k, q, n, failedOn, .connecting failures⟩) (e : F) :
    Calls.Sound p ((sys.setClient k ⟨none, none⟩).put i
      (Call.failed p ⟨k, q, n, failedOn, .connecting failures⟩ none e)) w := by
  have fits := sound.calls i _ there
  obtain ⟨follows, same, apart, settled⟩ :=
    Call.failed_spec p (⟨k, q, n, failedOn, .connecting failures⟩ : Call Q R F) none e
  refine sound.update there _ ⟨none, none⟩ follows (Nat.le_refl _) fits.alone (fun j => ?_) (fun g none => ?_)
    (same ▸ fits.attempts) (Call.failed_atStage _ _ _)
    fun u failed => ⟨?_, fun seeking => absurd seeking settled⟩
  · exact iff_of_false (Option.some_ne_none j).symm fun held => apart held.2
  · cases none
  · rcases Call.failedOn_failed failed with here | before
    · cases here
    · exact (fits.failedOn u before).1

/-- The connection is given up. -/
theorem Calls.Sound.reset {e : F} (sound : sys.Sound p w)
    (there : sys.calls i = some ⟨k, q, n, failedOn, .resetting e⟩) (free : (sys.clients k).holder = none) :
    Calls.Sound p ((sys.setClient k ⟨none, none⟩).put i
      ⟨k, q, n, failedOn, if p.retries n e then .sleeping else .returned (.error e)⟩) w := by
  have fits := sound.calls i _ there
  refine sound.update there
    ⟨k, q, n, failedOn, if p.retries n e then .sleeping else .returned (.error e)⟩ ⟨none, none⟩
    ⟨rfl, rfl, .inr ⟨rfl, fun _ => ?_⟩⟩ (Nat.le_refl _) (fun j held => ?_) (fun j => ?_) (fun g none => ?_)
    fits.attempts ?_
    fun u failed => ⟨(fits.failedOn u failed).1, fun _ g none => ?_⟩
  · split
    · trivial
    · trivial
  · rw [free] at held
    cases held
  · refine iff_of_false (Option.some_ne_none j).symm fun held => ?_
    have connecting := held.2
    split at connecting
    · exact connecting
    · exact connecting
  · cases none
  · split
    · rename_i again
      simp only [Endpoint.retries, Bool.and_eq_true, decide_eq_true_eq] at again
      exact again.1
    · rename_i last
      intro transport
      have most := fits.attempts
      simp only [Endpoint.retries, transport, Bool.and_true, decide_eq_true_eq] at last
      simp only at most ⊢
      omega
  · cases none

/-- The caller drops the future, and with it the lock. -/
theorem Calls.Sound.drop {stage : CallStage R F} (sound : sys.Sound p w)
    (there : sys.calls i = some ⟨k, q, n, failedOn, stage⟩) (free : ¬ stage.Connecting) :
    (sys.put i ⟨k, q, n, failedOn, .dropped⟩).Sound p w := by
  have fits := sound.calls i _ there
  exact sound.put there ⟨rfl, rfl, .inr ⟨rfl, fun _ => trivial⟩⟩ (iff_of_false id free)
    fits.attempts trivial fun u failed => ⟨(fits.failedOn u failed).1, False.elim⟩

theorem Calls.Sound.dropConnecting {failures : Nat} (sound : sys.Sound p w)
    (there : sys.calls i = some ⟨k, q, n, failedOn, .connecting failures⟩) :
    Calls.Sound p ((sys.setClient k ⟨none, none⟩).put i ⟨k, q, n, failedOn, .dropped⟩) w := by
  have fits := sound.calls i _ there
  refine sound.update there ⟨k, q, n, failedOn, .dropped⟩ ⟨none, none⟩
    ⟨rfl, rfl, .inr ⟨rfl, fun _ => trivial⟩⟩ (Nat.le_refl _) fits.alone
    (fun j => ?_) (fun g none => ?_) fits.attempts trivial
    fun u failed => ⟨(fits.failedOn u failed).1, False.elim⟩
  · exact iff_of_false (Option.some_ne_none j).symm fun held => held.2
  · cases none

/-- What happens on the net disturbs no call. -/
theorem Calls.Sound.onNet (sound : sys.Sound p w) {e : NetEvent E} {net : Net W E Q A}
    (moved : sys.net.step p.server e = some net) : Calls.Sound p { sys with net } w := by
  have beside : ∀ i, sys.Beside i { sys with net } := by
    intro i
    obtain ⟨happenings, log, -⟩ := Net.happen_step moved
    refine ⟨fun m member => .inl (Net.mem_sent_step moved member), fun slip a found => ?_,
      fun k j other => Iff.rfl, fun k j other held => rfl, fun k g found => .inl found, Nat.le_refl _⟩
    show answerTo net.log slip = some a
    rw [log]
    exact answerTo_append happenings found
  exact ⟨sound.net.step moved, fun j c there => (sound.calls j c there).beside (Nat.succ_ne_self j).symm
      (beside (j + 1)), sound.below, fun m member => sound.known m (Net.mem_sent_step moved member),
    sound.holders, sound.channels⟩

/-- Every event keeps the invariant. -/
theorem Calls.Sound.step (sound : sys.Sound p w) {e : CallEvent E Q F}
    (next : sys.step p e = some sys') : sys'.Sound p w := by
  cases e with
  | call k q =>
    cases next
    exact sound.call k q
  | look i =>
    simp only [Calls.step] at next
    split at next
    · rename_i k q n failedOn there
      split at next
      · cases next
      · cases next
        cases channel : (sys.clients k).channel with
        | some g => exact sound.find there trivial id id channel
        | none =>
          have fits := sound.calls i _ there
          exact sound.put there ⟨rfl, rfl, .inr ⟨rfl, False.elim⟩⟩ Iff.rfl fits.attempts trivial
            fits.failedOn
    · cases next
  | lock i =>
    simp only [Calls.step] at next
    split at next
    · rename_i k q n failedOn there
      split at next
      · cases next
      · rename_i free
        cases next
        cases channel : (sys.clients k).channel with
        | some g => exact sound.find there trivial id id channel
        | none => exact sound.lock there (by simpa using free)
    · cases next
  | connect i failure =>
    simp only [Calls.step] at next
    split at next
    · rename_i k q n failedOn failures there
      split at next
      · cases next
        exact sound.connected there
      · split at next
        · rename_i again
          cases next
          have fits := sound.calls i _ there
          simp only [Endpoint.retries, Bool.and_eq_true, decide_eq_true_eq] at again
          exact sound.put there ⟨rfl, rfl, .inr ⟨rfl, False.elim⟩⟩ Iff.rfl fits.attempts
            ⟨again.1, fits.stage.2⟩ fits.failedOn
        · cases next
          exact sound.unconnected there _
    · cases next
  | ready i failure =>
    simp only [Calls.step] at next
    split at next
    · rename_i k q n failedOn g there
      split at next
      · cases next
        exact sound.send there
      · cases next
        exact sound.fail there (sound.calls i _ there).stage.1 id _
    · cases next
  | answer i =>
    simp only [Calls.step] at next
    split at next
    · rename_i k q n failedOn g there
      have fits := sound.calls i _ there
      split at next
      · cases next
      · rename_i a given
        split at next
        · rename_i r read
          cases next
          exact sound.put there ⟨rfl, rfl, .inr ⟨rfl, fun _ => trivial⟩⟩ Iff.rfl fits.attempts
            ⟨a, given, read⟩ fun u failed => ⟨(fits.failedOn u failed).1, False.elim⟩
        · cases next
          exact sound.fail there fits.stage.1 id _
    · cases next
  | broken i e =>
    simp only [Calls.step] at next
    split at next
    · rename_i k q n failedOn g there
      cases next
      exact sound.fail there (sound.calls i _ there).stage.1 id _
    · cases next
  | reset i =>
    simp only [Calls.step] at next
    split at next
    · rename_i k q n failedOn e there
      split at next
      · cases next
      · rename_i free
        cases next
        exact sound.reset there (by simpa using free)
    · cases next
  | wake i =>
    simp only [Calls.step] at next
    split at next
    · rename_i k q n failedOn there
      have fits := sound.calls i _ there
      cases next
      exact sound.put there ⟨rfl, rfl, .inl (Nat.lt_succ_self n)⟩ Iff.rfl fits.stage trivial
        fits.failedOn
    · cases next
  | drop i =>
    simp only [Calls.step] at next
    split at next
    · cases next
    · rename_i k q n failedOn failures there
      cases next
      exact sound.dropConnecting there
    · rename_i k q n failedOn stage free there
      have apart : ¬ stage.Connecting := by
        intro connecting
        cases stage with
        | connecting failures => exact free failures rfl
        | _ => exact connecting
      split at next
      · cases next
      · cases next
        exact sound.drop there apart
  | net e =>
    obtain ⟨net, moved, rfl⟩ := Option.map_eq_some_iff.1 next
    exact sound.onNet moved

end Events

/-! ## No call is stuck -/

/-- The call can still return. -/
def Calls.CanReturn (p : Endpoint W E Q A R F) (sys : Calls W E Q A R F) (i : Nat) : Prop :=
  ∃ es t c result, exec (Calls.step p) sys es = some t ∧ t.calls i = some c ∧ c.stage = .returned result

theorem Calls.CanReturn.before {e : CallEvent E Q F} (next : sys.step p e = some sys')
    (later : sys'.CanReturn p i) : sys.CanReturn p i := by
  obtain ⟨es, t, c, result, ran, there, returned⟩ := later
  exact ⟨e :: es, t, c, result, exec_cons.2 ⟨sys', next, ran⟩, there, returned⟩

theorem Call.failed_fatal (c : Call Q R F) (on : Option Nat) :
    c.failed p on p.fatal = { c with stage := .returned (.error p.fatal) } := by
  rw [Call.failed, if_neg (by simp [p.ends])]

section Progress
variable {k n : Nat} {q : Q} {failedOn : Option Nat}

theorem Calls.CanReturn.now {result : Except F R}
    (there : sys.calls i = some ⟨k, q, n, failedOn, .returned result⟩) : sys.CanReturn p i :=
  ⟨[], sys, _, result, rfl, there, rfl⟩

theorem Calls.CanReturn.readying {g : Nat} (there : sys.calls i = some ⟨k, q, n, failedOn, .readying g⟩) :
    sys.CanReturn p i := by
  have next : sys.step p (.ready i (some p.fatal)) =
      some (sys.put i ⟨k, q, n, failedOn, .returned (.error p.fatal)⟩) := by
    simp only [Calls.step, there, Call.failed_fatal]
  exact .before next (.now (Function.update_self _ _ _))

theorem Calls.CanReturn.connecting {failures : Nat}
    (there : sys.calls i = some ⟨k, q, n, failedOn, .connecting failures⟩) : sys.CanReturn p i := by
  have last : p.retries failures p.fatal = false := by
    rw [Endpoint.retries, p.ends, Bool.and_false]
  have next : sys.step p (.connect i (some p.fatal)) = some ((sys.setClient k ⟨none, none⟩).put i
      ⟨k, q, n, failedOn, .returned (.error p.fatal)⟩) := by
    simp only [Calls.step, there, last, Bool.false_eq_true, if_false, Call.failed_fatal]
  exact .before next (.now (Function.update_self _ _ _))

theorem Calls.CanReturn.locking (there : sys.calls i = some ⟨k, q, n, failedOn, .locking⟩)
    (free : (sys.clients k).holder = none) : sys.CanReturn p i := by
  cases channel : (sys.clients k).channel with
  | some g =>
    have next : sys.step p (.lock i) = some (sys.put i ⟨k, q, n, failedOn, .readying g⟩) := by
      simp [Calls.step, there, free, channel]
    exact .before next (.readying (Function.update_self _ _ _))
  | none =>
    have next : sys.step p (.lock i) =
        some ((sys.setClient k ⟨none, some i⟩).put i ⟨k, q, n, failedOn, .connecting 0⟩) := by
      simp [Calls.step, there, free, channel]
    exact .before next (.connecting (Function.update_self _ _ _))

theorem Calls.CanReturn.looking (there : sys.calls i = some ⟨k, q, n, failedOn, .looking⟩)
    (free : (sys.clients k).holder = none) : sys.CanReturn p i := by
  cases channel : (sys.clients k).channel with
  | some g =>
    have next : sys.step p (.look i) = some (sys.put i ⟨k, q, n, failedOn, .readying g⟩) := by
      simp [Calls.step, there, free, channel]
    exact .before next (.readying (Function.update_self _ _ _))
  | none =>
    have next : sys.step p (.look i) = some (sys.put i ⟨k, q, n, failedOn, .locking⟩) := by
      simp [Calls.step, there, free, channel]
    exact .before next (.locking (Function.update_self _ _ _) free)

theorem Calls.CanReturn.sleeping (there : sys.calls i = some ⟨k, q, n, failedOn, .sleeping⟩)
    (free : (sys.clients k).holder = none) : sys.CanReturn p i := by
  have next : sys.step p (.wake i) = some (sys.put i ⟨k, q, n + 1, failedOn, .looking⟩) := by
    simp only [Calls.step, there]
  exact .before next (.looking (Function.update_self _ _ _) free)

theorem Calls.CanReturn.resetting {e : F}
    (there : sys.calls i = some ⟨k, q, n, failedOn, .resetting e⟩)
    (free : (sys.clients k).holder = none) : sys.CanReturn p i := by
  have next : sys.step p (.reset i) = some ((sys.setClient k ⟨none, none⟩).put i
      ⟨k, q, n, failedOn, if p.retries n e then .sleeping else .returned (.error e)⟩) := by
    simp [Calls.step, there, free]
  refine .before next ?_
  split
  · exact .sleeping (Function.update_self _ _ _) (by simp [Calls.put, Calls.setClient])
  · exact .now (Function.update_self _ _ _)

/-- A call that is not waiting for the lock of its client can return. -/
theorem Calls.CanReturn.free {stage : CallStage R F} (there : sys.calls i = some ⟨k, q, n, failedOn, stage⟩)
    (free : (sys.clients k).holder = none) (kept : stage ≠ .dropped) : sys.CanReturn p i := by
  cases stage with
  | looking => exact .looking there free
  | locking => exact .locking there free
  | connecting failures => exact .connecting there
  | readying g => exact .readying there
  | waiting g =>
    have next : sys.step p (.broken i p.fatal) =
        some (sys.put i ⟨k, q, n, failedOn, .returned (.error p.fatal)⟩) := by
      simp only [Calls.step, there, Call.failed_fatal]
    exact .before next (.now (Function.update_self _ _ _))
  | resetting e => exact .resetting there free
  | sleeping => exact .sleeping there free
  | returned result => exact .now there
  | dropped => exact (kept rfl).elim

/-- The lock of a client is held only while a connection is made, so that every call can return. -/
theorem Calls.Sound.canReturn [DecidableEq A] {w : W} (sound : sys.Sound p w) (there : sys.calls i = some c)
    (kept : c.stage ≠ .dropped) : sys.CanReturn p i := by
  obtain ⟨k, q, n, failedOn, stage⟩ := c
  cases held : (sys.clients k).holder with
  | none => exact .free there held kept
  | some j =>
    obtain ⟨d, holder⟩ := sound.holders k j held
    obtain ⟨client, connecting⟩ := ((sound.calls j d holder).held k).1 held
    obtain ⟨k', q', n', failedOn', stage'⟩ := d
    cases client
    cases stage' with
    | connecting failures =>
      by_cases own : j = i
      · subst own
        exact .connecting holder
      · have next : sys.step p (.connect j none) =
            some { (sys.setClient k' ⟨some (sys.connections + 1), none⟩).put j
              ⟨k', q', n', failedOn', .readying (sys.connections + 1)⟩ with
                connections := sys.connections + 1 } := by
          simp only [Calls.step, holder]
        have still := (Function.update_of_ne (Ne.symm own)
          (some (⟨k', q', n', failedOn', .readying (sys.connections + 1)⟩ : Call Q R F)) sys.calls).trans there
        exact .before next (.free still (by simp [Calls.put, Calls.setClient]) kept)
    | _ => exact connecting.elim

end Progress

end

/-! ## Runs -/

/-- What becomes of a call, in the log of the server and for its caller. -/
structure Call.Kept (p : Endpoint W E Q A R F) (sys : Calls W E Q A R F) (i : Nat) (c : Call Q R F) : Prop where
  request : ∀ slip q, .took slip q ∈ sys.net.log → slip.caller = i → q = c.request
  bounded : (executions i sys.net.log).length ≤ c.attempt + 1 ∧ c.attempt ≤ p.maxRetries
  ok : ∀ r, c.stage = .returned (.ok r) → .took ⟨i, c.attempt⟩ c.request ∈ sys.net.log ∧
    ∃ a, answerTo sys.net.log ⟨i, c.attempt⟩ = some a ∧ p.decode c.request a = .ok r
  error : ∀ e, c.stage = .returned (.error e) → p.transport e = true → c.attempt = p.maxRetries
  reconnected : ∀ g u, c.stage = .readying g ∨ c.stage = .waiting g → c.failedOn = some u → u < g
  returns : c.stage ≠ .dropped → sys.CanReturn p i

theorem Calls.Sound.kept [DecidableEq A] {p : Endpoint W E Q A R F} {sys : Calls W E Q A R F} {w : W}
    (sound : sys.Sound p w) {i : Nat} {c : Call Q R F} (there : sys.calls i = some c) : c.Kept p sys i := by
  have fits := sound.calls i c there
  have stage := fits.stage
  have request : ∀ slip q, .took slip q ∈ sys.net.log → slip.caller = i → q = c.request :=
    fun slip q member own => (fits.sent (slip, q) (List.mem_append_right _ (mem_takings.2 member)) own).1
  unfold Call.AtStage at stage
  refine ⟨request, ⟨sound.net.executions_le fun m member own => ?_, fits.attempts⟩, fun r returned => ?_,
    fun e returned => ?_, fun g u on failed => ?_, fun kept => sound.canReturn there kept⟩
  · obtain ⟨-, less | ⟨last, -⟩⟩ := fits.sent m member own
    · omega
    · omega
  · simp only [returned] at stage
    obtain ⟨a, given, read⟩ := stage
    obtain ⟨⟨slip, q⟩, member, rfl⟩ := List.mem_map.1 (sound.net.taken _ a given)
    have took := mem_takings.1 member
    rw [request _ q took rfl] at took
    exact ⟨took, a, given, read⟩
  · simp only [returned] at stage
    exact stage
  · rcases on with on | on
    · simp only [on] at stage
      exact stage.2 u failed
    · simp only [on] at stage
      exact stage.2 u failed

theorem Calls.Sound.start [DecidableEq A] (p : Endpoint W E Q A R F) (w : W) : (Calls.start w).Sound p w where
  net := .start _ w
  calls _ _ there := by cases there
  below _ _ there := by cases there
  known _ member := by cases member
  holders _ _ held := by cases held
  channels _ _ found := by cases found

theorem calls_sound [DecidableEq A] {p : Endpoint W E Q A R F} {w : W} {es : List (CallEvent E Q F)}
    {sys : Calls W E Q A R F} (ran : exec (Calls.step p) (.start w) es = some sys) : sys.Sound p w :=
  exec_invariant_always (fun _ _ _ sound next => Calls.Sound.step sound next) (.start p w) ran

end Save.Calling
