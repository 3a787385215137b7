import Save.Lib.Calls
import Save.Storage.Objects

/-!
# Calls of the replication client

`call_unary` of `ReplicationClient` (`replication/client.rs`), for any number of
calls over any number of clients: `get_channel` takes the cached connection or makes
one with `do_connect` under the lock of the client, the request is sent, and after a
transport error `reset_connection` gives up the connection and `retry_with_backoff`
(`retry.rs`) tries again. The server and the messages are parameters; delays are not
modelled, a call that sleeps may wake at any time.
-/

namespace Save.Replication
set_option autoImplicit false
open Save.Text Save.Storage Save.Run Save.Delivery Save.Calling

/-- `to_lowercase`, as far as it matters to a search for ASCII text: two other characters have ASCII
letters in their lower case. -/
def lowerChar (c : Char) : List Char :=
  if c = '\u212A' then ['k']
  else if c = '\u0130' then ['i', '\u0307']
  else [c.toLower]

def transportTexts : List String :=
  ["connection", "unavailable", "transport", "timeout", "reset", "broken pipe"]

/-- `is_transport_error`: told by the text of the error. -/
def isTransportError : StorageError → Bool
  | .io msg => transportTexts.any (containsStr (String.ofList (msg.toList.flatMap lowerChar)))
  | _ => false

theorem not_isTransportError_empty : isTransportError (.io "") = false := by decide +kernel

variable {W E Q A R : Type}

/-- The calls of `ReplicationClient`, with `max_retries` of its `RetryConfig` and the reading of an
answer. They fail with `StorageError::Io`, here with its text. -/
def replica (server : Server W E Q A) (maxRetries : Nat) (decode : Q → A → Except String R) :
    Endpoint W E Q A R String :=
  ⟨server, maxRetries, decode, fun msg => isTransportError (.io msg), "", not_isTransportError_empty⟩

/-- **At least once.** Whatever the network does: a request is taken only as its caller made it and
no more often than it was tried, also after the caller has stopped waiting; a response is the
server's answer to the last attempt; only a transport error that came with the last attempt is
passed on; a connection that an attempt failed on is not used again; and no call is stuck. -/
theorem calls_at_least_once [DecidableEq A] (server : Server W E Q A) (maxRetries : Nat)
    (decode : Q → A → Except String R) (w : W) (es : List (CallEvent E Q String))
    {sys : Calls W E Q A R String}
    (ran : exec (Calls.step (replica server maxRetries decode)) (Calls.start w) es = some sys) :
    exec server.happen w sys.net.log = some sys.net.server ∧
      (∀ slip q, .took slip q ∈ sys.net.log → ∃ c, sys.calls slip.caller = some c) ∧
      ∀ i c, sys.calls i = some c → c.Kept (replica server maxRetries decode) sys i := by
  have sound := calls_sound ran
  refine ⟨sound.net.ran, fun slip q member => ?_, fun i c there => sound.kept there⟩
  exact sound.known (slip, q) (List.mem_append_right _ (mem_takings.2 member))

/-- A server that counts what it takes. -/
def counting : Server Nat Unit Nat Nat := ⟨fun w _ _ => w + 1, fun w _ => some w, fun w _ => some w⟩

def sampleEndpoint : Endpoint Nat Unit Nat Nat Nat String := replica counting 1 fun _ => .ok

/-- The connection breaks when the first request has been taken. -/
def sampleRetry : List (CallEvent Unit Nat String) :=
  [.call 0 7, .look 0, .lock 0, .connect 0 none, .ready 0 none, .net (.take 0),
    .broken 0 "connection reset", .reset 0, .wake 0, .look 0, .lock 0, .connect 0 none, .ready 0 none,
    .net (.take 0), .net (.answer ⟨0, 1⟩), .answer 0]

theorem sample_taken_twice : ∃ sys, exec (Calls.step sampleEndpoint) (.start 0) sampleRetry = some sys ∧
    (executions 0 sys.net.log).length = 2 ∧ ∀ c, sys.calls 0 = some c → c.Kept sampleEndpoint sys 0 := by
  have ends : (exec (Calls.step sampleEndpoint) (.start 0) sampleRetry).map
      (fun sys => (executions 0 sys.net.log).length) = some 2 := by decide +kernel
  obtain ⟨sys, ran, twice⟩ := Option.map_eq_some_iff.1 ends
  exact ⟨sys, ran, twice, fun c there => (calls_at_least_once counting 1 (fun _ => .ok) 0 sampleRetry ran).2.2 0 c there⟩

end Save.Replication
