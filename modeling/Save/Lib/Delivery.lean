import Save.Lib.Run
import Mathlib.Data.List.Induction
import Mathlib.Data.List.Nodup
import Mathlib.Data.List.Perm.Subperm

/-!
# Requests on an unreliable network

Callers send requests to a server, each attempt under a slip of its own. A
request on its way may come late or not at all, and the server takes it once;
an answer goes to the slip of a request that was taken. The log says what the
server did, and the server is in the state that the log leads to (`Net.Sound`),
whatever the server is.
-/

namespace Save.Delivery
set_option autoImplicit false
open Save.Run

variable {W E Q A : Type}

structure Slip where
  caller : Nat
  attempt : Nat
  deriving DecidableEq, Repr

/-- A server takes requests and makes steps of its own; it may have an answer for a slip. -/
structure Server (W E Q A : Type) where
  take : W → Slip → Q → W
  step : W → E → Option W
  answer : W → Slip → Option A

inductive Happening (E Q A : Type) where
  | took (slip : Slip) (q : Q)
  | stepped (e : E)
  | answered (slip : Slip) (a : A)

def Happening.taken : Happening E Q A → Option (Slip × Q)
  | .took slip q => some (slip, q)
  | _ => none

def Happening.answerTo (slip : Slip) : Happening E Q A → Option A
  | .answered slip' a => if slip' = slip then some a else none
  | _ => none

/-- What the server does; it gives no other answer than its own. -/
def Server.happen [DecidableEq A] (server : Server W E Q A) (w : W) : Happening E Q A → Option W
  | .took slip q => some (server.take w slip q)
  | .stepped e => server.step w e
  | .answered slip a => if server.answer w slip = some a then some w else none

structure Net (W E Q A : Type) where
  server : W
  /-- Requests on their way. -/
  flying : List (Slip × Q)
  log : List (Happening E Q A)

def Net.start (w : W) : Net W E Q A := ⟨w, [], []⟩

/-- The requests that the server has taken. -/
def takings (log : List (Happening E Q A)) : List (Slip × Q) := log.filterMap Happening.taken

/-- The requests that are on their way or were taken. -/
def Net.sent (net : Net W E Q A) : List (Slip × Q) := net.flying ++ takings net.log

/-- The answer under a slip. -/
def answerTo (log : List (Happening E Q A)) (slip : Slip) : Option A :=
  log.findSome? (Happening.answerTo slip)

def Net.send (net : Net W E Q A) (slip : Slip) (q : Q) : Net W E Q A :=
  { net with flying := net.flying ++ [(slip, q)] }

inductive NetEvent (E : Type) where
  | take (j : Nat)
  | lose (j : Nat)
  | step (e : E)
  /-- The server answers a request that it has taken and not answered. -/
  | answer (slip : Slip)

def Net.step (server : Server W E Q A) (net : Net W E Q A) : NetEvent E → Option (Net W E Q A)
  | .take j =>
    net.flying[j]?.map fun message =>
      ⟨server.take net.server message.1 message.2, net.flying.eraseIdx j,
        net.log ++ [.took message.1 message.2]⟩
  | .lose j => some { net with flying := net.flying.eraseIdx j }
  | .step e =>
    (server.step net.server e).map fun w => { net with server := w, log := net.log ++ [.stepped e] }
  | .answer slip => do
    let a ← server.answer net.server slip
    if slip ∈ (takings net.log).map Prod.fst ∧ (answerTo net.log slip).isNone then
      return { net with log := net.log ++ [.answered slip a] }
    else none

/-! ## What one event does -/

theorem takings_append (log log' : List (Happening E Q A)) :
    takings (log ++ log') = takings log ++ takings log' := List.filterMap_append

theorem mem_takings {log : List (Happening E Q A)} {slip : Slip} {q : Q} :
    (slip, q) ∈ takings log ↔ .took slip q ∈ log := by
  rw [takings, List.mem_filterMap]
  constructor
  · rintro ⟨h, member, same⟩
    cases h with
    | took slip' q' =>
      cases same
      exact member
    | _ => cases same
  · intro member
    exact ⟨_, member, rfl⟩

theorem mem_of_answerTo {log : List (Happening E Q A)} {slip : Slip} {a : A}
    (there : answerTo log slip = some a) : .answered slip a ∈ log := by
  obtain ⟨h, member, found⟩ := List.exists_of_findSome?_eq_some there
  cases h with
  | answered slip' a' =>
    simp only [Happening.answerTo, Option.ite_none_right_eq_some, Option.some.injEq] at found
    obtain ⟨rfl, rfl⟩ := found
    exact member
  | _ => cases found

theorem answerTo_append {log : List (Happening E Q A)} (log' : List (Happening E Q A)) {slip : Slip} {a : A}
    (there : answerTo log slip = some a) : answerTo (log ++ log') slip = some a := by
  rw [answerTo, List.findSome?_append]
  exact Option.or_eq_some_iff.2 (.inl there)

/-- What the server did leads to the state it is in, and every slip is used once. -/
structure Net.Sound [DecidableEq A] (server : Server W E Q A) (w : W) (net : Net W E Q A) : Prop where
  ran : exec server.happen w net.log = some net.server
  once : (net.sent.map Prod.fst).Nodup
  /-- An answer is to a request that was taken. -/
  taken : ∀ slip a, answerTo net.log slip = some a → slip ∈ (takings net.log).map Prod.fst

variable [DecidableEq A] {server : Server W E Q A} {w : W} {net net' : Net W E Q A}

theorem Net.Sound.start (server : Server W E Q A) (w : W) : (Net.start w).Sound server w where
  ran := rfl
  once := List.nodup_nil
  taken _ _ there := by cases there

omit [DecidableEq A] in
theorem Net.mem_send {slip : Slip} {q : Q} {m : Slip × Q} :
    m ∈ (net.send slip q).sent ↔ m ∈ net.sent ∨ m = (slip, q) := by
  simp only [Net.sent, Net.send, List.mem_append, List.mem_singleton]
  tauto

theorem Net.Sound.send (sound : net.Sound server w) {slip : Slip} {q : Q}
    (fresh : slip ∉ net.sent.map Prod.fst) : (net.send slip q).Sound server w where
  ran := sound.ran
  once := by
    have moved : ((net.send slip q).sent.map Prod.fst).Perm (slip :: net.sent.map Prod.fst) := by
      simp only [Net.send, Net.sent, List.append_assoc, List.map_append, List.map_cons, List.singleton_append]
      exact List.perm_middle
    exact moved.nodup_iff.2 (List.nodup_cons.2 ⟨fresh, sound.once⟩)
  taken := sound.taken

omit [DecidableEq A] in
/-- Nothing is sent by what happens to what was sent. -/
theorem Net.sent_step {e : NetEvent E} (next : net.step server e = some net') :
    ∃ rest, (net'.sent ++ rest).Perm net.sent := by
  cases e with
  | take j =>
    obtain ⟨message, found, rfl⟩ := Option.map_eq_some_iff.1 next
    refine ⟨[], ?_⟩
    have back : (message :: net.flying.eraseIdx j).Perm net.flying := by
      obtain ⟨bound, rfl⟩ := List.getElem?_eq_some_iff.1 found
      exact List.getElem_cons_eraseIdx_perm bound
    have same : takings [Happening.took (E := E) (A := A) message.1 message.2] = [message] := rfl
    simp only [Net.sent, takings_append, same, List.append_nil]
    calc net.flying.eraseIdx j ++ (takings net.log ++ [message])
        _ = (net.flying.eraseIdx j ++ takings net.log) ++ [message] := (List.append_assoc _ _ _).symm
        List.Perm _ (message :: (net.flying.eraseIdx j ++ takings net.log)) := List.perm_append_singleton _ _
        List.Perm _ (net.flying ++ takings net.log) := back.append_right _
  | lose j =>
    cases next
    cases found : net.flying[j]? with
    | none =>
      refine ⟨[], ?_⟩
      rw [List.eraseIdx_of_length_le (List.getElem?_eq_none_iff.1 found), List.append_nil]
    | some message =>
      refine ⟨[message], ?_⟩
      have back : (message :: net.flying.eraseIdx j).Perm net.flying := by
        obtain ⟨bound, rfl⟩ := List.getElem?_eq_some_iff.1 found
        exact List.getElem_cons_eraseIdx_perm bound
      exact (List.perm_append_singleton _ _).trans (back.append_right _)
  | step e =>
    obtain ⟨w', -, rfl⟩ := Option.map_eq_some_iff.1 next
    refine ⟨[], ?_⟩
    have none : takings [Happening.stepped (Q := Q) (A := A) e] = [] := rfl
    simp only [Net.sent, takings_append, none, List.append_nil]
    exact List.Perm.refl _
  | answer slip =>
    obtain ⟨a, -, rest⟩ := Option.bind_eq_some_iff.1 next
    split at rest
    · cases rest
      refine ⟨[], ?_⟩
      have none : takings [Happening.answered (E := E) (Q := Q) slip a] = [] := rfl
      simp only [Net.sent, takings_append, none, List.append_nil]
      exact List.Perm.refl _
    · cases rest

omit [DecidableEq A] in
theorem Net.mem_sent_step {e : NetEvent E} (next : net.step server e = some net') {m : Slip × Q}
    (member : m ∈ net'.sent) : m ∈ net.sent := by
  obtain ⟨rest, moved⟩ := Net.sent_step next
  exact moved.subset (List.mem_append_left _ member)

theorem Net.happen_step {e : NetEvent E} (next : net.step server e = some net') :
    ∃ happenings, net'.log = net.log ++ happenings ∧
      exec server.happen net.server happenings = some net'.server ∧
      ∀ slip a, .answered slip a ∈ happenings → slip ∈ (takings net.log).map Prod.fst := by
  cases e with
  | take j =>
    obtain ⟨message, -, rfl⟩ := Option.map_eq_some_iff.1 next
    refine ⟨_, rfl, rfl, fun slip a member => ?_⟩
    simp at member
  | lose j =>
    cases next
    exact ⟨[], (List.append_nil _).symm, rfl, fun slip a member => absurd member List.not_mem_nil⟩
  | step e =>
    obtain ⟨w', moved, rfl⟩ := Option.map_eq_some_iff.1 next
    refine ⟨_, rfl, ?_, fun slip a member => ?_⟩
    · simp [exec, Server.happen, moved]
    · simp at member
  | answer slip =>
    obtain ⟨a, given, rest⟩ := Option.bind_eq_some_iff.1 next
    split at rest
    · rename_i due
      cases rest
      refine ⟨_, rfl, ?_, fun slip' a' member => ?_⟩
      · simp [exec, Server.happen, given]
      · simp only [List.mem_singleton, Happening.answered.injEq] at member
        rw [member.1]
        exact due.1
    · cases rest

/-- What happens on the net keeps it sound. -/
theorem Net.Sound.step (sound : net.Sound server w) {e : NetEvent E}
    (next : net.step server e = some net') : net'.Sound server w := by
  obtain ⟨happenings, log, ran, due⟩ := Net.happen_step next
  refine ⟨?_, ?_, fun slip a there => ?_⟩
  · rw [log, exec_append, sound.ran]
    exact ran
  · obtain ⟨rest, moved⟩ := Net.sent_step next
    have all := (moved.map Prod.fst).nodup_iff.2 sound.once
    rw [List.map_append] at all
    exact (List.nodup_append.1 all).1
  · rw [log, takings_append, List.map_append, List.mem_append]
    rw [log, answerTo, List.findSome?_append, Option.or_eq_some_iff] at there
    rcases there with old | ⟨-, new⟩
    · exact .inl (sound.taken slip a old)
    · exact .inl (due slip a (mem_of_answerTo new))

/-! ## How often a request is taken -/

/-- The requests of a caller that the server has taken. -/
def executions (caller : Nat) (log : List (Happening E Q A)) : List (Slip × Q) :=
  (takings log).filter fun m => m.1.caller = caller

/-- A caller's request is taken once an attempt. -/
theorem Net.Sound.executions_le (sound : net.Sound server w) {caller attempts : Nat}
    (below : ∀ m ∈ net.sent, m.1.caller = caller → m.1.attempt < attempts) :
    (executions caller net.log).length ≤ attempts := by
  have slips : ((takings net.log).map Prod.fst).Nodup := by
    have all := sound.once
    rw [Net.sent, List.map_append] at all
    exact (List.nodup_append.1 all).2.1
  have own : ((executions caller net.log).map Prod.fst).Nodup :=
    slips.sublist (List.filter_sublist.map _)
  have here : ∀ m ∈ executions caller net.log, m ∈ takings net.log ∧ m.1.caller = caller := by
    intro m member
    simpa [executions] using member
  have numbers : ((executions caller net.log).map fun m => m.1.attempt).Nodup := by
    apply List.Nodup.map_on _ (List.Nodup.of_map _ own)
    intro m member m' member' same
    have slip : m.1 = m'.1 := by
      obtain ⟨⟨c, n⟩, q⟩ := m
      obtain ⟨⟨c', n'⟩, q'⟩ := m'
      have callers : c = c' := (here _ member).2.trans (here _ member').2.symm
      simp only at same
      rw [callers, same]
    exact List.inj_on_of_nodup_map own member member' slip
  have inside : (executions caller net.log).map (fun m => m.1.attempt) ⊆ List.range attempts := by
    intro n member
    obtain ⟨m, there, rfl⟩ := List.mem_map.1 member
    exact List.mem_range.2 (below m (List.mem_append_right _ (here m there).1) (here m there).2)
  have bound := (numbers.subperm inside).length_le
  rwa [List.length_map, List.length_range] at bound

/-! ## Servers that take one request at a time -/

/-- The state of a server with the answers it has given. -/
structure Desk (T A : Type) where
  state : T
  answers : Slip → Option A

variable {T : Type}

def Desk.start (state : T) : Desk T A := ⟨state, fun _ => none⟩

/-- A request is served when it is taken. -/
def Server.atomic (serve : T → Q → T × A) (own : T → E → Option T) : Server (Desk T A) E Q A where
  take w slip q := ⟨(serve w.state q).1, Function.update w.answers slip (some (serve w.state q).2)⟩
  step w e := (own w.state e).map fun state => { w with state }
  answer w slip := w.answers slip

variable {serve : T → Q → T × A} {own : T → E → Option T} {t : T}

/-- An answer at the desk is to a request that was served. -/
theorem answers_served {log : List (Happening E Q A)} {w : Desk T A}
    (ran : exec (Server.atomic serve own).happen (.start t) log = some w) {slip : Slip} {a : A}
    (there : w.answers slip = some a) : ∃ before q after w', log = before ++ .took slip q :: after ∧
      exec (Server.atomic serve own).happen (.start t) before = some w' ∧ (serve w'.state q).2 = a := by
  induction log using List.reverseRecOn generalizing w with
  | nil =>
    cases ran
    cases there
  | append_singleton log h ih =>
    rw [exec_append] at ran
    obtain ⟨w₀, first, last⟩ := Option.bind_eq_some_iff.1 ran
    obtain ⟨w₁, happened, same⟩ := exec_cons.1 last
    cases same
    have earlier : w₀.answers slip = some a → ∃ before q after w', log ++ [h] = before ++ .took slip q :: after ∧
        exec (Server.atomic serve own).happen (.start t) before = some w' ∧ (serve w'.state q).2 = a := by
      intro old
      obtain ⟨before, q, after, w', rfl, reached, served⟩ := ih first old
      exact ⟨before, q, after ++ [h], w', by simp, reached, served⟩
    cases h with
    | took slip' q =>
      cases happened
      simp only [Server.atomic, Function.update_apply] at there
      split at there
      · rename_i same
        cases there
        exact ⟨log, q, [], w₀, by rw [same], first, rfl⟩
      · exact earlier there
    | stepped e =>
      obtain ⟨state, -, rfl⟩ := Option.map_eq_some_iff.1 happened
      exact earlier there
    | answered slip' a' =>
      simp only [Server.happen, Option.ite_none_right_eq_some] at happened
      obtain ⟨-, happened⟩ := happened
      cases happened
      exact earlier there

/-- What is answered was served, in the state that the log before it leads to. -/
theorem Net.Sound.served {net : Net (Desk T A) E Q A} (sound : net.Sound (.atomic serve own) (.start t))
    {slip : Slip} {a : A} (answered : answerTo net.log slip = some a) :
    ∃ before q after w', net.log = before ++ .took slip q :: after ∧
      exec (Server.atomic serve own).happen (.start t) before = some w' ∧ (serve w'.state q).2 = a := by
  obtain ⟨before, after, log⟩ := List.append_of_mem (mem_of_answerTo answered)
  have ran := sound.ran
  rw [log, exec_append] at ran
  obtain ⟨w', first, rest⟩ := Option.bind_eq_some_iff.1 ran
  obtain ⟨w'', happened, -⟩ := exec_cons.1 rest
  simp only [Server.happen, Option.ite_none_right_eq_some] at happened
  obtain ⟨before', q, after', w₀, rfl, reached, served⟩ := answers_served first happened.1
  exact ⟨before', q, after' ++ .answered slip a :: after, w₀, by rw [log]; simp, reached, served⟩

end Save.Delivery
