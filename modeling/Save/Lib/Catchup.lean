import Mathlib.Data.List.Basic
import Mathlib.Logic.Function.Basic

/-!
# Following a log of last writes

A log whose entries each set at most one key determines, for every key, what the
last entry on it left (`after`). A follower that has taken `done` entries into
account need not hold exactly that state for the entries so far: it may be ahead
of its position, having executed entries it will execute again. `Agrees` is what
survives this: every key that no entry from the position on sets is as the whole
log leaves it. It is kept when the log grows, when the position falls back, and
when the next entry is executed; a follower with nothing left to take into
account holds the state of the log.
-/

namespace Save.Catchup
set_option autoImplicit false

variable {E K W : Type} [DecidableEq K] (effect : E → Option (K × W)) (initial : K → W)

/-- What an entry sets a key to, when it sets that key. -/
def setsTo (k : K) (e : E) : Option W :=
  match effect e with
  | some (k', w) => if k' = k then some w else none
  | none => none

/-- What the last entry on a key left there. -/
def after (log : List E) (k : K) : W := (log.filterMap (setsTo effect k)).getLast?.getD (initial k)

/-- No entry sets the key. -/
def Untouched (k : K) (entries : List E) : Prop := ∀ e ∈ entries, setsTo effect k e = none

/-- State `s` follows `log` from position `done`. -/
structure Agrees (log : List E) (done : Nat) (s : K → W) : Prop where
  within : done ≤ log.length
  settled : ∀ k, Untouched effect k (log.drop done) → s k = after effect initial log k

/-- A state after an entry. -/
def execute (s : K → W) (e : E) : K → W :=
  match effect e with
  | some (k, w) => Function.update s k w
  | none => s

variable {effect initial}

theorem setsTo_eq_some {k : K} {e : E} {w : W} :
    setsTo effect k e = some w ↔ effect e = some (k, w) := by
  unfold setsTo
  cases effect e with
  | none => simp
  | some p =>
    obtain ⟨k', w'⟩ := p
    by_cases same : k' = k
    · subst same
      simp
    · simp [same]

theorem setsTo_eq_none {k : K} {e : E} : setsTo effect k e = none ↔ ∀ w, effect e ≠ some (k, w) := by
  rw [Option.eq_none_iff_forall_ne_some]
  exact forall_congr' fun w => not_congr setsTo_eq_some

theorem after_append_of_untouched {k : K} (log : List E) {more : List E}
    (untouched : Untouched effect k more) :
    after effect initial (log ++ more) k = after effect initial log k := by
  have nothing : more.filterMap (setsTo effect k) = [] := List.filterMap_eq_nil_iff.2 untouched
  rw [after, List.filterMap_append, nothing, List.append_nil, after]

/-- The last entry on a key is the one that counts. -/
theorem after_of_last {k : K} {e : E} {w : W} (before : List E) {rest : List E}
    (sets : effect e = some (k, w)) (untouched : Untouched effect k rest) :
    after effect initial (before ++ e :: rest) k = w := by
  have split : before ++ e :: rest = (before ++ [e]) ++ rest := by simp
  have last : [e].filterMap (setsTo effect k) = [w] := by simp [setsTo_eq_some.2 sets]
  rw [split, after_append_of_untouched _ untouched, after, List.filterMap_append, last,
    List.getLast?_append]
  rfl

/-- A key that no entry sets is as it was. -/
theorem after_of_untouched {k : K} {log : List E} (untouched : Untouched effect k log) :
    after effect initial log k = initial k := by
  have nothing : log.filterMap (setsTo effect k) = [] := List.filterMap_eq_nil_iff.2 untouched
  rw [after, nothing]
  rfl

/-! ## Followers -/

variable {log : List E} {done : Nat} {s : K → W}

theorem Agrees.start (log : List E) : Agrees effect initial log 0 initial where
  within := Nat.zero_le _
  settled k untouched := by
    rw [List.drop_zero] at untouched
    exact (after_of_untouched untouched).symm

theorem Agrees.grow (agrees : Agrees effect initial log done s) (more : List E) :
    Agrees effect initial (log ++ more) done s where
  within := by
    have := agrees.within
    simp only [List.length_append]
    omega
  settled k untouched := by
    rw [List.drop_append_of_le_length agrees.within] at untouched
    have here : Untouched effect k (log.drop done) :=
      fun e member => untouched e (List.mem_append_left _ member)
    have later : Untouched effect k more :=
      fun e member => untouched e (List.mem_append_right _ member)
    rw [after_append_of_untouched log later]
    exact agrees.settled k here

/-- A follower may be ahead of its position. -/
theorem Agrees.fallBack (agrees : Agrees effect initial log done s) {earlier : Nat}
    (less : earlier ≤ done) : Agrees effect initial log earlier s where
  within := Nat.le_trans less agrees.within
  settled k untouched := by
    apply agrees.settled
    intro e member
    apply untouched e
    have split : log.drop done = (log.drop earlier).drop (done - earlier) := by
      rw [List.drop_drop, Nat.add_sub_cancel' less]
    rw [split] at member
    exact List.mem_of_mem_drop member

/-- The next entry is executed, whatever its key held. -/
theorem Agrees.advance (agrees : Agrees effect initial log done s) {e : E}
    (next : log[done]? = some e) : Agrees effect initial log (done + 1) (execute effect s e) := by
  obtain ⟨short, here⟩ := List.getElem?_eq_some_iff.1 next
  have rest : log.drop done = e :: log.drop (done + 1) := by
    rw [List.drop_eq_getElem_cons short, here]
  have whole : log = log.take done ++ e :: log.drop (done + 1) := by
    rw [← rest, List.take_append_drop]
  refine ⟨short, fun k untouched => ?_⟩
  cases sets : setsTo effect k e with
  | some w =>
    have effect_e := setsTo_eq_some.1 sets
    rw [whole, after_of_last _ effect_e untouched]
    simp [execute, effect_e]
  | none =>
    have kept : execute effect s e k = s k := by
      unfold execute
      cases effect_e : effect e with
      | none => rfl
      | some p =>
        obtain ⟨k', w⟩ := p
        have other : k ≠ k' := by
          rintro rfl
          exact setsTo_eq_none.1 sets w effect_e
        exact Function.update_of_ne other _ _
    rw [kept]
    apply agrees.settled
    rw [rest]
    intro e' member
    rcases List.mem_cons.1 member with rfl | later
    · exact sets
    · exact untouched e' later

end Save.Catchup
