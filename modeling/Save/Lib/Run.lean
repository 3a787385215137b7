import Mathlib.Data.List.Basic

/-!
# Runs of a step function

A system is a partial step function over events: `none` where an event is not
possible in a state. `exec` runs a list of events. `Along P` says that every
event of a run meets a condition in the state it is taken in; an invariant that
such steps keep holds in every state reached (`exec_invariant`). A run whose steps
use something up ends (`exec_length_le`, `exec_reaches`).
-/

namespace Save.Run
set_option autoImplicit false

variable {S E : Type} (step : S → E → Option S)

/-- The state after the events, when each is possible in its turn. -/
def exec : S → List E → Option S
  | s, [] => some s
  | s, e :: es => (step s e).bind fun s' => exec s' es

/-- Every event of the run meets `P` in the state it is taken in. -/
def Along (P : S → E → Prop) : S → List E → Prop
  | _, [] => True
  | s, e :: es => P s e ∧ ∀ s', step s e = some s' → Along P s' es

/-- A condition that can be decided can be checked along a run. -/
instance decidableAlong (P : S → E → Prop) [∀ s e, Decidable (P s e)] (s : S) :
    (es : List E) → Decidable (Along step P s es)
  | [] => .isTrue trivial
  | e :: es =>
    match taken : step s e with
    | none => decidable_of_iff (P s e) ⟨fun here => ⟨here, by simp [taken]⟩, fun along => along.1⟩
    | some s' =>
      have := decidableAlong P s' es
      decidable_of_iff (P s e ∧ Along step P s' es)
        ⟨fun h => ⟨h.1, fun t next => by rw [taken] at next; cases next; exact h.2⟩,
          fun along => ⟨along.1, along.2 s' taken⟩⟩

variable {step}

theorem exec_cons {s t : S} {e : E} {es : List E} :
    exec step s (e :: es) = some t ↔ ∃ s', step s e = some s' ∧ exec step s' es = some t :=
  Option.bind_eq_some_iff

theorem exec_append (s : S) (es es' : List E) :
    exec step s (es ++ es') = (exec step s es).bind fun s' => exec step s' es' := by
  induction es generalizing s with
  | nil => rfl
  | cons e es ih =>
    simp only [List.cons_append, exec, Option.bind_assoc]
    exact Option.bind_congr fun s' _ => ih s'

/-- **Invariants.** What holds at the start and is kept by every step that meets `P`
holds in every state that a run of such steps reaches. -/
theorem exec_invariant {P : S → E → Prop} {I : S → Prop}
    (kept : ∀ s e s', I s → P s e → step s e = some s' → I s') {s t : S} {es : List E}
    (start : I s) (along : Along step P s es) (ran : exec step s es = some t) : I t := by
  induction es generalizing s with
  | nil =>
    cases ran
    exact start
  | cons e es ih =>
    obtain ⟨s', first, rest⟩ := exec_cons.1 ran
    have here : P s e := along.1
    have later : Along step P s' es := along.2 s' first
    exact ih (kept s e s' start here first) later rest

/-- A run in two parts. -/
theorem along_append {P : S → E → Prop} {s : S} {es es' : List E} :
    Along step P s (es ++ es') ↔
      Along step P s es ∧ ∀ t, exec step s es = some t → Along step P t es' := by
  induction es generalizing s with
  | nil => simp [Along, exec]
  | cons e es ih =>
    simp only [List.cons_append, Along, ih, exec_cons]
    constructor
    · rintro ⟨here, later⟩
      refine ⟨⟨here, fun s' next => (later s' next).1⟩, ?_⟩
      rintro t ⟨s', next, ran⟩
      exact (later s' next).2 t ran
    · rintro ⟨⟨here, first⟩, second⟩
      exact ⟨here, fun s' next => ⟨first s' next, fun t ran => second t ⟨s', next, ran⟩⟩⟩

theorem along_and {P Q : S → E → Prop} {s : S} {es : List E} (first : Along step P s es)
    (second : Along step Q s es) : Along step (fun s e => P s e ∧ Q s e) s es := by
  induction es generalizing s with
  | nil => trivial
  | cons e es ih =>
    exact ⟨⟨first.1, second.1⟩, fun s' next => ih (first.2 s' next) (second.2 s' next)⟩

/-- A condition on the events alone. -/
theorem along_of_mem {P : S → E → Prop} {es : List E} (all : ∀ e ∈ es, ∀ s, P s e) (s : S) :
    Along step P s es := by
  induction es generalizing s with
  | nil => trivial
  | cons e es ih =>
    refine ⟨all e List.mem_cons_self s, fun s' _ => ?_⟩
    exact ih (fun e' later => all e' (List.mem_cons_of_mem _ later)) s'

/-- What holds at the start and is kept by every step holds in every state reached. -/
theorem exec_invariant_always {I : S → Prop} (kept : ∀ s e s', I s → step s e = some s' → I s')
    {s t : S} {es : List E} (start : I s) (ran : exec step s es = some t) : I t :=
  exec_invariant (P := fun _ _ => True) (fun s e s' here _ => kept s e s' here) start
    (along_of_mem (fun _ _ _ => trivial) s) ran

/-! ## What holds throughout a run -/

variable (step) in
/-- `I` holds in every state the run goes through. -/
def Throughout (I : S → Prop) (s : S) (es : List E) : Prop :=
  ∀ before after t, es = before ++ after → exec step s before = some t → I t

theorem throughout_cons {I : S → Prop} {s : S} {e : E} {es : List E} :
    Throughout step I s (e :: es) ↔ I s ∧ ∀ s', step s e = some s' → Throughout step I s' es := by
  constructor
  · intro all
    refine ⟨all [] (e :: es) s rfl rfl, fun s' next before after t split ran => ?_⟩
    exact all (e :: before) after t (by rw [split]; rfl) (exec_cons.2 ⟨s', next, ran⟩)
  · rintro ⟨here, later⟩ before after t split ran
    cases before with
    | nil =>
      cases ran
      exact here
    | cons e' before =>
      obtain ⟨rfl, rest⟩ := List.cons.inj split
      obtain ⟨s', next, ran⟩ := exec_cons.1 ran
      exact later s' next before after t rest ran

/-- Where the steps that meet `P` keep `I` and the others lose it, `I` holds throughout a run exactly
when all its steps meet `P`. -/
theorem throughout_iff_along {P : S → E → Prop} {I : S → Prop}
    (kept : ∀ s e s', I s → P s e → step s e = some s' → I s')
    (lost : ∀ s e, I s → ¬ P s e → ∃ s', step s e = some s' ∧ ¬ I s') {s : S} (start : I s)
    (es : List E) : Throughout step I s es ↔ Along step P s es := by
  induction es generalizing s with
  | nil =>
    refine iff_of_true (fun before after t split ran => ?_) trivial
    obtain ⟨rfl, -⟩ := List.append_eq_nil_iff.1 split.symm
    cases ran
    exact start
  | cons e es ih =>
    rw [throughout_cons]
    constructor
    · rintro ⟨-, later⟩
      have here : P s e := by
        by_contra other
        obtain ⟨s', next, gone⟩ := lost s e start other
        exact gone (later s' next [] es s' rfl rfl)
      exact ⟨here, fun s' next => (ih (kept s e s' start here next)).1 (later s' next)⟩
    · rintro ⟨here, later⟩
      exact ⟨start, fun s' next => (ih (kept s e s' start here next)).2 (later s' next)⟩

/-! ## Runs that end -/

section Ends

variable {μ : S → Nat} (uses : ∀ s e s', step s e = some s' → μ s' < μ s)
include uses

/-- When every step uses something up, a run is no longer than what there is. -/
theorem exec_length_le {s t : S} {es : List E} (ran : exec step s es = some t) :
    es.length + μ t ≤ μ s := by
  induction es generalizing s with
  | nil =>
    cases ran
    simp
  | cons e es ih =>
    obtain ⟨s', first, rest⟩ := exec_cons.1 ran
    have later := ih rest
    have used := uses s e s' first
    simp only [List.length_cons]
    omega

/-- When a step is possible in every state that is not final, every run can be brought to its end. -/
theorem exec_reaches {Final : S → Prop} (moves : ∀ s, ¬ Final s → ∃ e s', step s e = some s') (s : S) :
    ∃ es t, exec step s es = some t ∧ Final t := by
  induction left : μ s using Nat.strongRecOn generalizing s with
  | _ n ih =>
    by_cases final : Final s
    · exact ⟨[], s, rfl, final⟩
    · obtain ⟨e, s', next⟩ := moves s final
      have used := uses s e s' next
      obtain ⟨es, t, ran, there⟩ := ih (μ s') (by omega) s' rfl
      exact ⟨e :: es, t, exec_cons.2 ⟨s', next, ran⟩, there⟩

end Ends

end Save.Run
