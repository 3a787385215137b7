import Mathlib.Logic.Function.Basic
import Mathlib.Data.List.Forall2

/-!
# Machines of independent cells

A state is a family of cells, and a command acts on at most one of them, as a
function of that cell alone; it may fail. A run over the whole family is then
the same as one run for each cell over the commands that touch it
(`run_eq_some_iff`), so that a question about two runs of the machine becomes a
question about two runs of a single cell.
-/

namespace Save.Cells
set_option autoImplicit false

/-- Commands `C` over cells indexed by `K`; `act` is `none` where a command fails. -/
structure Machine (C K V : Type) where
  cell : C → Option K
  act : C → Option V → Option (Option V)

/-- A state: what each cell holds. -/
abbrev State (K V : Type) := K → Option V

variable {C K V : Type} [DecidableEq K] (m : Machine C K V)

def Machine.step (s : State K V) (c : C) : Option (State K V) :=
  match m.cell c with
  | none => some s
  | some k => (m.act c (s k)).map (Function.update s k)

def Machine.run : List C → State K V → Option (State K V)
  | [], s => some s
  | c :: cs, s => (m.step s c).bind (run cs)

/-- The run of one cell. -/
def Machine.runCell (k : K) : List C → Option V → Option (Option V)
  | [], v => some v
  | c :: cs, v => if m.cell c = some k then (m.act c v).bind (runCell k cs) else runCell k cs v

/-- The commands before the first one that fails. -/
def Machine.accepted : List C → State K V → List C
  | [], _ => []
  | c :: cs, s =>
    match m.step s c with
    | none => []
    | some s' => c :: accepted cs s'

/-- The state in which a run stops, at its end or at its first failure. -/
def Machine.final : List C → State K V → State K V
  | [], s => s
  | c :: cs, s =>
    match m.step s c with
    | none => s
    | some s' => final cs s'

/-- The commands that touch a cell. -/
def Machine.touching (k : K) (cs : List C) : List C := cs.filter fun c => m.cell c = some k

/-! ## Runs -/

theorem Machine.step_of_none {s : State K V} {c : C} (cell : m.cell c = none) :
    m.step s c = some s := by
  simp [step, cell]

theorem Machine.step_of_some {s : State K V} {c : C} {k : K} (cell : m.cell c = some k) :
    m.step s c = (m.act c (s k)).map (Function.update s k) := by
  simp [step, cell]

theorem Machine.run_append (cs ds : List C) (s : State K V) :
    m.run (cs ++ ds) s = (m.run cs s).bind (m.run ds) := by
  induction cs generalizing s with
  | nil => rfl
  | cons c cs ih =>
    simp only [List.cons_append, run, Option.bind_assoc]
    exact Option.bind_congr fun s' _ => ih s'

theorem Machine.runCell_append (k : K) (cs ds : List C) (v : Option V) :
    m.runCell k (cs ++ ds) v = (m.runCell k cs v).bind (m.runCell k ds) := by
  induction cs generalizing v with
  | nil => rfl
  | cons c cs ih =>
    simp only [List.cons_append, runCell]
    split
    · rw [Option.bind_assoc]
      exact Option.bind_congr fun v' _ => ih v'
    · exact ih v

/-- A run of the machine is a run of every cell. -/
theorem Machine.run_eq_some_iff {cs : List C} {s t : State K V} :
    m.run cs s = some t ↔ ∀ k, m.runCell k cs (s k) = some (t k) := by
  induction cs generalizing s with
  | nil => simp [run, runCell, funext_iff]
  | cons c cs ih =>
    cases cell : m.cell c with
    | none => simp [run, runCell, m.step_of_none cell, cell, ih]
    | some k =>
      simp only [run, runCell, m.step_of_some cell, cell, Option.some.injEq]
      cases act : m.act c (s k) with
      | none =>
        refine ⟨fun h => by simp at h, fun h => ?_⟩
        have := h k
        simp [act] at this
      | some v =>
        rw [Option.map_some, Option.bind_some, ih]
        refine forall_congr' fun k' => ?_
        by_cases same : k = k'
        · subst same
          simp [act]
        · simp [same, Function.update_of_ne (Ne.symm same)]

/-- Commands that do not touch a cell do not matter to it. -/
theorem Machine.runCell_touching (k : K) (cs : List C) (v : Option V) :
    m.runCell k (m.touching k cs) v = m.runCell k cs v := by
  induction cs generalizing v with
  | nil => rfl
  | cons c cs ih =>
    by_cases touch : m.cell c = some k
    · simp only [touching, List.filter_cons, touch, decide_true, if_true, runCell]
      exact Option.bind_congr fun v' _ => ih v'
    · simp only [touching, List.filter_cons, touch, decide_false, Bool.false_eq_true, if_false,
        runCell]
      exact ih v

theorem Machine.mem_touching {k : K} {cs : List C} {c : C} :
    c ∈ m.touching k cs ↔ c ∈ cs ∧ m.cell c = some k := by
  simp [touching]

/-! ## Where a run stops -/

theorem Machine.run_accepted (cs : List C) (s : State K V) :
    m.run (m.accepted cs s) s = some (m.final cs s) := by
  induction cs generalizing s with
  | nil => rfl
  | cons c cs ih =>
    simp only [accepted, final]
    cases step : m.step s c with
    | none => rfl
    | some s' => simp only [run, step, Option.bind_some, ih]

theorem Machine.accepted_of_run {cs : List C} {s t : State K V} (ran : m.run cs s = some t) :
    m.accepted cs s = cs := by
  induction cs generalizing s with
  | nil => rfl
  | cons c cs ih =>
    obtain ⟨s', step, rest⟩ := Option.bind_eq_some_iff.1 ran
    simp only [accepted, step, ih rest]

theorem Machine.final_of_run {cs : List C} {s t : State K V} (ran : m.run cs s = some t) :
    m.final cs s = t := by
  have := m.run_accepted cs s
  rw [m.accepted_of_run ran, ran] at this
  exact (Option.some.inj this).symm

theorem Machine.final_append_of_run {cs ds : List C} {s t : State K V} (ran : m.run cs s = some t) :
    m.final (cs ++ ds) s = m.final ds t := by
  induction cs generalizing s with
  | nil => cases ran; rfl
  | cons c cs ih =>
    obtain ⟨s', step, rest⟩ := Option.bind_eq_some_iff.1 ran
    simp only [List.cons_append, final, step, ih rest]

theorem Machine.final_append_of_stuck {cs ds : List C} {s : State K V} (stuck : m.run cs s = none) :
    m.final (cs ++ ds) s = m.final cs s := by
  induction cs generalizing s with
  | nil => cases stuck
  | cons c cs ih =>
    simp only [run] at stuck
    simp only [List.cons_append, final]
    cases step : m.step s c with
    | none => rfl
    | some s' =>
      rw [step, Option.bind_some] at stuck
      exact ih stuck

/-! ## Two runs side by side -/

/-- Both fail, or both succeed with related results. -/
def Both {α : Type} (r : α → α → Prop) : Option α → Option α → Prop
  | none, none => True
  | some a, some b => r a b
  | _, _ => False

/-- Runs of pairwise related commands from related states stop at the same command. -/
theorem Machine.accepted_both {r : Option V → Option V → Prop} {q : C → C → Prop}
    (cell : ∀ c c', q c c' → m.cell c = m.cell c')
    (act : ∀ c c', q c c' → ∀ v v', r v v' → Both r (m.act c v) (m.act c' v'))
    {cs cs' : List C} (pairs : List.Forall₂ q cs cs') {s s' : State K V} (start : ∀ k, r (s k) (s' k)) :
    List.Forall₂ q (m.accepted cs s) (m.accepted cs' s') := by
  induction pairs generalizing s s' with
  | nil => exact .nil
  | @cons c c' cs cs' related _ ih =>
    cases touch : m.cell c with
    | none =>
      simp only [accepted, m.step_of_none touch, m.step_of_none ((cell c c' related) ▸ touch)]
      exact .cons related (ih start)
    | some k =>
      have both := act c c' related (s k) (s' k) (start k)
      simp only [accepted, m.step_of_some touch, m.step_of_some ((cell c c' related) ▸ touch)]
      cases first : m.act c (s k) with
      | none =>
        rw [first] at both
        cases second : m.act c' (s' k) with
        | none => exact .nil
        | some w' => rw [second] at both; exact both.elim
      | some w =>
        rw [first] at both
        cases second : m.act c' (s' k) with
        | none => rw [second] at both; exact both.elim
        | some w' =>
          rw [second] at both
          refine .cons related (ih fun k' => ?_)
          by_cases same : k' = k
          · subst same
            rw [Function.update_self, Function.update_self]
            exact both
          · simpa [Function.update_of_ne same] using start k'

/-- Related cells stay related under pairwise related commands. -/
theorem Machine.runCell_both {k : K} {r : Option V → Option V → Prop} {q : C → C → Prop}
    (cell : ∀ c c', q c c' → (m.cell c = some k ↔ m.cell c' = some k))
    (act : ∀ c c', q c c' → m.cell c = some k → ∀ v v', r v v' → Both r (m.act c v) (m.act c' v'))
    {cs cs' : List C} (pairs : List.Forall₂ q cs cs') {v v' : Option V} (start : r v v') :
    Both r (m.runCell k cs v) (m.runCell k cs' v') := by
  induction pairs generalizing v v' with
  | nil => exact start
  | @cons c c' cs cs' related _ ih =>
    by_cases touch : m.cell c = some k
    · simp only [runCell, touch, (cell c c' related).1 touch, if_true]
      have both := act c c' related touch v v' start
      cases first : m.act c v with
      | none =>
        rw [first] at both
        cases second : m.act c' v' with
        | none => trivial
        | some w' => rw [second] at both; exact both.elim
      | some w =>
        rw [first] at both
        cases second : m.act c' v' with
        | none => rw [second] at both; exact both.elim
        | some w' => rw [second] at both; exact ih both
    · have touch' : ¬ m.cell c' = some k := fun h => touch ((cell c c' related).2 h)
      simp only [runCell, touch, touch', if_false]
      exact ih start

/-- A cell on which every command of `cs` acts as a constant is not moved by running
`cs` a second time. -/
theorem Machine.runCell_again {k : K} {cs : List C}
    (constant : ∀ c ∈ cs, m.cell c = some k → ∀ v v', m.act c v = m.act c v') {v w : Option V}
    (ran : m.runCell k cs v = some w) : m.runCell k cs w = some w := by
  rw [← runCell_touching] at ran ⊢
  have constant' : ∀ c ∈ m.touching k cs, ∀ v v', m.act c v = m.act c v' := fun c member =>
    constant c (m.mem_touching.1 member).1 (m.mem_touching.1 member).2
  have touch : ∀ c ∈ m.touching k cs, m.cell c = some k := fun c member =>
    (m.mem_touching.1 member).2
  cases hits : m.touching k cs with
  | nil => rfl
  | cons c rest =>
    rw [hits] at ran constant' touch
    simp only [runCell, touch c List.mem_cons_self, if_true] at ran ⊢
    rw [constant' c List.mem_cons_self w v]
    exact ran

end Save.Cells
