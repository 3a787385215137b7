import Mathlib.Data.List.DropRight

/-!
# Runs of a separator

A list over an alphabet with a separator is what stands between its separators
(`solid`) and how many of them stand before each such element and at the end
(`gaps`); the two determine it (`ext_of_gaps`). A pass that only shortens or
lengthens the runs is given by a function of their lengths (`Regaps`), and what
two passes or two lists have in common is read off these lengths.
-/

namespace Save.Runs
set_option autoImplicit false

variable {α : Type} [DecidableEq α] (sep : α)

/-- All but the separators. -/
def solid (s : List α) : List α := s.filter fun c => decide (c ≠ sep)

/-- The number of separators before each other element, and at the end. -/
def gaps : List α → List Nat
  | [] => [0]
  | c :: rest => if c = sep then (gaps rest).modifyHead (· + 1) else 0 :: gaps rest

/-- One separator of each run. -/
def squeeze : List α → List α
  | [] => []
  | c :: rest => if c = sep ∧ rest.head? = some sep then squeeze rest else c :: squeeze rest

variable {sep}

@[simp] theorem solid_nil : solid sep [] = [] := rfl

@[simp] theorem solid_cons_sep (s : List α) : solid sep (sep :: s) = solid sep s := by
  simp [solid]

@[simp] theorem solid_cons {c : α} (s : List α) (other : c ≠ sep) :
    solid sep (c :: s) = c :: solid sep s := by
  simp [solid, other]

theorem solid_reverse (s : List α) : solid sep s.reverse = (solid sep s).reverse := by
  simp [solid]

@[simp] theorem gaps_nil : gaps sep [] = [0] := rfl

@[simp] theorem gaps_cons_sep (s : List α) :
    gaps sep (sep :: s) = (gaps sep s).modifyHead (· + 1) := by
  simp [gaps]

@[simp] theorem gaps_cons {c : α} (s : List α) (other : c ≠ sep) :
    gaps sep (c :: s) = 0 :: gaps sep s := by
  simp [gaps, other]

/-- There is one gap more than there are other elements. -/
theorem length_gaps (s : List α) : (gaps sep s).length = (solid sep s).length + 1 := by
  induction s with
  | nil => simp
  | cons c rest ih =>
    by_cases here : c = sep
    · subst here
      simp [ih]
    · simp [here, ih]

variable (sep) in
/-- The first gap, with those after it. -/
theorem exists_gaps (s : List α) : ∃ n more, gaps sep s = n :: more :=
  List.exists_cons_of_length_pos (by rw [length_gaps]; omega)

/-- The first gap is empty unless a separator comes first. -/
theorem gaps_of_head {s : List α} (other : s.head? ≠ some sep) :
    ∃ more, gaps sep s = 0 :: more := by
  cases s with
  | nil => exact ⟨[], rfl⟩
  | cons c rest =>
    have apart : c ≠ sep := fun same => other (by rw [same, List.head?_cons])
    exact ⟨gaps sep rest, gaps_cons rest apart⟩

/-- The first gap is not empty when a separator comes first. -/
theorem gaps_cons_sep_ne (s : List α) (more : List Nat) : gaps sep (sep :: s) ≠ 0 :: more := by
  obtain ⟨n, rest, first⟩ := exists_gaps sep s
  rw [gaps_cons_sep, first, List.modifyHead_cons]
  intro same
  have empty : n + 1 = 0 := (List.cons.inj same).1
  omega

theorem gaps_cons_sep_inj {s t : List α} (same : gaps sep (sep :: s) = gaps sep (sep :: t)) :
    gaps sep s = gaps sep t := by
  obtain ⟨n, more, first⟩ := exists_gaps sep s
  obtain ⟨m, more', first'⟩ := exists_gaps sep t
  rw [gaps_cons_sep, gaps_cons_sep, first, first', List.modifyHead_cons, List.modifyHead_cons] at same
  obtain ⟨longer, rest⟩ := List.cons.inj same
  have equal : n = m := by omega
  rw [first, first', equal, rest]

/-- A list is what it has in its gaps and between them. -/
theorem ext_of_gaps {s t : List α} (between : solid sep s = solid sep t)
    (lengths : gaps sep s = gaps sep t) : s = t := by
  induction s generalizing t with
  | nil =>
    cases t with
    | nil => rfl
    | cons d t =>
      by_cases there : d = sep
      · subst there
        exact absurd lengths.symm (gaps_cons_sep_ne t [])
      · rw [solid_cons t there] at between
        cases between
  | cons c s ih =>
    by_cases here : c = sep
    · subst here
      cases t with
      | nil => exact absurd lengths (gaps_cons_sep_ne s [])
      | cons d t =>
        by_cases there : d = c
        · subst there
          rw [solid_cons_sep, solid_cons_sep] at between
          rw [ih between (gaps_cons_sep_inj lengths)]
        · rw [gaps_cons t there] at lengths
          exact absurd lengths (gaps_cons_sep_ne s _)
    · rw [solid_cons s here] at between
      rw [gaps_cons s here] at lengths
      cases t with
      | nil => cases between
      | cons d t =>
        by_cases there : d = sep
        · subst there
          exact absurd lengths.symm (gaps_cons_sep_ne t _)
        · rw [solid_cons t there] at between
          rw [gaps_cons t there] at lengths
          obtain ⟨same, between⟩ := List.cons.inj between
          rw [same, ih between (List.cons.inj lengths).2]

/-! ## Passes over the runs -/

/-- `op` keeps all but the separators, and leaves `f n` of each run of `n`. -/
structure Regaps (sep : α) (f : Nat → Nat) (op : List α → List α) : Prop where
  solid : ∀ s, solid sep (op s) = solid sep s
  gaps : ∀ s, gaps sep (op s) = (gaps sep s).map f

variable {f g : Nat → Nat} {op op' : List α → List α}

theorem Regaps.comp (first : Regaps sep f op) (second : Regaps sep g op') :
    Regaps sep (g ∘ f) (op' ∘ op) where
  solid s := by rw [Function.comp_apply, second.solid, first.solid]
  gaps s := by rw [Function.comp_apply, second.gaps, first.gaps, List.map_map]

/-- Two passes agree on a list when they do on the lengths of its runs. -/
theorem Regaps.eq_iff (one : Regaps sep f op) (other : Regaps sep g op') {s : List α} :
    op s = op' s ↔ ∀ n ∈ Runs.gaps sep s, f n = g n := by
  rw [← List.map_inj_left, ← one.gaps, ← other.gaps]
  constructor
  · intro same
    rw [same]
  · intro lengths
    exact ext_of_gaps ((one.solid s).trans (other.solid s).symm) lengths

/-- A second round of a pass changes nothing when it does not change the lengths. -/
theorem Regaps.idempotent_iff (pass : Regaps sep f op) {s : List α} :
    op (op s) = op s ↔ ∀ n ∈ Runs.gaps sep s, f (f n) = f n :=
  (pass.comp pass).eq_iff pass

/-- A pass takes two lists to one when it does so with the lengths of their runs. -/
theorem Regaps.same_iff (pass : Regaps sep f op) {s t : List α} :
    op s = op t ↔
      Runs.solid sep s = Runs.solid sep t ∧ (Runs.gaps sep s).map f = (Runs.gaps sep t).map f := by
  rw [← pass.gaps, ← pass.gaps, ← pass.solid s, ← pass.solid t]
  constructor
  · intro same
    rw [same]
    exact ⟨rfl, rfl⟩
  · rintro ⟨between, lengths⟩
    exact ext_of_gaps between lengths

/-- A run of any length is squeezed to one separator. -/
theorem squeeze_regaps : Regaps sep (min · 1) (squeeze sep) where
  solid s := by
    induction s with
    | nil => rfl
    | cons c rest ih =>
      unfold squeeze
      split
      · rename_i double
        rw [double.1, solid_cons_sep, ih]
      · by_cases here : c = sep
        · rw [here, solid_cons_sep, solid_cons_sep, ih]
        · rw [solid_cons _ here, solid_cons _ here, ih]
  gaps s := by
    induction s with
    | nil => rfl
    | cons c rest ih =>
      unfold squeeze
      split
      · -- the separator after this one is counted in its place
        rename_i double
        obtain ⟨rfl, next⟩ := double
        cases rest with
        | nil => cases next
        | cons d rest =>
          cases next
          obtain ⟨n, more, first⟩ := exists_gaps c rest
          rw [ih, gaps_cons_sep (c :: rest), gaps_cons_sep rest, first]
          simp
      · rename_i single
        by_cases here : c = sep
        · subst here
          obtain ⟨more, first⟩ := gaps_of_head fun next => single ⟨rfl, next⟩
          rw [gaps_cons_sep, gaps_cons_sep, ih, first]
          simp
        · rw [gaps_cons _ here, gaps_cons _ here, ih]
          simp

/-! ## Trimming -/

variable {p : α → Bool}

/-- Trimming the separators among others trims what is between them. -/
theorem solid_dropWhile (trimmed : p sep = true) (s : List α) :
    solid sep (s.dropWhile p) = (solid sep s).dropWhile p := by
  induction s with
  | nil => rfl
  | cons c rest ih =>
    by_cases here : c = sep
    · subst here
      rw [List.dropWhile_cons_of_pos trimmed, solid_cons_sep, ih]
    · by_cases drop : p c = true
      · rw [List.dropWhile_cons_of_pos drop, solid_cons _ here, List.dropWhile_cons_of_pos drop, ih]
      · rw [List.dropWhile_cons_of_neg drop, solid_cons _ here, List.dropWhile_cons_of_neg drop]

/-- What is trimmed without a loss is the separators only. -/
theorem dropWhile_eq_of_solid (trimmed : p sep = true) {s : List α}
    (kept : solid sep (s.dropWhile p) = solid sep s) : s.dropWhile p = s.dropWhile (· == sep) := by
  induction s with
  | nil => rfl
  | cons c rest ih =>
    by_cases here : c = sep
    · subst here
      rw [List.dropWhile_cons_of_pos trimmed] at kept ⊢
      rw [List.dropWhile_cons_of_pos (by simp), ih (by simpa using kept)]
    · by_cases drop : p c = true
      · -- then this element is lost
        rw [List.dropWhile_cons_of_pos drop, solid_cons _ here, solid_dropWhile trimmed] at kept
        have short := (List.dropWhile_suffix p (l := solid sep rest)).length_le
        have long := congrArg List.length kept
        rw [List.length_cons] at long
        omega
      · rw [List.dropWhile_cons_of_neg drop, List.dropWhile_cons_of_neg (by simpa using here)]

variable (p) in
/-- The list without what `p` holds of at its ends. -/
def strip (s : List α) : List α := (s.dropWhile p).rdropWhile p

section Ends
omit [DecidableEq α]

theorem dropWhile_eq_self_iff_head {s : List α} :
    s.dropWhile p = s ↔ ∀ c, s.head? = some c → p c = false := by
  cases s with
  | nil => simp
  | cons c rest => simp

theorem rdropWhile_eq_self_iff_last {s : List α} :
    s.rdropWhile p = s ↔ ∀ c, s.getLast? = some c → p c = false := by
  rw [List.rdropWhile, List.reverse_eq_iff, dropWhile_eq_self_iff_head, List.head?_reverse]

/-- There is nothing to strip from a list just when `p` fails at its ends. -/
theorem strip_eq_self_iff {s : List α} :
    strip p s = s ↔ ∀ c, s.head? = some c ∨ s.getLast? = some c → p c = false := by
  have apart : strip p s = s ↔ s.dropWhile p = s ∧ s.rdropWhile p = s := by
    constructor
    · intro same
      have front : s.dropWhile p = s := by
        apply (List.dropWhile_suffix p).sublist.eq_of_length_le
        have short := (List.rdropWhile_prefix p (s.dropWhile p)).length_le
        have long := congrArg List.length same
        rw [strip] at long
        omega
      rw [strip, front] at same
      exact ⟨front, same⟩
    · rintro ⟨front, back⟩
      rw [strip, front, back]
  rw [apart, dropWhile_eq_self_iff_head, rdropWhile_eq_self_iff_last]
  constructor
  · rintro ⟨first, last⟩ c (here | here)
    · exact first c here
    · exact last c here
  · intro ends
    exact ⟨fun c here => ends c (.inl here), fun c here => ends c (.inr here)⟩

theorem strip_strip (s : List α) : strip p (strip p s) = strip p s := by
  rw [strip_eq_self_iff]
  rintro c (first | last)
  · obtain ⟨rest, whole⟩ := List.rdropWhile_prefix p (s.dropWhile p)
    apply dropWhile_eq_self_iff_head.1 (List.dropWhile_idempotent p s) c
    rw [strip] at first
    rw [← whole, List.head?_append, first, Option.some_or]
  · exact rdropWhile_eq_self_iff_last.1 (List.rdropWhile_idempotent p (s.dropWhile p)) c last

end Ends

theorem solid_rdropWhile (trimmed : p sep = true) (s : List α) :
    solid sep (s.rdropWhile p) = (solid sep s).rdropWhile p := by
  rw [List.rdropWhile, solid_reverse, solid_dropWhile trimmed, solid_reverse, List.rdropWhile]

theorem solid_strip (trimmed : p sep = true) (s : List α) :
    solid sep (strip p s) = strip p (solid sep s) := by
  rw [strip, solid_rdropWhile trimmed, solid_dropWhile trimmed, strip]

/-- Stripping the separators only loses nothing else. -/
theorem solid_strip_sep (s : List α) : solid sep (strip (· == sep) s) = solid sep s := by
  rw [solid_strip (by simp), strip_eq_self_iff]
  intro c here
  have member : c ∈ solid sep s := here.elim List.mem_of_head? List.mem_of_getLast?
  simpa using List.of_mem_filter member

/-- Stripping more than the separators makes no difference just when nothing else stands at the
ends of what is between them. -/
theorem strip_eq_strip_sep_iff (trimmed : p sep = true) {s : List α} :
    strip p s = strip (· == sep) s ↔ strip p (solid sep s) = solid sep s := by
  constructor
  · intro same
    rw [← solid_strip trimmed, same, solid_strip_sep]
  · intro kept
    have front : solid sep (s.dropWhile p) = solid sep s := by
      rw [solid_dropWhile trimmed, dropWhile_eq_self_iff_head]
      exact fun c here => strip_eq_self_iff.1 kept c (.inl here)
    have whole : solid sep ((s.dropWhile p).reverse.dropWhile p) = solid sep (s.dropWhile p).reverse := by
      rw [solid_dropWhile trimmed, solid_reverse, front, dropWhile_eq_self_iff_head, List.head?_reverse]
      exact fun c here => strip_eq_self_iff.1 kept c (.inr here)
    rw [strip, List.rdropWhile, dropWhile_eq_of_solid trimmed whole,
      dropWhile_eq_of_solid trimmed front, strip, List.rdropWhile]

end Save.Runs
