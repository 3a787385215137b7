import Mathlib.Data.String.Basic
import Mathlib.Data.List.Infix

/-!
# Strings as character sequences

The string tests of the source (`starts_with`, `ends_with`, `contains`) read
through `String.toList`, so that they evaluate and so that a proof about a
joined name is a proof about appended lists. Two general facts carry the key
encodings: a separator that does not occur in the first field splits a joined
string in one way only (`sep_inj`), and the strings with a common start are an
interval of the key order (`startsWith_between`).
-/

namespace Save.Text
set_option autoImplicit false

/-- `s.starts_with(p)`. -/
def startsWith (s p : String) : Bool := p.toList.isPrefixOf s.toList

/-- `s.ends_with(p)`. -/
def endsWith (s p : String) : Bool := p.toList.isSuffixOf s.toList

/-- `s.contains(c)` for one character. -/
def containsChar (s : String) (c : Char) : Bool := s.toList.contains c

/-- `s.contains(p)` for a string. -/
def containsStr (s p : String) : Bool := decide (p.toList <:+: s.toList)

theorem containsChar_eq_false {s : String} {c : Char} : containsChar s c = false ↔ c ∉ s.toList := by
  simp [containsChar]

theorem startsWith_iff {s p : String} : startsWith s p = true ↔ p.toList <+: s.toList := by
  simp [startsWith]

theorem endsWith_iff {s p : String} : endsWith s p = true ↔ p.toList <:+ s.toList := by
  simp [endsWith]

theorem endsWith_append (s p : String) : endsWith (s ++ p) p = true := by
  simp [endsWith_iff]

theorem startsWith_append (p s : String) : startsWith (p ++ s) p = true := by
  simp [startsWith_iff]

/-- A string starts with `p` exactly when it is `p` followed by something. -/
theorem startsWith_iff_append {s p : String} : startsWith s p = true ↔ ∃ t, s = p ++ t := by
  rw [startsWith_iff]
  constructor
  · rintro ⟨t, rest⟩
    exact ⟨String.ofList t, by rw [← String.toList_inj]; simpa using rest.symm⟩
  · rintro ⟨t, rfl⟩
    simp

/-- A start of a start is a start. -/
theorem startsWith_of_startsWith {s p q : String} (start : startsWith s p = true)
    (shorter : startsWith p q = true) : startsWith s q = true := by
  rw [startsWith_iff] at *
  exact shorter.trans start

/-- Strings of which neither is a start of the other have no common continuation. -/
theorem append_ne_append {p q : String} (apart : startsWith p q = false)
    (apart' : startsWith q p = false) (s t : String) : p ++ s ≠ q ++ t := by
  intro same
  have lists : p.toList ++ s.toList = q.toList ++ t.toList := by
    simpa using congrArg String.toList same
  rcases List.prefix_or_prefix_of_prefix (List.prefix_append p.toList s.toList)
    (lists ▸ List.prefix_append q.toList t.toList) with h | h
  · rw [startsWith_iff.2 h] at apart'; cases apart'
  · rw [startsWith_iff.2 h] at apart; cases apart

theorem append_right_inj {p s t : String} (same : p ++ s = p ++ t) : s = t := by
  rw [← String.toList_inj] at same ⊢
  simpa using same

/-! ## Separators -/

/-- A separator absent from the first field splits a list in one way. -/
theorem list_sep_inj {α : Type} {sep : α} {a a' b b' : List α} (free : sep ∉ a) (free' : sep ∉ a')
    (same : a ++ sep :: b = a' ++ sep :: b') : a = a' ∧ b = b' := by
  induction a generalizing a' with
  | nil =>
    cases a' with
    | nil => simpa using same
    | cons x a' =>
      simp only [List.nil_append, List.cons_append, List.cons.injEq] at same
      exact absurd (List.mem_cons.2 (.inl same.1)) free'
  | cons x a ih =>
    cases a' with
    | nil =>
      simp only [List.nil_append, List.cons_append, List.cons.injEq] at same
      exact absurd (List.mem_cons.2 (.inl same.1.symm)) free
    | cons y a' =>
      simp only [List.cons_append, List.cons.injEq] at same
      obtain ⟨rfl, rest⟩ := same
      obtain ⟨rfl, rfl⟩ := ih (fun h => free (List.mem_cons_of_mem _ h))
        (fun h => free' (List.mem_cons_of_mem _ h)) rest
      exact ⟨rfl, rfl⟩

/-- The same for strings joined by a one-character separator. -/
theorem sep_inj {sep : Char} {a a' b b' : String} (free : containsChar a sep = false)
    (free' : containsChar a' sep = false)
    (same : a ++ String.singleton sep ++ b = a' ++ String.singleton sep ++ b') :
    a = a' ∧ b = b' := by
  have lists : a.toList ++ sep :: b.toList = a'.toList ++ sep :: b'.toList := by
    simpa using congrArg String.toList same
  have split := list_sep_inj (by simpa [containsChar] using free)
    (by simpa [containsChar] using free') lists
  exact ⟨String.toList_inj.1 split.1, String.toList_inj.1 split.2⟩

/-- What follows the last separator ends what follows any separator. -/
theorem suffix_of_sep {α : Type} {sep : α} {a b x y : List α} (free : sep ∉ y)
    (same : a ++ sep :: x = b ++ sep :: y) : y <:+ x := by
  have first : x <:+ a ++ sep :: x := (List.suffix_cons sep x).trans (List.suffix_append a _)
  have second : y <:+ a ++ sep :: x := by
    rw [same]
    exact (List.suffix_cons sep y).trans (List.suffix_append b _)
  rcases List.suffix_or_suffix_of_suffix first second with h | h
  · -- a shorter `x` would put its separator inside `y`
    by_cases long : y.length ≤ x.length
    · rw [h.eq_of_length_le long]
    · exfalso
      have whole : sep :: x <:+ a ++ sep :: x := List.suffix_append a _
      have inside : sep :: x <:+ y :=
        List.suffix_of_suffix_length_le whole second (by simp only [List.length_cons]; omega)
      exact free (inside.subset List.mem_cons_self)
  · exact h

/-- When the separator is there, so does it with the separator before it. -/
theorem sep_suffix_of_sep {α : Type} {sep : α} {a b x y : List α} (free : sep ∉ y) (inside : sep ∈ x)
    (same : a ++ sep :: x = b ++ sep :: y) : sep :: y <:+ x := by
  obtain ⟨t, rfl⟩ := suffix_of_sep free same
  have filled : t ≠ [] := by
    rintro rfl
    exact free inside
  have cut : a ++ sep :: t = b ++ [sep] := by
    have whole : (a ++ sep :: t) ++ y = (b ++ [sep]) ++ y := by simpa using same
    exact List.append_cancel_right whole
  have last : t.getLast filled = sep := by
    have ends : (a ++ sep :: t).getLast (by simp) = (b ++ [sep]).getLast (by simp) := by
      congr 1
    simpa [List.getLast_append_of_ne_nil, List.getLast_cons filled] using ends
  refine ⟨t.dropLast, ?_⟩
  nth_rewrite 2 [← List.dropLast_append_getLast filled]
  rw [last, List.append_assoc]
  rfl

/-- What does not have the separator does not reach over it. -/
theorem infix_sep {α : Type} {sep : α} {p a b : List α} (free : sep ∉ p) :
    p <:+: a ++ sep :: b ↔ p <:+: a ∨ p <:+: b := by
  constructor
  · rintro ⟨s, t, same⟩
    rw [List.append_assoc] at same
    rcases List.append_eq_append_iff.1 same with ⟨m, front, back⟩ | ⟨m, front, back⟩
    · -- it starts in the first part
      rcases List.append_eq_append_iff.1 back with ⟨n, inside, -⟩ | ⟨n, inside, rest⟩
      · exact .inl ⟨s, n, by rw [front, inside, List.append_assoc]⟩
      · cases n with
        | nil => exact .inl ⟨s, [], by rw [front, inside]; simp⟩
        | cons x n =>
          obtain ⟨rfl, -⟩ := List.cons.inj rest
          exact absurd (by simp [inside]) free
    · cases m with
      | nil =>
        cases p with
        | nil => exact .inl List.nil_infix
        | cons x p =>
          obtain ⟨rfl, -⟩ := List.cons.inj back
          exact absurd List.mem_cons_self free
      | cons x m =>
        obtain ⟨-, later⟩ := List.cons.inj back
        exact .inr ⟨m, t, by simpa using later.symm⟩
  · rintro (inside | inside)
    · exact List.infix_append_of_infix_left inside
    · exact List.infix_append_of_infix_right (inside.trans (List.suffix_cons sep b).isInfix)

/-! ## Joining and splitting -/

/-- `parts.join(sep)` for a one-character separator. -/
def join (sep : Char) (parts : List String) : String :=
  String.ofList ([sep].intercalate (parts.map String.toList))

/-- `s.split(sep)`. -/
def split (s : String) (sep : Char) : List String := (s.toList.splitOn sep).map String.ofList

/-- `s.splitn(2, sep)`: what stands before the first separator, and what stands after it. -/
def splitFirst (s : String) (sep : Char) : String × Option String :=
  match s.toList.dropWhile (· != sep) with
  | [] => (s, none)
  | _ :: rest => (String.ofList (s.toList.takeWhile (· != sep)), some (String.ofList rest))

theorem join_cons_cons (sep : Char) (a b : String) (rest : List String) :
    join sep (a :: b :: rest) = a ++ String.singleton sep ++ join sep (b :: rest) := by
  rw [← String.toList_inj]
  simp [join]

theorem join_singleton (sep : Char) (a : String) : join sep [a] = a := by simp [join]

theorem join_append (sep : Char) {first rest : List String} (nonempty : first ≠ []) (more : rest ≠ []) :
    join sep (first ++ rest) = join sep first ++ String.singleton sep ++ join sep rest := by
  induction first with
  | nil => exact absurd rfl nonempty
  | cons a first ih =>
    cases first with
    | nil =>
      obtain ⟨b, rest, rfl⟩ := List.exists_cons_of_ne_nil more
      rw [List.cons_append, List.nil_append, join_cons_cons, join_singleton]
    | cons a' first =>
      have tail := ih (by simp)
      rw [List.cons_append, List.cons_append, join_cons_cons, ← List.cons_append, tail, join_cons_cons]
      simp only [String.append_assoc]

/-- Parts without the separator are told apart in what they are joined to. -/
theorem split_join {sep : Char} {parts : List String}
    (free : ∀ p ∈ parts, containsChar p sep = false) (nonempty : parts ≠ []) :
    split (join sep parts) sep = parts := by
  unfold split join
  rw [String.toList_ofList, List.splitOn_intercalate]
  · simp
  · intro l member
    obtain ⟨p, there, rfl⟩ := List.mem_map.1 member
    simpa [containsChar] using free p there
  · simpa using nonempty

theorem join_inj {sep : Char} {parts parts' : List String}
    (free : ∀ p ∈ parts, containsChar p sep = false) (nonempty : parts ≠ [])
    (free' : ∀ p ∈ parts', containsChar p sep = false) (nonempty' : parts' ≠ [])
    (same : join sep parts = join sep parts') : parts = parts' := by
  rw [← split_join free nonempty, same, split_join free' nonempty']

/-- Parts that are not empty are told apart even when there may be none. -/
theorem join_inj_filled {sep : Char} {parts parts' : List String}
    (free : ∀ p ∈ parts, containsChar p sep = false ∧ p ≠ "")
    (free' : ∀ p ∈ parts', containsChar p sep = false ∧ p ≠ "")
    (same : join sep parts = join sep parts') : parts = parts' := by
  have filled : ∀ a rest, a ≠ "" → join sep (a :: rest) ≠ "" := by
    intro a rest nonempty empty
    cases rest with
    | nil => exact nonempty (by simpa [join_singleton] using empty)
    | cons b rest =>
      rw [join_cons_cons] at empty
      have := congrArg String.toList empty
      simp at this
  cases parts with
  | nil =>
    cases parts' with
    | nil => rfl
    | cons b rest => exact absurd same.symm (filled b rest (free' b List.mem_cons_self).2)
  | cons a rest =>
    cases parts' with
    | nil => exact absurd same (filled a rest (free a List.mem_cons_self).2)
    | cons b rest' =>
      exact join_inj (fun p member => (free p member).1) (by simp)
        (fun p member => (free' p member).1) (by simp) same

/-- Pairs written with a separator that no first part has. -/
theorem map_pairs_inj {sep : Char} {ps ps' : List (String × String)}
    (free : ∀ e ∈ ps, containsChar e.1 sep = false)
    (free' : ∀ e ∈ ps', containsChar e.1 sep = false)
    (same : ps.map (fun e => e.1 ++ String.singleton sep ++ e.2) =
      ps'.map fun e => e.1 ++ String.singleton sep ++ e.2) : ps = ps' := by
  induction ps generalizing ps' with
  | nil => simpa using same.symm
  | cons e rest ih =>
    cases ps' with
    | nil => simp at same
    | cons e' rest' =>
      obtain ⟨here, later⟩ := List.cons.inj same
      obtain ⟨first, second⟩ :=
        sep_inj (free e List.mem_cons_self) (free' e' List.mem_cons_self) here
      rw [Prod.ext first second, ih (fun x member => free x (List.mem_cons_of_mem _ member))
        (fun x member => free' x (List.mem_cons_of_mem _ member)) later]

/-- A joined string has the characters of its parts and separators. -/
theorem mem_join {sep c : Char} {parts : List String} (member : c ∈ (join sep parts).toList) :
    c = sep ∨ ∃ p ∈ parts, c ∈ p.toList := by
  induction parts with
  | nil => simp [join] at member
  | cons a rest ih =>
    cases rest with
    | nil =>
      rw [join_singleton] at member
      exact .inr ⟨a, List.mem_cons_self, member⟩
    | cons b rest =>
      rw [join_cons_cons] at member
      simp only [String.toList_append, String.toList_singleton, List.mem_append,
        List.mem_singleton] at member
      rcases member with (here | rfl) | later
      · exact .inr ⟨a, List.mem_cons_self, here⟩
      · exact .inl rfl
      · rcases ih later with rfl | ⟨p, there, inside⟩
        · exact .inl rfl
        · exact .inr ⟨p, List.mem_cons_of_mem _ there, inside⟩

theorem join_contains {sep c : Char} {parts : List String} (other : c ≠ sep)
    (free : ∀ p ∈ parts, containsChar p c = false) : containsChar (join sep parts) c = false := by
  rw [containsChar_eq_false]
  intro member
  rcases mem_join member with same | ⟨p, there, inside⟩
  · exact other same
  · exact containsChar_eq_false.1 (free p there) inside

/-- A piece has the elements of the whole, and not the separator. -/
theorem mem_splitOn {α : Type} [BEq α] [LawfulBEq α] {sep : α} {chars : List α} :
    ∀ l ∈ chars.splitOn sep, sep ∉ l ∧ ∀ c ∈ l, c ∈ chars := by
  induction chars with
  | nil => simp
  | cons x chars ih =>
    obtain ⟨first, rest, cut⟩ := List.exists_cons_of_ne_nil (List.splitOn_ne_nil sep chars)
    rw [List.splitOn_cons_eq_if_modifyHead, cut]
    rw [cut] at ih
    have older : ∀ l ∈ first :: rest, sep ∉ l ∧ ∀ c ∈ l, c ∈ x :: chars := fun l member =>
      ⟨(ih l member).1, fun c inside => List.mem_cons_of_mem _ ((ih l member).2 c inside)⟩
    by_cases here : x = sep
    · rw [if_pos (by simpa using here)]
      intro l member
      rcases List.mem_cons.1 member with rfl | member
      · simp
      · exact older l member
    · rw [if_neg (by simpa using here)]
      intro l member
      rcases List.mem_cons.1 member with rfl | member
      · obtain ⟨free, inside⟩ := older first List.mem_cons_self
        refine ⟨?_, fun c at_c => ?_⟩
        · rw [List.mem_cons, not_or]
          exact ⟨fun same => here same.symm, free⟩
        · rcases List.mem_cons.1 at_c with rfl | later
          · exact List.mem_cons_self
          · exact inside c later
      · exact older l (List.mem_cons_of_mem _ member)

theorem mem_split {s : String} {sep : Char} {part : String} (member : part ∈ split s sep) :
    containsChar part sep = false ∧ ∀ c ∈ part.toList, c ∈ s.toList := by
  obtain ⟨l, there, rfl⟩ := List.mem_map.1 member
  obtain ⟨free, inside⟩ := mem_splitOn l there
  exact ⟨by simpa [containsChar] using free, by simpa using inside⟩

/-- What stands before the first separator does not have it, and both sides are of the whole. -/
theorem splitFirst_spec (s : String) (sep : Char) :
    containsChar (splitFirst s sep).1 sep = false ∧ (∀ c ∈ (splitFirst s sep).1.toList, c ∈ s.toList) ∧
      ∀ t, (splitFirst s sep).2 = some t → ∀ c ∈ t.toList, c ∈ s.toList := by
  have whole := List.takeWhile_append_dropWhile (p := (· != sep)) (l := s.toList)
  unfold splitFirst
  split
  · rename_i none_left
    rw [none_left, List.append_nil] at whole
    refine ⟨?_, fun c inside => inside, fun t never => by cases never⟩
    have all : ∀ c ∈ s.toList, (c != sep) = true := by
      rw [← whole]
      exact List.all_eq_true.1 List.all_takeWhile
    rw [containsChar_eq_false]
    intro member
    simpa using all sep member
  · rename_i x rest left
    rw [left] at whole
    refine ⟨?_, fun c inside => ?_, ?_⟩
    · rw [containsChar_eq_false, String.toList_ofList]
      intro member
      simpa using List.all_eq_true.1 List.all_takeWhile sep member
    · rw [← whole]
      exact List.mem_append_left _ (by simpa using inside)
    · rintro t ⟨⟩ c inside
      rw [← whole]
      exact List.mem_append_right _ (List.mem_cons_of_mem _ (by simpa using inside))

/-- `s.rsplit_once(sep)`: what stands before the last separator, and what stands after it. -/
def splitLast (s : String) (sep : Char) : Option (String × String) :=
  match s.toList.reverse.dropWhile (· != sep) with
  | [] => none
  | _ :: before =>
    some (String.ofList before.reverse,
      String.ofList (s.toList.reverse.takeWhile (· != sep)).reverse)

/-- The two sides of the last separator. -/
theorem splitLast_spec {s a b : String} {sep : Char} (cut : splitLast s sep = some (a, b)) :
    s.toList = a.toList ++ sep :: b.toList ∧ sep ∉ b.toList := by
  have whole := List.takeWhile_append_dropWhile (p := (· != sep)) (l := s.toList.reverse)
  unfold splitLast at cut
  split at cut
  · cases cut
  · rename_i x before left
    cases cut
    have last : x = sep := by
      have stops := List.head?_dropWhile_not (· != sep) s.toList.reverse
      simpa [left] using stops
    rw [left, last] at whole
    constructor
    · have turned := congrArg List.reverse whole
      simpa using turned.symm
    · rw [String.toList_ofList, List.mem_reverse]
      intro member
      simpa using List.all_eq_true.1 List.all_takeWhile sep member

/-- What is split is joined again. -/
theorem join_split (s : String) (sep : Char) : join sep (split s sep) = s := by
  unfold join split
  rw [List.map_map, List.map_congr_left (g := id) fun l _ => by simp, List.map_id,
    List.intercalate_splitOn, String.ofList_toList]

/-! ## Numbers -/

/-- The digit of a digit's value. -/
theorem digitChar_toNat {c : Char} (digit : c.isDigit = true) :
    c.toNat - '0'.toNat < 10 ∧ Nat.digitChar (c.toNat - '0'.toNat) = c := by
  simp only [Char.isDigit, Bool.and_eq_true, decide_eq_true_eq] at digit
  have low : 48 ≤ c.toNat := digit.1
  have high : c.toNat ≤ 57 := digit.2
  have chars : ∀ k < 10, Nat.digitChar k = Char.ofNat (48 + k) := by decide
  have small : c.toNat - 48 < 10 := by omega
  refine ⟨small, ?_⟩
  show Nat.digitChar (c.toNat - 48) = c
  rw [chars _ small, Nat.add_sub_cancel' low, Char.ofNat_toNat]

/-- Digits without a leading zero are how their number is printed. -/
theorem toDigits_ofDigitChars {digits : List Char} (digit : ∀ c ∈ digits, c.isDigit = true)
    (nonempty : digits ≠ []) (leading : digits.head? ≠ some '0') :
    Nat.toDigits 10 (Nat.ofDigitChars 10 digits 0) = digits := by
  induction digits using List.reverseRecOn with
  | nil => exact absurd rfl nonempty
  | append_singleton front c ih =>
    obtain ⟨small, same⟩ := digitChar_toNat (digit c (by simp))
    rw [Nat.ofDigitChars_append, Nat.ofDigitChars_cons, Nat.ofDigitChars_nil]
    cases front with
    | nil =>
      rw [Nat.ofDigitChars_nil, Nat.mul_zero, Nat.zero_add, Nat.toDigits_of_lt_base small, same]
      rfl
    | cons x front =>
      have before := ih (fun d member => digit d (List.mem_append_left _ member)) (by simp) leading
      have positive : 0 < Nat.ofDigitChars 10 (x :: front) 0 := by
        rw [Nat.pos_iff_ne_zero]
        intro zero
        rw [zero, Nat.toDigits_zero] at before
        obtain ⟨rfl, -⟩ := List.cons.inj before
        exact leading rfl
      rw [← Nat.toDigits_append_toDigits (by decide) positive small, before,
        Nat.toDigits_of_lt_base small, same]

/-! ## The key order -/

/-- Lists with a common start are an interval of the lexicographic order. -/
theorem prefix_of_between {α : Type} [LinearOrder α] {p a b c : List α} (first : p <+: a)
    (last : p <+: c) (le : ¬ b < a) (le' : ¬ c < b) : p <+: b := by
  induction p generalizing a b c with
  | nil => exact List.nil_prefix
  | cons x p ih =>
    obtain ⟨a, rfl⟩ := first
    obtain ⟨c, rfl⟩ := last
    cases b with
    | nil => exact absurd (List.nil_lt_cons x (p ++ a)) le
    | cons y b =>
      simp only [List.cons_append, List.cons_lt_cons_iff, not_or, not_and] at le le'
      have same : x = y := le_antisymm (not_lt.1 le.1) (not_lt.1 le'.1)
      subst same
      exact (List.prefix_cons_inj x).2
        (ih (List.prefix_append _ _) (List.prefix_append _ _) (le.2 rfl) (le'.2 rfl))

/-- A list is not below any of its starts. -/
theorem not_lt_of_prefix {α : Type} [LinearOrder α] {p a : List α} (start : p <+: a) : ¬ a < p := by
  obtain ⟨t, rfl⟩ := start
  induction p with
  | nil => exact List.not_lt_nil _
  | cons x p ih => simpa [List.cons_lt_cons_iff] using ih

theorem le_of_startsWith {s p : String} (start : startsWith s p = true) : p ≤ s := by
  rw [← not_lt, String.lt_iff_toList_lt]
  exact not_lt_of_prefix (startsWith_iff.1 start)

/-- A common start does not count in the order. -/
theorem lt_of_append_lt {p s t : String} (less : p ++ s < p ++ t) : s < t := by
  by_contra not
  rcases lt_or_eq_of_le (not_lt.1 not) with more | same
  · have more : p ++ t < p ++ s := by
      rw [String.lt_iff_toList_lt] at more ⊢
      simpa using List.append_left_lt more
    exact lt_asymm less more
  · rw [same] at less
    exact lt_irrefl _ less

/-- The strings that start with `p` are an interval of the key order. -/
theorem startsWith_between {p a b c : String} (first : startsWith a p = true)
    (last : startsWith c p = true) (le : a ≤ b) (le' : b ≤ c) : startsWith b p = true := by
  rw [← not_lt, String.lt_iff_toList_lt] at le le'
  rw [startsWith_iff] at *
  exact prefix_of_between first last le le'

end Save.Text
