import Save.Lib.Text

/-!
# An ordered key-value store

A column family of an embedded key-value database: a finite map from strings to
values kept in key order. Single writes (`Write`) are the unit of durability: an
operation is described by the list of writes it issues, and a crash keeps a
prefix of that list. `scan` is a forward iterator opened at a key prefix and
left at the first key outside it; `scan_eq_filter` says that this loop visits
exactly the keys with that prefix, whatever else the store holds.
-/

namespace Save.Kv
set_option autoImplicit false
open Save.Text

/-- A store with values in `V`, in key order. -/
structure Store (V : Type) where
  map : Std.ExtTreeMap String V compare

variable {V : Type}

def Store.empty : Store V := ⟨∅⟩

def Store.get (s : Store V) (k : String) : Option V := s.map[k]?

def Store.put (s : Store V) (k : String) (v : V) : Store V := ⟨s.map.insert k v⟩

def Store.delete (s : Store V) (k : String) : Store V := ⟨s.map.erase k⟩

/-- All entries, in key order. -/
def Store.entries (s : Store V) : List (String × V) := s.map.toList

theorem compare_eq {a b : String} : compare a b = .eq ↔ a = b := Std.LawfulEqCmp.compare_eq_iff_eq

@[simp] theorem get_empty (a : String) : (Store.empty : Store V).get a = none := by
  simp [Store.get, Store.empty]

@[simp] theorem get_put (s : Store V) (k a : String) (v : V) :
    (s.put k v).get a = if k = a then some v else s.get a := by
  simp only [Store.get, Store.put, Std.ExtTreeMap.getElem?_insert, compare_eq]

@[simp] theorem get_delete (s : Store V) (k a : String) :
    (s.delete k).get a = if k = a then none else s.get a := by
  simp only [Store.get, Store.delete, Std.ExtTreeMap.getElem?_erase, compare_eq]

theorem get_delete_eq_some {s : Store V} {k a : String} {v : V} :
    (s.delete k).get a = some v ↔ a ≠ k ∧ s.get a = some v := by
  by_cases same : k = a
  · simp [same]
  · simp [same, Ne.symm same]

/-- Stores with the same lookups are the same store. -/
@[ext] theorem Store.ext {s t : Store V} (same : ∀ k, s.get k = t.get k) : s = t := by
  obtain ⟨s⟩ := s
  obtain ⟨t⟩ := t
  exact congrArg Store.mk (Std.ExtTreeMap.ext_getElem? fun {k} => same k)

theorem delete_of_get_none {s : Store V} {k : String} (absent : s.get k = none) : s.delete k = s := by
  apply Store.ext
  intro a
  rw [get_delete]
  by_cases same : k = a
  · rw [if_pos same, ← same, absent]
  · rw [if_neg same]

theorem put_delete (s : Store V) (k : String) (v : V) : (s.put k v).delete k = s.delete k := by
  apply Store.ext
  intro a
  by_cases same : k = a <;> simp [same]

theorem delete_delete (s : Store V) (k : String) : (s.delete k).delete k = s.delete k :=
  delete_of_get_none (by simp)

/-! ## Writes -/

/-- One durable write. -/
inductive Write (V : Type) where
  | put (key : String) (value : V)
  | delete (key : String)
  deriving DecidableEq, Repr

/-- The key a write touches. -/
def Write.key : Write V → String
  | .put k _ => k
  | .delete k => k

/-- What a write leaves at its key. -/
def Write.value : Write V → Option V
  | .put _ v => some v
  | .delete _ => none

def Write.apply (s : Store V) : Write V → Store V
  | .put k v => s.put k v
  | .delete k => s.delete k

/-- The store after a list of writes, in order. -/
def applyAll (s : Store V) (ws : List (Write V)) : Store V := ws.foldl Write.apply s

@[simp] theorem get_apply (s : Store V) (w : Write V) (a : String) :
    (w.apply s).get a = if w.key = a then w.value else s.get a := by
  cases w with
  | put k v => exact get_put s k a v
  | delete k => exact get_delete s k a

@[simp] theorem applyAll_nil (s : Store V) : applyAll s [] = s := rfl

@[simp] theorem applyAll_cons (s : Store V) (w : Write V) (ws : List (Write V)) :
    applyAll s (w :: ws) = applyAll (w.apply s) ws := rfl

theorem applyAll_append (s : Store V) (ws ws' : List (Write V)) :
    applyAll s (ws ++ ws') = applyAll (applyAll s ws) ws' :=
  List.foldl_append

/-- One write of a value. -/
theorem get_applyAll_put (s : Store V) (k a : String) (v : V) :
    (applyAll s [.put k v]).get a = if k = a then some v else s.get a := by
  rw [applyAll_cons, applyAll_nil]
  exact get_put s k a v

/-- Writes to other keys leave a key alone. -/
theorem get_applyAll_of_ne {s : Store V} {ws : List (Write V)} {a : String}
    (apart : ∀ w ∈ ws, w.key ≠ a) : (applyAll s ws).get a = s.get a := by
  induction ws generalizing s with
  | nil => rfl
  | cons w ws ih =>
    rw [applyAll_cons, ih (fun w' h => apart w' (List.mem_cons_of_mem _ h)), get_apply,
      if_neg (apart w List.mem_cons_self)]

/-- A key that some write touches, and all of whose writes leave `r`, reads `r`. -/
theorem get_applyAll_of_agree {s : Store V} {ws : List (Write V)} {a : String} {r : Option V}
    (touched : ∃ w ∈ ws, w.key = a) (agree : ∀ w ∈ ws, w.key = a → w.value = r) :
    (applyAll s ws).get a = r := by
  induction ws generalizing s with
  | nil => simp at touched
  | cons w ws ih =>
    rw [applyAll_cons]
    by_cases later : ∃ w' ∈ ws, w'.key = a
    · exact ih later fun w' h => agree w' (List.mem_cons_of_mem _ h)
    · obtain ⟨w', member, key⟩ := touched
      rcases List.mem_cons.1 member with rfl | member
      · rw [get_applyAll_of_ne fun w'' h e => later ⟨w'', h, e⟩, get_apply, if_pos key]
        exact agree _ List.mem_cons_self key
      · exact absurd ⟨w', member, key⟩ later

/-! ## Prefix scans -/

/-- The entries a forward iterator opened at `p` yields before the first key that
does not start with `p`. -/
def scan (s : Store V) (p : String) : List (String × V) :=
  (s.entries.dropWhile fun e => decide (e.1 < p)).takeWhile fun e => startsWith e.1 p

theorem compare_lt {a b : String} : compare a b = .lt ↔ a < b := by
  rw [compare_lt_iff_lt]

theorem pairwise_entries (s : Store V) : s.entries.Pairwise fun a b => a.1 < b.1 :=
  (Std.ExtTreeMap.ordered_keys_toList (t := s.map)).imp fun h => compare_lt.1 h

/-- The entries tell what the store is. -/
theorem entries_inj {s t : Store V} : s.entries = t.entries ↔ s = t := by
  constructor
  · intro same
    obtain ⟨s⟩ := s
    obtain ⟨t⟩ := t
    exact congrArg Store.mk (Std.ExtTreeMap.toList_inj.1 same)
  · rintro rfl
    rfl

/-- Over entries in key order, skipping to `p` and stopping at the first key
outside it selects exactly the keys that start with `p`. -/
theorem seek_eq_filter {es : List (String × V)} (sorted : es.Pairwise fun a b => a.1 < b.1)
    (p : String) :
    ((es.dropWhile fun e => decide (e.1 < p)).takeWhile fun e => startsWith e.1 p) =
      es.filter fun e => startsWith e.1 p := by
  induction es with
  | nil => rfl
  | cons e es ih =>
    obtain ⟨first, rest⟩ := List.pairwise_cons.1 sorted
    by_cases before : e.1 < p
    · have out : startsWith e.1 p = false := by
        by_contra h
        exact absurd (le_of_startsWith (by simpa using h)) (not_le.2 before)
      simp only [List.dropWhile_cons, before, decide_true, if_true, List.filter_cons, out]
      simpa using ih rest
    · simp only [List.dropWhile_cons, before, decide_false, Bool.false_eq_true, if_false,
        List.takeWhile_cons, List.filter_cons]
      -- from here on every key is at or after `p`: the hits are a prefix of the list
      have tail : (es.takeWhile fun e => startsWith e.1 p) = es.filter fun e => startsWith e.1 p := by
        rw [← ih rest]
        congr 1
        cases es with
        | nil => rfl
        | cons e' es =>
          have later : ¬ e'.1 < p := not_lt.2 ((not_lt.1 before).trans (first e' List.mem_cons_self).le)
          rw [List.dropWhile_cons_of_neg (by simpa only [decide_eq_true_eq] using later)]
      by_cases hit : startsWith e.1 p = true
      · simp [hit, tail]
      · have none_later : es.filter (fun e => startsWith e.1 p) = [] := by
          rw [List.filter_eq_nil_iff]
          intro e' member start
          apply hit
          have le := not_lt.1 before
          have self : startsWith p p = true := startsWith_iff.2 List.prefix_rfl
          exact startsWith_between self start le (first e' member).le
        simp [hit, none_later]

/-- The loop over a prefix visits exactly the keys with that prefix, in order. -/
theorem scan_eq_filter (s : Store V) (p : String) :
    scan s p = s.entries.filter fun e => startsWith e.1 p :=
  seek_eq_filter (pairwise_entries s) p

theorem mem_scan {s : Store V} {p k : String} {v : V} :
    (k, v) ∈ scan s p ↔ s.get k = some v ∧ startsWith k p = true := by
  rw [scan_eq_filter, List.mem_filter, Store.entries, Std.ExtTreeMap.mem_toList_iff_getElem?_eq_some,
    Store.get]

/-- Lists in key order with the same members are the same list. -/
theorem eq_of_sorted {α κ : Type} [LinearOrder κ] (key : α → κ) {es es' : List α}
    (sorted : es.Pairwise fun a b => key a < key b) (sorted' : es'.Pairwise fun a b => key a < key b)
    (same : ∀ e, e ∈ es ↔ e ∈ es') : es = es' := by
  have distinct : ∀ {l : List α}, l.Pairwise (fun a b => key a < key b) → l.Nodup := by
    intro l order
    refine order.imp fun {a b} less equal => ?_
    rw [equal] at less
    exact lt_irrefl _ less
  have perm : es.Perm es' := (List.perm_ext_iff_of_nodup (distinct sorted) (distinct sorted')).2 same
  refine perm.eq_of_pairwise ?_ sorted sorted'
  intro a b _ _ less more
  exact absurd (less.trans more) (lt_irrefl _)

theorem pairwise_scan (s : Store V) (p : String) : (scan s p).Pairwise fun a b => a.1 < b.1 := by
  rw [scan_eq_filter]
  exact (pairwise_entries s).filter _

/-- A scan depends on the keys with its prefix only. -/
theorem scan_congr {s t : Store V} {p : String}
    (same : ∀ k, startsWith k p = true → s.get k = t.get k) : scan s p = scan t p := by
  refine eq_of_sorted Prod.fst (pairwise_scan s p) (pairwise_scan t p) fun e => ?_
  obtain ⟨k, v⟩ := e
  rw [mem_scan, mem_scan]
  constructor
  · rintro ⟨stored, hit⟩
    exact ⟨(same k hit) ▸ stored, hit⟩
  · rintro ⟨stored, hit⟩
    exact ⟨(same k hit).symm ▸ stored, hit⟩

/-- Deleting every key of a scan. -/
def scanDeletes (s : Store V) (p : String) : List (Write V) := (scan s p).map fun e => .delete e.1

theorem get_scanDeletes (s : Store V) (p k : String) :
    (applyAll s (scanDeletes s p)).get k = if startsWith k p then none else s.get k := by
  by_cases hit : startsWith k p = true
  · rw [if_pos hit]
    cases stored : s.get k with
    | none =>
      rw [get_applyAll_of_ne, stored]
      intro w member key
      obtain ⟨⟨k', v⟩, scanned, rfl⟩ := List.mem_map.1 member
      obtain rfl : k' = k := key
      rw [(mem_scan.1 scanned).1] at stored
      cases stored
    | some v =>
      refine get_applyAll_of_agree
        ⟨.delete k, List.mem_map.2 ⟨(k, v), mem_scan.2 ⟨stored, hit⟩, rfl⟩, rfl⟩ ?_
      intro w member _
      obtain ⟨e, -, rfl⟩ := List.mem_map.1 member
      rfl
  · rw [if_neg hit, get_applyAll_of_ne]
    intro w member key
    obtain ⟨⟨k', v⟩, scanned, rfl⟩ := List.mem_map.1 member
    obtain rfl : k' = k := key
    exact hit (mem_scan.1 scanned).2

/-- Writing every entry of a scan. -/
def scanPuts (s : Store V) (p : String) : List (Write V) := (scan s p).map fun e => .put e.1 e.2

end Save.Kv
