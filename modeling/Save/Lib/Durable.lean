import Save.Lib.Files

/-!
# What a disk may hold after a power failure

A program sees every change of a directory at once; the disk need not have it
until the directory is synced. The changes since the disk was last known for
certain are a journal (`Durable`), and a power failure leaves any of them out
that no sync has forced, each a whole. The content of a file is what was last
synced, or anything. An entry whose directory is lost is lost with it.

What holds in every tree a failure may leave (`Durable.Always`) is kept by a new
change when the change keeps it, and by a sync always.
-/

namespace Save.Files
set_option autoImplicit false

/-- The entries of a disk. -/
structure Tree where
  inode : Path → Option Nat
  dirs : Path → Bool
  /-- An inode has one name. -/
  inj : ∀ p q i, inode p = some i → inode q = some i → p = q

theorem none_inj (p q : Path) (i : Nat) (named : none = some i) (_ : none = some i) : p = q := by
  cases named

/-- Directories without files. -/
def Tree.bare (dirs : Path → Bool) : Tree := ⟨fun _ => none, dirs, none_inj⟩

/-- The name `q` for an inode, which has no other. -/
def Tree.place (t : Tree) (q : Path) (i : Nat) : Tree where
  inode r := if r = q then some i else if t.inode r = some i then none else t.inode r
  dirs := t.dirs
  inj := by
    intro r r' j first second
    split at first
    · rename_i here
      cases first
      split at second
      · rename_i there
        rw [here, there]
      · split at second
        · cases second
        · rename_i other
          exact absurd second other
    · split at first
      · cases first
      · rename_i other
        split at second
        · cases second
          exact absurd first other
        · split at second
          · cases second
          · exact t.inj r r' j first second

def Tree.remove (t : Tree) (p : Path) : Tree where
  inode r := if r = p then none else t.inode r
  dirs := t.dirs
  inj := by
    intro r r' j first second
    split at first
    · cases first
    · split at second
      · cases second
      · exact t.inj r r' j first second

/-- A change of a directory, with the inode it is about. -/
inductive NameOp where
  | link (p : Path) (i : Nat)
  | unlink (p : Path)
  | move (p q : Path) (i : Nat)
  | mkdir (dir : Path)
  deriving DecidableEq, Repr

def NameOp.apply (t : Tree) : NameOp → Tree
  | .link p i => t.place p i
  | .unlink p => t.remove p
  | .move p q i => (t.remove p).place q i
  | .mkdir dir => { t with dirs := Function.update t.dirs dir true }

/-- The directories a change is in. -/
def NameOp.within (dir : Path) : NameOp → Bool
  | .link p _ => p.parent == dir
  | .unlink p => p.parent == dir
  | .move p q _ => p.parent == dir || q.parent == dir
  | .mkdir d => d.parent == dir

/-- A change that neither names nor renames `p` or `i`. -/
def NameOp.Avoids (p : Path) (i : Nat) : NameOp → Prop
  | .link q j => q ≠ p ∧ j ≠ i
  | .unlink q => q ≠ p
  | .move q r j => q ≠ p ∧ r ≠ p ∧ j ≠ i
  | .mkdir _ => True

/-- What is known of a disk: the tree it had for certain, the changes since then, each with
whether it was synced, and the contents that were synced. -/
structure Durable where
  base : Tree
  journal : List (NameOp × Bool)
  synced : Nat → Option Bytes

def Durable.push (d : Durable) (op : NameOp) : Durable := { d with journal := d.journal ++ [(op, false)] }

/-- `fsync` of a directory. -/
def Durable.force (d : Durable) (dir : Path) : Durable :=
  { d with journal := d.journal.map fun e => (e.1, e.2 || e.1.within dir) }

/-- `fsync` of a file. -/
def Durable.sync (d : Durable) (i : Nat) (content : Bytes) : Durable :=
  { d with synced := Function.update d.synced i (some content) }

/-- A file is written to. -/
def Durable.dirty (d : Durable) (i : Nat) : Durable :=
  { d with synced := Function.update d.synced i none }

/-- The tree after those changes that `keep` or a sync keeps. -/
def kept : Tree → List (NameOp × Bool) → (Nat → Bool) → Tree
  | t, [], _ => t
  | t, (op, forced) :: rest, keep =>
    kept (if forced || keep 0 then op.apply t else t) rest fun n => keep (n + 1)

def Durable.tree (d : Durable) (keep : Nat → Bool) : Tree := kept d.base d.journal keep

/-- The files found after a power failure. `garbage` is what is found in files that were not
synced; entries of directories that are lost are not found. -/
def Durable.found (d : Durable) (next : Nat) (keep : Nat → Bool) (garbage : Nat → Bytes) : Fs where
  inode p := if (d.tree keep).dirs p.parent then ((d.tree keep).inode p).filter fun i => decide (i < next) else none
  data i := (d.synced i).getD (garbage i)
  next := next
  bound := by
    intro p i named
    split at named
    · simpa using (Option.filter_eq_some_iff.1 named).2
    · cases named
  inj := by
    intro p q i first second
    split at first
    · split at second
      · exact (d.tree keep).inj p q i (Option.filter_eq_some_iff.1 first).1
          (Option.filter_eq_some_iff.1 second).1
      · cases second
    · cases first

/-- The disk is read again: what it holds is now certain. -/
def Durable.mounted (d : Durable) (fs : Fs) (keep : Nat → Bool) : Durable :=
  ⟨⟨fs.inode, (d.tree keep).dirs, fs.inj⟩, [], fun i => some (fs.data i)⟩

/-! ## Trees -/

theorem Tree.place_self (t : Tree) (p : Path) (i : Nat) : (t.place p i).inode p = some i := if_pos rfl

/-- Placing an inode takes no other inode's name, but for the one it replaces. -/
theorem Tree.place_cases {t : Tree} {p q : Path} {i j : Nat} (named : (t.place p i).inode q = some j) :
    (q = p ∧ j = i) ∨ (q ≠ p ∧ j ≠ i ∧ t.inode q = some j) := by
  simp only [Tree.place] at named
  split at named
  · rename_i here
    cases named
    exact .inl ⟨here, rfl⟩
  · rename_i apart
    split at named
    · cases named
    · rename_i other
      refine .inr ⟨apart, ?_, named⟩
      rintro rfl
      exact other named

theorem Tree.place_of_ne {t : Tree} {p q : Path} {i j : Nat} (apart : q ≠ p) (other : j ≠ i)
    (named : t.inode q = some j) : (t.place p i).inode q = some j := by
  simp only [Tree.place, if_neg apart]
  rw [if_neg, named]
  rw [named]
  exact fun same => other (Option.some.inj same)

theorem Tree.remove_cases {t : Tree} {p q : Path} {j : Nat} (named : (t.remove p).inode q = some j) :
    q ≠ p ∧ t.inode q = some j := by
  simp only [Tree.remove] at named
  split at named
  · cases named
  · rename_i apart
    exact ⟨apart, named⟩

theorem Tree.remove_of_ne {t : Tree} {p q : Path} (apart : q ≠ p) :
    (t.remove p).inode q = t.inode q := if_neg apart

/-- A change that avoids a name and its inode leaves both. -/
theorem NameOp.Avoids.apply {op : NameOp} {p : Path} {i : Nat} (avoids : op.Avoids p i) {t : Tree}
    (named : t.inode p = some i) : (op.apply t).inode p = some i := by
  cases op with
  | link q j => exact Tree.place_of_ne (Ne.symm avoids.1) (Ne.symm avoids.2) named
  | unlink q => exact (Tree.remove_of_ne (Ne.symm avoids)).trans named
  | move q r j =>
    refine Tree.place_of_ne (Ne.symm avoids.2.1) (Ne.symm avoids.2.2) ?_
    exact (Tree.remove_of_ne (Ne.symm avoids.1)).trans named
  | mkdir dir => exact named

/-! ## All that a failure may leave -/

/-- Every tree a power failure may leave. -/
def Durable.Always (d : Durable) (P : Tree → Prop) : Prop := ∀ keep, P (d.tree keep)

theorem kept_append (t : Tree) (first rest : List (NameOp × Bool)) (keep : Nat → Bool) :
    kept t (first ++ rest) keep =
      kept (kept t first keep) rest fun n => keep (first.length + n) := by
  induction first generalizing t keep with
  | nil => simp [kept]
  | cons e first ih =>
    obtain ⟨op, forced⟩ := e
    simp only [List.cons_append, kept, ih, List.length_cons]
    congr 1
    funext n
    rw [Nat.add_right_comm]

theorem Durable.tree_push (d : Durable) (op : NameOp) (keep : Nat → Bool) :
    (d.push op).tree keep = if keep d.journal.length then op.apply (d.tree keep) else d.tree keep := by
  rw [Durable.tree, Durable.push, kept_append]
  simp [kept, Durable.tree]

variable {d : Durable} {P : Tree → Prop}

theorem Durable.Always.mono {Q : Tree → Prop} (always : d.Always P) (weaker : ∀ t, P t → Q t) :
    d.Always Q := fun keep => weaker _ (always keep)

/-- A new change may be kept or left out. -/
theorem Durable.Always.push (always : d.Always P) {op : NameOp} (keeps : ∀ t, P t → P (op.apply t)) :
    (d.push op).Always P := by
  intro keep
  rw [Durable.tree_push]
  split
  · exact keeps _ (always keep)
  · exact always keep

/-- A sync leaves fewer trees to choose from. -/
theorem Durable.tree_force (d : Durable) (dir : Path) (keep : Nat → Bool) :
    ∃ keep', (d.force dir).tree keep = d.tree keep' := by
  have choose : ∀ (journal : List (NameOp × Bool)) (t : Tree) (keep : Nat → Bool), ∃ keep',
      kept t (journal.map fun e => (e.1, e.2 || e.1.within dir)) keep = kept t journal keep' := by
    intro journal
    induction journal with
    | nil => exact fun t keep => ⟨keep, rfl⟩
    | cons e journal ih =>
      intro t keep
      obtain ⟨op, forced⟩ := e
      obtain ⟨keep', same⟩ := ih (if (forced || op.within dir) || keep 0 then op.apply t else t)
        fun n => keep (n + 1)
      refine ⟨fun | 0 => op.within dir || keep 0 | n + 1 => keep' n, ?_⟩
      simp only [List.map_cons, kept]
      rw [same, Bool.or_assoc]
  exact choose d.journal d.base keep

theorem Durable.Always.force (always : d.Always P) (dir : Path) : (d.force dir).Always P := by
  intro keep
  obtain ⟨keep', same⟩ := d.tree_force dir keep
  rw [same]
  exact always keep'

/-- Changes that avoid a name leave it. -/
theorem kept_avoids {t : Tree} {journal : List (NameOp × Bool)} {p : Path} {i : Nat}
    (avoid : ∀ e ∈ journal, e.1.Avoids p i) (named : t.inode p = some i) (keep : Nat → Bool) :
    (kept t journal keep).inode p = some i := by
  induction journal generalizing t keep with
  | nil => exact named
  | cons e journal ih =>
    obtain ⟨op, forced⟩ := e
    apply ih fun e' member => avoid e' (List.mem_cons_of_mem _ member)
    split
    · exact (avoid (op, forced) List.mem_cons_self).apply named
    · exact named

/-- The last change of a name, and of its inode, is a move to it. -/
structure Durable.Moved (d : Durable) (p : Path) (i : Nat) : Prop where
  split : ∃ before source forced later, d.journal = before ++ (.move source p i, forced) :: later ∧
    ∀ e ∈ later, e.1.Avoids p i

/-- It is kept by some failure. -/
theorem Durable.Moved.possible {p : Path} {i : Nat} (moved : d.Moved p i) : ∃ keep, (d.tree keep).inode p = some i := by
  obtain ⟨before, source, forced, later, whole, avoid⟩ := moved.split
  refine ⟨fun _ => true, ?_⟩
  rw [Durable.tree, whole, kept_append]
  exact kept_avoids avoid (by simp [NameOp.apply, Tree.place_self]) _

/-- And by every failure after a sync of the directory. -/
theorem Durable.Moved.forced {p : Path} {i : Nat} (moved : d.Moved p i) :
    (d.force p.parent).Always fun t => t.inode p = some i := by
  obtain ⟨before, source, forced, later, whole, avoid⟩ := moved.split
  intro keep
  rw [Durable.tree, Durable.force, whole, List.map_append, List.map_cons, kept_append]
  simp only [kept]
  refine kept_avoids ?_ ?_ _
  · intro e member
    obtain ⟨e', member', rfl⟩ := List.mem_map.1 member
    exact avoid e' member'
  · simp [NameOp.within, NameOp.apply, Tree.place_self]

theorem Durable.Moved.push {p : Path} {i : Nat} (moved : d.Moved p i) {op : NameOp}
    (avoids : op.Avoids p i) : (d.push op).Moved p i := by
  obtain ⟨before, source, forced, later, whole, avoid⟩ := moved.split
  refine ⟨before, source, forced, later ++ [(op, false)], ?_, ?_⟩
  · rw [Durable.push, whole]
    simp
  · intro e member
    rcases List.mem_append.1 member with old | new
    · exact avoid e old
    · rw [List.mem_singleton.1 new]
      exact avoids

theorem Durable.Moved.force {p : Path} {i : Nat} (moved : d.Moved p i) (dir : Path) :
    (d.force dir).Moved p i := by
  obtain ⟨before, source, forced, later, whole, avoid⟩ := moved.split
  refine ⟨before.map fun e => (e.1, e.2 || e.1.within dir), source,
    forced || (NameOp.move source p i).within dir, later.map fun e => (e.1, e.2 || e.1.within dir), ?_, ?_⟩
  · rw [Durable.force, whole, List.map_append, List.map_cons]
  · intro e member
    obtain ⟨e', member', rfl⟩ := List.mem_map.1 member
    exact avoid e' member'

theorem Durable.moved_push (d : Durable) (source p : Path) (i : Nat) :
    (d.push (.move source p i)).Moved p i :=
  ⟨d.journal, source, false, [], rfl, fun e member => by cases member⟩

/-! ## Names that are new -/

theorem Fs.next_create (fs : Fs) (p : Path) : fs.next ≤ (fs.create p).2.next := by
  unfold Fs.create
  split
  · exact le_rfl
  · exact Nat.le_succ _

theorem Fs.next_rename {fs fs' : Fs} {p q : Path} (call : fs.rename p q = some fs') :
    fs'.next = fs.next := by
  unfold Fs.rename at call
  split at call
  · cases call
  · cases call
    rfl

/-- A file that is there after a creation was there, or is new. -/
theorem Fs.inode_create_cases {fs : Fs} {p q : Path} {i : Nat}
    (named : (fs.create p).2.inode q = some i) : fs.inode q = some i ∨ fs.next ≤ i := by
  by_cases same : q = p
  · subst same
    unfold Fs.create at named
    split at named
    · exact .inl named
    · have here : Function.update fs.inode q (some fs.next) q = some i := named
      rw [Function.update_self] at here
      cases here
      exact .inr le_rfl
  · rw [fs.inode_create_of_ne same] at named
    exact .inl named

theorem Fs.inode_unlink_cases {fs : Fs} {p q : Path} {i : Nat}
    (named : (fs.unlink p).inode q = some i) : fs.inode q = some i := by
  by_cases same : q = p
  · rw [same, Fs.inode_unlink] at named
    cases named
  · rwa [fs.inode_unlink_of_ne same] at named

/-! ## After a failure -/

theorem Durable.found_inode {d : Durable} {next : Nat} {keep : Nat → Bool} {garbage : Nat → Bytes}
    {p : Path} {i : Nat} (named : (d.found next keep garbage).inode p = some i) :
    (d.tree keep).inode p = some i := by
  simp only [Durable.found] at named
  split at named
  · exact (Option.filter_eq_some_iff.1 named).1
  · cases named

/-- A synced file whose name is kept is found as it was. -/
theorem Durable.found_read {d : Durable} {next : Nat} {keep : Nat → Bool} (garbage : Nat → Bytes)
    {p : Path} {i : Nat} {content : Bytes} (named : (d.tree keep).inode p = some i) (less : i < next)
    (there : (d.tree keep).dirs p.parent = true) (synced : d.synced i = some content) :
    (d.found next keep garbage).read p = some content := by
  have here : (d.found next keep garbage).inode p = some i := by
    simp only [Durable.found, there, if_true]
    exact Option.filter_eq_some_iff.2 ⟨named, by simpa using less⟩
  rw [Fs.read, here]
  simp [Durable.found, synced]

end Save.Files
