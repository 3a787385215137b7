import Save.Lib.Text
import Mathlib.Logic.Function.Basic

/-!
# A file system of named inodes

Files as a POSIX program sees them: a path names an inode, an open file is an
inode and an offset, and a name may be moved or removed while a file is open.
Creating a file that exists truncates its inode, so an open handle sees it.
The well-formedness of the name table (no two names for one inode, every named
inode allocated) is part of the type.

Paths are lists of components; `Path.join` follows the rule of the source's
language that an absolute argument replaces the path it is joined to.
Directories are not represented: creating one leaves every file as it is.
-/

namespace Save.Files
set_option autoImplicit false
open Save.Text

abbrev Bytes := List UInt8

/-- The components of a path from the root. -/
abbrev Path := List String

/-! ## Paths -/

/-- The components of a string: what stands between slashes, without empty ones and `.`. -/
def components (s : String) : Path :=
  ((s.toList.splitOn '/').filter fun c => !c.isEmpty && c != ['.']).map String.ofList

/-- `path.join(s)`. -/
def Path.join (p : Path) (s : String) : Path :=
  if startsWith s "/" then components s else p ++ components s

/-- `path.parent()`, for a path with a last component. -/
def Path.parent (p : Path) : Path := p.dropLast

/-- A string that is one component as it stands. -/
def Plain (s : String) : Prop := '/' ∉ s.toList ∧ s.toList ≠ [] ∧ s.toList ≠ ['.']

instance (s : String) : Decidable (Plain s) :=
  inferInstanceAs (Decidable ('/' ∉ s.toList ∧ s.toList ≠ [] ∧ s.toList ≠ ['.']))

theorem components_plain {s : String} (plain : Plain s) : components s = [s] := by
  obtain ⟨free, nonempty, dot⟩ := plain
  unfold components
  rw [List.splitOn_eq_singleton free]
  simp [nonempty, dot]

theorem startsWith_slash {s : String} : startsWith s "/" = true ↔ ∃ t, s.toList = '/' :: t := by
  rw [startsWith_iff]
  constructor
  · rintro ⟨t, rest⟩
    exact ⟨t, rest.symm⟩
  · rintro ⟨t, list⟩
    exact ⟨t, list.symm⟩

theorem join_plain (p : Path) {s : String} (plain : Plain s) : Path.join p s = p ++ [s] := by
  have relative : ¬ startsWith s "/" = true := by
    rw [startsWith_slash]
    rintro ⟨t, list⟩
    exact plain.1 (by simp [list])
  rw [Path.join, if_neg relative, components_plain plain]

/-- A relative string extends the path. -/
theorem join_relative (p : Path) {s : String} (relative : startsWith s "/" = false) :
    Path.join p s = p ++ components s := by
  rw [Path.join, if_neg (by simp [relative])]

/-- A printed number is one component. -/
theorem plain_toString (n : Nat) : Plain (toString n) := by
  have digits : (toString n).toList = Nat.toDigits 10 n := by simp
  have digit : ∀ c ∈ (toString n).toList, c.isDigit = true := by
    rw [digits]
    exact fun c => Nat.isDigit_of_mem_toDigits (by decide) (by decide)
  refine ⟨fun slash => ?_, ?_, fun dot => ?_⟩
  · exact absurd (digit '/' slash) (by decide)
  · rw [digits]
    exact Nat.toDigits_ne_nil
  · rw [dot] at digit
    exact absurd (digit '.' List.mem_cons_self) (by decide)

/-- Text without a slash extends the first piece of what follows it. -/
theorem splitOn_append {w : List Char} (free : '/' ∉ w) (v : List Char) :
    (w ++ v).splitOn '/' = (v.splitOn '/').modifyHead (w ++ ·) := by
  induction w with
  | nil =>
    obtain ⟨c, rest, split⟩ := List.exists_cons_of_ne_nil (List.splitOn_ne_nil '/' v)
    simp [split]
  | cons x w ih =>
    have other : x ≠ '/' := by
      rintro rfl
      exact free List.mem_cons_self
    have later : '/' ∉ w := fun h => free (List.mem_cons_of_mem _ h)
    rw [List.cons_append, List.splitOn_cons_eq_if_modifyHead, if_neg (by simpa using other),
      ih later, List.modifyHead_modifyHead]
    rfl

/-- A relative string that starts with a component extends that component. -/
theorem components_append {w : String} (plain : Plain w) (free : '.' ∉ w.toList) (v : String) :
    ∃ c rest, components (w ++ v) = (w ++ c) :: rest := by
  obtain ⟨c, rest, split⟩ := List.exists_cons_of_ne_nil (List.splitOn_ne_nil '/' v.toList)
  have start : (w ++ v).toList.splitOn '/' = (w.toList ++ c) :: rest := by
    rw [String.toList_append, splitOn_append plain.1, split]
    rfl
  have named : w.toList ++ c ≠ ['.'] := by
    intro dot
    obtain ⟨x, xs, list⟩ := List.exists_cons_of_ne_nil plain.2.1
    rw [list] at dot
    simp only [List.cons_append, List.cons.injEq] at dot
    exact free (by rw [list, dot.1]; exact List.mem_cons_self)
  have kept : (!(w.toList ++ c).isEmpty && (w.toList ++ c) != ['.']) = true := by
    simp [plain.2.1, named]
  refine ⟨String.ofList c, (rest.filter fun c => !c.isEmpty && c != ['.']).map String.ofList, ?_⟩
  have whole : String.ofList (w.toList ++ c) = w ++ String.ofList c := by
    rw [← String.toList_inj]
    simp
  rw [components, start, List.filter_cons, if_pos kept, List.map_cons, whole]

/-- An absolute string after a component is a path of its own below it. -/
theorem components_append_absolute {w v : String} (plain : Plain w)
    (absolute : startsWith v "/" = true) : components (w ++ v) = w :: components v := by
  obtain ⟨t, list⟩ := startsWith_slash.1 absolute
  have first : (w ++ v).toList.splitOn '/' = w.toList :: t.splitOn '/' := by
    rw [String.toList_append, list, List.splitOn_append_cons_self_of_not_mem plain.1]
  have second : v.toList.splitOn '/' = [] :: t.splitOn '/' := by
    rw [list, List.splitOn_cons_eq_if_modifyHead, if_pos (by simp)]
  have kept : (!w.toList.isEmpty && w.toList != ['.']) = true := by simp [plain.2.1, plain.2.2]
  rw [components, components, first, second, List.filter_cons, if_pos kept, List.map_cons,
    String.ofList_toList, List.filter_cons, if_neg (by simp)]

/-- Whatever stands before it, text without a slash ends the last piece. -/
theorem splitOn_append_last {v : List Char} (free : '/' ∉ v) (w : List Char) :
    ∃ first c, (w ++ v).splitOn '/' = first ++ [c ++ v] := by
  induction w with
  | nil => exact ⟨[], [], by simp [List.splitOn_eq_singleton free]⟩
  | cons x w ih =>
    obtain ⟨first, c, split⟩ := ih
    rw [List.cons_append, List.splitOn_cons_eq_if_modifyHead]
    by_cases slash : x = '/'
    · rw [if_pos (by simpa using slash), split]
      exact ⟨[] :: first, c, rfl⟩
    · rw [if_neg (by simpa using slash), split]
      cases first with
      | nil => exact ⟨[], x :: c, rfl⟩
      | cons y first => exact ⟨(x :: y) :: first, c, rfl⟩

/-- Whatever stands before it, a component without dots ends the last component. -/
theorem components_append_last {v : String} (plain : Plain v) (free : '.' ∉ v.toList) (w : String) :
    ∃ first c, components (w ++ v) = first ++ [c ++ v] := by
  obtain ⟨first, c, split⟩ := splitOn_append_last plain.1 w.toList
  have named : c ++ v.toList ≠ ['.'] := by
    intro dot
    obtain ⟨x, xs, list⟩ := List.exists_cons_of_ne_nil plain.2.1
    have inside : x ∈ c ++ v.toList := by simp [list]
    rw [dot, List.mem_singleton] at inside
    exact free (by simp [list, inside])
  have kept : (!(c ++ v.toList).isEmpty && (c ++ v.toList) != ['.']) = true := by
    simp [plain.2.1, named]
  have whole : String.ofList (c ++ v.toList) = String.ofList c ++ v := by
    rw [← String.toList_inj]
    simp
  refine ⟨(first.filter fun c => !c.isEmpty && c != ['.']).map String.ofList, String.ofList c, ?_⟩
  rw [components, String.toList_append, split, List.filter_append, List.filter_singleton, kept,
    List.map_append, ← whole]
  rfl

/-! ## Files -/

/-- The bytes `b` written at an offset: a gap before them is filled with zeros. -/
def writeAt (d : Bytes) (offset : Nat) (b : Bytes) : Bytes :=
  d.take offset ++ List.replicate (offset - d.length) 0 ++ b ++ d.drop (offset + b.length)

theorem writeAt_end (d b : Bytes) : writeAt d d.length b = d ++ b := by
  simp [writeAt]

structure Fs where
  inode : Path → Option Nat
  data : Nat → Bytes
  next : Nat
  /-- Every named inode is allocated. -/
  bound : ∀ p i, inode p = some i → i < next
  /-- An inode has one name. -/
  inj : ∀ p q i, inode p = some i → inode q = some i → p = q

def Fs.empty : Fs := ⟨fun _ => none, fun _ => [], 0, by simp, by simp⟩

/-- The content of the file at a path. -/
def Fs.read (fs : Fs) (p : Path) : Option Bytes := (fs.inode p).map fs.data

/-- The names with `p` set to a fresh inode keep the table well formed. -/
theorem Fs.fresh_inj (fs : Fs) (p q r : Path) (i : Nat)
    (first : Function.update fs.inode p (some fs.next) q = some i)
    (second : Function.update fs.inode p (some fs.next) r = some i) : q = r := by
  by_cases hq : q = p <;> by_cases hr : r = p
  · rw [hq, hr]
  · subst hq
    rw [Function.update_self] at first
    rw [Function.update_of_ne hr] at second
    have := fs.bound r i second
    simp only [Option.some.injEq] at first
    omega
  · subst hr
    rw [Function.update_self] at second
    rw [Function.update_of_ne hq] at first
    have := fs.bound q i first
    simp only [Option.some.injEq] at second
    omega
  · rw [Function.update_of_ne hq] at first
    rw [Function.update_of_ne hr] at second
    exact fs.inj q r i first second

/-- `File::create`: the open inode, truncated. -/
def Fs.create (fs : Fs) (p : Path) : Nat × Fs :=
  match fs.inode p with
  | some i => (i, { fs with data := Function.update fs.data i [] })
  | none =>
    (fs.next,
      { inode := Function.update fs.inode p (some fs.next)
        data := Function.update fs.data fs.next []
        next := fs.next + 1
        bound := by
          intro q i named
          by_cases h : q = p
          · subst h
            rw [Function.update_self] at named
            simp only [Option.some.injEq] at named
            omega
          · rw [Function.update_of_ne h] at named
            have := fs.bound q i named
            omega
        inj := fun q r i => fs.fresh_inj p q r i })

/-- A write to an open inode. -/
def Fs.write (fs : Fs) (i offset : Nat) (b : Bytes) : Fs :=
  { fs with data := Function.update fs.data i (writeAt (fs.data i) offset b) }

/-- The names kept where `keep` says so. -/
def Fs.restrict (fs : Fs) (keep : Path → Bool) : Fs :=
  { fs with
    inode := fun p => if keep p then fs.inode p else none
    bound := by
      intro p i named
      split at named
      · exact fs.bound p i named
      · cases named
    inj := by
      intro p q i first second
      split at first
      · split at second
        · exact fs.inj p q i first second
        · cases second
      · cases first }

/-- `remove_file` of a file that may be missing. -/
def Fs.unlink (fs : Fs) (p : Path) : Fs := fs.restrict fun q => q != p

/-- `remove_dir_all`: every file below the directory. -/
def Fs.removeDirAll (fs : Fs) (dir : Path) : Fs := fs.restrict fun q => !dir.isPrefixOf q

/-- The names after moving the inode `i` from `p` to `q`. -/
def Fs.moved (fs : Fs) (p q : Path) (i : Nat) : Path → Option Nat :=
  Function.update (Function.update fs.inode p none) q (some i)

theorem Fs.moved_source (fs : Fs) {p q : Path} {i : Nat} (named : fs.inode p = some i) {r : Path}
    {j : Nat} (found : fs.moved p q i r = some j) :
    (r = q ∧ j = i) ∨ (r ≠ q ∧ r ≠ p ∧ fs.inode r = some j ∧ j ≠ i) := by
  unfold Fs.moved at found
  by_cases hq : r = q
  · subst hq
    rw [Function.update_self] at found
    exact .inl ⟨rfl, (Option.some.inj found).symm⟩
  · rw [Function.update_of_ne hq] at found
    by_cases hp : r = p
    · subst hp
      rw [Function.update_self] at found
      cases found
    · rw [Function.update_of_ne hp] at found
      refine .inr ⟨hq, hp, found, ?_⟩
      rintro rfl
      exact hp (fs.inj r p j found named)

/-- `rename`: fails when there is no file to rename. -/
def Fs.rename (fs : Fs) (p q : Path) : Option Fs :=
  match named : fs.inode p with
  | none => none
  | some i =>
    some
      { fs with
        inode := fs.moved p q i
        bound := by
          intro r j found
          rcases fs.moved_source named found with ⟨-, rfl⟩ | ⟨-, -, old, -⟩
          · exact fs.bound p _ named
          · exact fs.bound r j old
        inj := by
          intro r r' j first second
          rcases fs.moved_source named first with ⟨rfl, rfl⟩ | ⟨-, -, old, other⟩
          · rcases fs.moved_source named second with ⟨rfl, -⟩ | ⟨-, -, -, other⟩
            · rfl
            · exact absurd rfl other
          · rcases fs.moved_source named second with ⟨-, rfl⟩ | ⟨-, -, old', -⟩
            · exact absurd rfl other
            · exact fs.inj r r' j old old' }

/-! ## What a path reads after each operation -/

theorem Fs.inode_create (fs : Fs) (p : Path) : (fs.create p).2.inode p = some (fs.create p).1 := by
  unfold Fs.create
  split
  · rename_i i named
    exact named
  · exact Function.update_self _ _ _

theorem Fs.inode_create_of_ne (fs : Fs) {p q : Path} (apart : q ≠ p) :
    (fs.create p).2.inode q = fs.inode q := by
  unfold Fs.create
  split
  · rfl
  · exact Function.update_of_ne apart _ _

theorem Fs.inode_create_of_some {fs : Fs} {q : Path} {i : Nat} (named : fs.inode q = some i)
    (p : Path) : (fs.create p).2.inode q = some i := by
  by_cases same : q = p
  · subst same
    unfold Fs.create
    split
    · rename_i j found
      exact named
    · rename_i absent
      rw [named] at absent
      cases absent
  · rw [fs.inode_create_of_ne same, named]

theorem Fs.data_create (fs : Fs) (p : Path) : (fs.create p).2.data (fs.create p).1 = [] := by
  unfold Fs.create
  split <;> exact Function.update_self _ _ _

theorem Fs.read_create_of_ne (fs : Fs) {p q : Path} (apart : q ≠ p) :
    (fs.create p).2.read q = fs.read q := by
  unfold Fs.read
  rw [fs.inode_create_of_ne apart]
  cases named : fs.inode q with
  | none => rfl
  | some j =>
    have other : j ≠ (fs.create p).1 := by
      rintro rfl
      have old : (fs.create p).2.inode q = some (fs.create p).1 := by
        rw [fs.inode_create_of_ne apart, named]
      exact apart ((fs.create p).2.inj q p _ old (fs.inode_create p))
    simp only [Option.map_some, Option.some.injEq]
    unfold Fs.create at other ⊢
    split
    · rename_i i found
      rw [found] at other
      exact Function.update_of_ne other _ _
    · rename_i found
      rw [found] at other
      exact Function.update_of_ne other _ _

@[simp] theorem Fs.inode_write (fs : Fs) (i offset : Nat) (b : Bytes) (p : Path) :
    (fs.write i offset b).inode p = fs.inode p := rfl

theorem Fs.data_write (fs : Fs) (i offset : Nat) (b : Bytes) :
    (fs.write i offset b).data i = writeAt (fs.data i) offset b := by
  simp [Fs.write]

theorem Fs.write_nil (fs : Fs) (i : Nat) : fs.write i 0 [] = fs := by
  simp [Fs.write, writeAt]

/-- A write to an open file is seen under that file's name only. -/
theorem Fs.read_write_of_ne (fs : Fs) {i offset : Nat} {b : Bytes} {p : Path}
    (other : fs.inode p ≠ some i) : (fs.write i offset b).read p = fs.read p := by
  unfold Fs.read
  rw [Fs.inode_write]
  cases named : fs.inode p with
  | none => rfl
  | some j =>
    have apart : j ≠ i := by
      rintro rfl
      exact other named
    simp [Fs.write, Function.update_of_ne apart]

theorem Fs.inode_unlink (fs : Fs) (p : Path) : (fs.unlink p).inode p = none := by
  simp [Fs.unlink, Fs.restrict]

theorem Fs.inode_unlink_of_ne (fs : Fs) {p q : Path} (apart : q ≠ p) :
    (fs.unlink p).inode q = fs.inode q := by
  simp [Fs.unlink, Fs.restrict, apart]

theorem Fs.read_unlink_of_ne (fs : Fs) {p q : Path} (apart : q ≠ p) :
    (fs.unlink p).read q = fs.read q := by
  unfold Fs.read
  rw [fs.inode_unlink_of_ne apart]
  rfl

theorem Fs.inode_removeDirAll_of_outside (fs : Fs) {dir q : Path} (outside : ¬ dir <+: q) :
    (fs.removeDirAll dir).inode q = fs.inode q := by
  have keep : dir.isPrefixOf q = false := by
    by_contra h
    exact outside (List.isPrefixOf_iff_prefix.1 (by simpa using h))
  simp [Fs.removeDirAll, Fs.restrict, keep]

theorem Fs.read_removeDirAll (fs : Fs) (dir q : Path) :
    (fs.removeDirAll dir).read q = bif dir.isPrefixOf q then none else fs.read q := by
  cases inside : dir.isPrefixOf q with
  | true => simp [Fs.read, Fs.removeDirAll, Fs.restrict, inside]
  | false => simp [Fs.read, Fs.removeDirAll, Fs.restrict, inside]

/-- A rename succeeds exactly when there is a file, and moves its inode. -/
theorem Fs.rename_eq_some {fs fs' : Fs} {p q : Path} (call : fs.rename p q = some fs') :
    ∃ i, fs.inode p = some i ∧ fs'.inode = fs.moved p q i ∧ fs'.data = fs.data := by
  unfold Fs.rename at call
  split at call
  · cases call
  · rename_i i named
    cases call
    exact ⟨i, named, rfl, rfl⟩

theorem Fs.rename_isSome {fs : Fs} {p q : Path} {i : Nat} (named : fs.inode p = some i) :
    ∃ fs', fs.rename p q = some fs' := by
  cases call : fs.rename p q with
  | some fs' => exact ⟨fs', rfl⟩
  | none =>
    unfold Fs.rename at call
    split at call
    · rename_i missing
      rw [named] at missing
      cases missing
    · cases call

theorem Fs.read_rename {fs fs' : Fs} {p q : Path} (call : fs.rename p q = some fs') :
    fs'.read q = fs.read p := by
  obtain ⟨i, named, inode, data⟩ := Fs.rename_eq_some call
  simp [Fs.read, inode, data, Fs.moved, named]

theorem Fs.inode_rename {fs fs' : Fs} {p q : Path} (call : fs.rename p q = some fs') :
    fs'.inode q = fs.inode p := by
  obtain ⟨i, named, inode, -⟩ := Fs.rename_eq_some call
  simp [inode, Fs.moved, named]

theorem Fs.inode_rename_of_ne {fs fs' : Fs} {p q r : Path} (call : fs.rename p q = some fs')
    (hp : r ≠ p) (hq : r ≠ q) : fs'.inode r = fs.inode r := by
  obtain ⟨i, -, inode, -⟩ := Fs.rename_eq_some call
  rw [inode, Fs.moved, Function.update_of_ne hq, Function.update_of_ne hp]

theorem Fs.read_rename_of_ne {fs fs' : Fs} {p q r : Path} (call : fs.rename p q = some fs')
    (hp : r ≠ p) (hq : r ≠ q) : fs'.read r = fs.read r := by
  obtain ⟨i, -, -, data⟩ := Fs.rename_eq_some call
  rw [Fs.read, Fs.inode_rename_of_ne call hp hq, data]
  rfl

/-! ## What an operation leaves alone -/

/-- The path has the same file with the same bytes. -/
structure Fs.SameAt (fs fs' : Fs) (p : Path) : Prop where
  inode : fs'.inode p = fs.inode p
  data : ∀ i, fs.inode p = some i → fs'.data i = fs.data i

theorem Fs.SameAt.refl (fs : Fs) (p : Path) : fs.SameAt fs p := ⟨rfl, fun _ _ => rfl⟩

theorem Fs.SameAt.read {fs fs' : Fs} {p : Path} (same : fs.SameAt fs' p) :
    fs'.read p = fs.read p := by
  unfold Fs.read
  rw [same.inode]
  cases named : fs.inode p with
  | none => rfl
  | some i => simp [same.data i named]

/-- What a path reads, when it names the same file, is that file's bytes. -/
theorem Fs.SameAt.of_read {fs fs' : Fs} {p : Path} (inode : fs'.inode p = fs.inode p)
    (read : fs'.read p = fs.read p) : fs.SameAt fs' p := by
  refine ⟨inode, fun i named => ?_⟩
  simpa [Fs.read, inode, named] using read

theorem Fs.sameAt_create (fs : Fs) {p q : Path} (apart : q ≠ p) : fs.SameAt (fs.create p).2 q :=
  .of_read (fs.inode_create_of_ne apart) (fs.read_create_of_ne apart)

theorem Fs.sameAt_write (fs : Fs) {i offset : Nat} {b : Bytes} {q : Path}
    (other : fs.inode q ≠ some i) : fs.SameAt (fs.write i offset b) q :=
  .of_read (fs.inode_write i offset b q) (fs.read_write_of_ne other)

theorem Fs.sameAt_unlink (fs : Fs) {p q : Path} (apart : q ≠ p) : fs.SameAt (fs.unlink p) q :=
  .of_read (fs.inode_unlink_of_ne apart) (fs.read_unlink_of_ne apart)

theorem Fs.sameAt_rename {fs fs' : Fs} {p q r : Path} (call : fs.rename p q = some fs')
    (hp : r ≠ p) (hq : r ≠ q) : fs.SameAt fs' r :=
  .of_read (Fs.inode_rename_of_ne call hp hq) (Fs.read_rename_of_ne call hp hq)

/-! ## Who works on which path -/

section Exclusive

variable {U P : Type} {uses : U → Option P}

/-- No path has two users. -/
def Exclusive (uses : U → Option P) : Prop :=
  ∀ u v p, uses u = some p → uses v = some p → u = v

theorem Exclusive.mono {uses' : U → Option P} (own : Exclusive uses)
    (less : ∀ u p, uses' u = some p → uses u = some p) : Exclusive uses' :=
  fun u v p first second => own u v p (less u p first) (less v p second)

variable [DecidableEq U]

/-- A path that nobody uses gets a user. -/
theorem Exclusive.claim (own : Exclusive uses) (u : U) {p : P} (free : ∀ v, uses v ≠ some p) :
    Exclusive (Function.update uses u (some p)) := by
  have only : ∀ v, Function.update uses u (some p) v = some p → v = u := by
    intro v used
    by_contra apart
    rw [Function.update_of_ne apart] at used
    exact free v used
  intro v w q first second
  by_cases hq : q = p
  · subst hq
    exact (only v first).trans (only w second).symm
  · have old : ∀ x, Function.update uses u (some p) x = some q → uses x = some q := by
      intro x used
      by_cases hx : x = u
      · subst hx
        rw [Function.update_self, Option.some.injEq] at used
        exact absurd used.symm hq
      · rwa [Function.update_of_ne hx] at used
    exact own v w q (old v first) (old w second)

theorem Exclusive.release (own : Exclusive uses) (u : U) :
    Exclusive (Function.update uses u none) := by
  apply own.mono
  intro v p used
  by_cases same : v = u
  · subst same
    rw [Function.update_self] at used
    cases used
  · rwa [Function.update_of_ne same] at used

/-- The path of one user goes to another. -/
theorem Exclusive.transfer (own : Exclusive uses) {u : U} {p : P} (used : uses u = some p) (v : U) :
    Exclusive (Function.update (Function.update uses u none) v (some p)) := by
  refine (own.release u).claim v fun w still => ?_
  by_cases same : w = u
  · subst same
    rw [Function.update_self] at still
    cases still
  · rw [Function.update_of_ne same] at still
    exact same (own w u p still used)

end Exclusive

/-! ## Which files there are -/

def Fs.HasFile (fs : Fs) (p : Path) : Prop := (fs.inode p).isSome = true

theorem Fs.hasFile_iff_read {fs : Fs} {p : Path} :
    fs.HasFile p ↔ ∃ bytes, fs.read p = some bytes := by
  unfold Fs.HasFile Fs.read
  cases fs.inode p <;> simp

theorem Fs.hasFile_create (fs : Fs) (p : Path) {q : Path} (there : fs.HasFile q) :
    (fs.create p).2.HasFile q := by
  unfold Fs.HasFile at *
  by_cases same : q = p
  · subst same
    rw [fs.inode_create]
    rfl
  · rw [fs.inode_create_of_ne same]
    exact there

theorem Fs.hasFile_write (fs : Fs) (i offset : Nat) (b : Bytes) {q : Path} (there : fs.HasFile q) :
    (fs.write i offset b).HasFile q := there

theorem Fs.hasFile_unlink (fs : Fs) {p q : Path} (apart : q ≠ p) (there : fs.HasFile q) :
    (fs.unlink p).HasFile q := by
  unfold Fs.HasFile
  rw [fs.inode_unlink_of_ne apart]
  exact there

theorem Fs.hasFile_removeDirAll (fs : Fs) {dir q : Path} (outside : ¬ dir <+: q)
    (there : fs.HasFile q) : (fs.removeDirAll dir).HasFile q := by
  unfold Fs.HasFile
  rw [fs.inode_removeDirAll_of_outside outside]
  exact there

/-- After a rename the new name has a file. -/
theorem Fs.hasFile_renamed {fs fs' : Fs} {p q : Path} (call : fs.rename p q = some fs') :
    fs'.HasFile q := by
  obtain ⟨i, named, -, -⟩ := Fs.rename_eq_some call
  unfold Fs.HasFile
  rw [Fs.inode_rename call, named]
  rfl

/-- A rename leaves every file but the one it moves. -/
theorem Fs.hasFile_rename {fs fs' : Fs} {p q r : Path} (call : fs.rename p q = some fs')
    (apart : r ≠ p) (there : fs.HasFile r) : fs'.HasFile r := by
  by_cases same : r = q
  · subst same
    exact Fs.hasFile_renamed call
  · unfold Fs.HasFile
    rw [Fs.inode_rename_of_ne call apart same]
    exact there

end Save.Files
