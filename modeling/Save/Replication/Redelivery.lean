import Save.Replication.Service

/-!
# Requests delivered more than once

The client (`replication/client.rs`) repeats a unary call after a transport error,
so a request that has taken effect may come again. An abort that comes again does
nothing. A prepare that comes again replaces its own entry, and dropping that entry
removes the temp file both share; a commit that comes again finds no entry.
-/

namespace Save.Replication
set_option autoImplicit false
open Save.Text Save.Kv Save.Common Save.Files Save.Storage

variable [Sha256] {s : ObjectStorage}

/-- The service after a prepare request has been delivered at each of the times. -/
def prepares (svc : Service s) (req : PrepareRequest) (times : List Nat) : Service s :=
  times.foldl (fun svc now => (prepareObject svc now req).1) svc

/-- A commit delivered `again + 1` times, with the last answer. -/
def commits (svc : Service s) (t : String) : Nat → Service s × Response
  | 0 => commitObject svc t
  | again + 1 => commits (commitObject svc t).1 t again

/-- An abort delivered `again + 1` times, with the last answer. -/
def aborts (svc : Service s) (t : String) : Nat → Service s × Response
  | 0 => abortObject svc t
  | again + 1 => aborts (abortObject svc t).1 t again

section Prepares

variable {req : PrepareRequest}

/-- Once a prepare has found an entry under its id, the id has an entry without a file. -/
theorem prepares_again (accepted : Accepted req) (times : List Nat) {svc : Service s} {p : Pending}
    (there : svc.pending.get (tempId req.requestId req.key) = some p)
    (gone : times = [] → svc.fs.inode (s.tempOf req.key) = none) :
    (∃ p', (prepares svc req times).pending.get (tempId req.requestId req.key) = some p') ∧
      (prepares svc req times).fs.inode (s.tempOf req.key) = none := by
  induction times generalizing svc p with
  | nil => exact ⟨⟨p, there⟩, gone rfl⟩
  | cons now times ih =>
    obtain ⟨-, -, files⟩ := prepareObject_accepted svc now accepted
    rw [there] at files
    refine ih (get_prepareObject svc now accepted) fun _ => ?_
    rw [files]
    exact Fs.inode_unlink _ _

theorem prepares_delete (req : PrepareRequest) (svc : Service s) (times : List Nat) :
    (prepares svc req times).pending.delete (tempId req.requestId req.key) =
      svc.pending.delete (tempId req.requestId req.key) := by
  induction times generalizing svc with
  | nil => rfl
  | cons now times ih =>
    refine (ih (prepareObject svc now req).1).trans ?_
    by_cases accepted : Accepted req
    · rw [(prepareObject_accepted svc now accepted).2.1, put_delete]
    · rw [prepareObject_refused svc now accepted]

theorem read_prepares (svc : Service s) (times : List Nat) (key : String) :
    (prepares svc req times).fs.read (s.pathOf key) = svc.fs.read (s.pathOf key) := by
  induction times generalizing svc with
  | nil => rfl
  | cons now times ih =>
    refine (ih (prepareObject svc now req).1).trans ?_
    exact read_prepareObject svc now req key

end Prepares

/-- A commit without a temp file fails. -/
theorem commitObject_gone {svc : Service s} {requestId : Nat} {key : String} {p : Pending}
    (there : svc.pending.get (tempId requestId key) = some p)
    (gone : svc.fs.inode (s.tempOf key) = none) :
    (commitObject svc (tempId requestId key)).2.success = false := by
  have own := svc.temp_eq there
  have failed : svc.fs.rename (s.tempOf key) (s.pathOf key) = none := by
    by_contra h
    obtain ⟨fs, call⟩ := Option.ne_none_iff_exists'.1 h
    obtain ⟨i, named, -⟩ := Fs.rename_eq_some call
    rw [gone] at named
    cases named
  unfold commitObject
  rw [there]
  simp only [own, tempObject, failed]

/-- A commit of a fresh prepare succeeds and publishes its data. -/
theorem commitObject_prepared {svc : Service s} {requestId : Nat} {key : String} {p : Pending}
    {data : Bytes} (there : svc.pending.get (tempId requestId key) = some p)
    (file : svc.fs.read (s.tempOf key) = some data) :
    (commitObject svc (tempId requestId key)).2.success = true ∧
      (commitObject svc (tempId requestId key)).1.fs.read (s.pathOf key) = some data := by
  have own := svc.temp_eq there
  obtain ⟨i, named, bytes⟩ := Option.map_eq_some_iff.1 file
  obtain ⟨fs, call⟩ := Fs.rename_isSome (q := s.pathOf key) named
  unfold commitObject
  rw [there]
  simp only [own, tempObject, call]
  refine ⟨trivial, ?_⟩
  show fs.read (s.pathOf key) = some data
  rw [Fs.read_rename call, file]

theorem commitObject_absent {svc : Service s} {t : String} (absent : svc.pending.get t = none) :
    commitObject svc t = (svc, ⟨false, "no pending prepare for temp_id: " ++ t⟩) := by
  unfold commitObject
  rw [absent]

/-- A commit leaves no entry under its id. -/
theorem commitObject_removes (svc : Service s) (t : String) :
    (commitObject svc t).1.pending.get t = none := by
  unfold commitObject
  cases there : svc.pending.get t with
  | none => exact there
  | some p =>
    simp only
    split <;> simp [Service.remove]

/-- Later deliveries of a commit do nothing. -/
theorem commits_state (svc : Service s) (t : String) (again : Nat) :
    (commits svc t again).1 = (commitObject svc t).1 := by
  induction again generalizing svc with
  | zero => rfl
  | succ again ih =>
    rw [commits, ih, commitObject_absent (commitObject_removes svc t)]

/-- A commit changes no other object's file. -/
theorem read_commitObject_of_ne (svc : Service s) (requestId : Nat) {key key' : String}
    (apart : s.pathOf key' ≠ s.pathOf key) :
    (commitObject svc (tempId requestId key)).1.fs.read (s.pathOf key') =
      svc.fs.read (s.pathOf key') := by
  have temp := (tempOf_ne_pathOf s key key').symm
  unfold commitObject
  cases there : svc.pending.get (tempId requestId key) with
  | none => rfl
  | some p =>
    simp only [svc.temp_eq there, tempObject]
    split
    · rename_i fs call
      exact Fs.read_rename_of_ne call temp apart
    · exact svc.fs.read_unlink_of_ne temp

/-- Without a temp file a commit changes no object. -/
theorem read_commitObject_gone {svc : Service s} {requestId : Nat} {key : String}
    (gone : svc.fs.inode (s.tempOf key) = none) :
    (commitObject svc (tempId requestId key)).1.fs.read (s.pathOf key) =
      svc.fs.read (s.pathOf key) := by
  unfold commitObject
  cases there : svc.pending.get (tempId requestId key) with
  | none => rfl
  | some p =>
    simp only [svc.temp_eq there, tempObject]
    split
    · rename_i fs call
      obtain ⟨i, named, -⟩ := Fs.rename_eq_some call
      rw [gone] at named
      cases named
    · exact svc.fs.read_unlink_of_ne (tempOf_ne_pathOf s key key).symm

theorem commits_absent {svc : Service s} {t : String} (absent : svc.pending.get t = none)
    (again : Nat) : (commits svc t again).2.success = false := by
  induction again with
  | zero => rw [commits, commitObject_absent absent]
  | succ again ih => rw [commits, commitObject_absent absent]; exact ih

theorem aborts_spec (svc : Service s) (t : String) (again : Nat) :
    (aborts svc t again).2 = ⟨true, ""⟩ ∧ (aborts svc t again).1.pending = svc.pending.delete t ∧
      ∀ key, (aborts svc t again).1.fs.read (s.pathOf key) = svc.fs.read (s.pathOf key) := by
  induction again generalizing svc with
  | zero => exact abortObject_spec svc t
  | succ again ih =>
    obtain ⟨-, table, files⟩ := abortObject_spec svc t
    obtain ⟨answer, table', files'⟩ := ih (abortObject svc t).1
    refine ⟨answer, ?_, fun key => (files' key).trans (files key)⟩
    rw [aborts, table', table, delete_delete]

/-- The outcome of two deliveries of a transaction is the same: the object, the table and
the last answer, which is success. -/
def SameOutcome (key : String) (many once : Service s × Response) : Prop :=
  many.1.fs.read (s.pathOf key) = once.1.fs.read (s.pathOf key) ∧
    many.1.pending = once.1.pending ∧ many.2 = once.2 ∧ many.2.success = true

/-- **Redelivery.** Delivered several times, a prepare and its commit have the outcome of one
delivery each only if they were in fact delivered once each, to a participant with
nothing under the transaction's id; a prepare and its abort always have it. -/
theorem redelivery_iff (svc : Service s) (req : PrepareRequest) (accepted : Accepted req)
    (now : Nat) (times : List Nat) (again : Nat) :
    (SameOutcome req.key
        (commits (prepares svc req (now :: times)) (tempId req.requestId req.key) again)
        (commitObject (prepareObject svc now req).1 (tempId req.requestId req.key)) ↔
      times = [] ∧ again = 0 ∧ svc.pending.get (tempId req.requestId req.key) = none) ∧
    SameOutcome req.key
      (aborts (prepares svc req (now :: times)) (tempId req.requestId req.key) again)
      (abortObject (prepareObject svc now req).1 (tempId req.requestId req.key)) := by
  obtain ⟨-, -, files⟩ := prepareObject_accepted svc now accepted
  have entry := get_prepareObject svc now accepted
  constructor
  · constructor
    · rintro ⟨-, -, -, success⟩
      -- a second commit finds nothing, whatever the first one did
      have last : again = 0 := by
        cases again with
        | zero => rfl
        | succ again =>
          rw [commits, commits_absent (commitObject_removes _ _)] at success
          cases success
      subst last
      by_cases fresh : times = [] ∧ svc.pending.get (tempId req.requestId req.key) = none
      · exact ⟨fresh.1, rfl, fresh.2⟩
      · exfalso
        have gone : times = [] →
            (prepareObject svc now req).1.fs.inode (s.tempOf req.key) = none := by
          intro once
          cases there : svc.pending.get (tempId req.requestId req.key) with
          | none => exact absurd ⟨once, there⟩ fresh
          | some old =>
            rw [there] at files
            rw [files]
            exact Fs.inode_unlink _ _
        obtain ⟨⟨p, there⟩, missing⟩ := prepares_again accepted times entry gone
        have failed := commitObject_gone there missing
        exact absurd (success.symm.trans failed) (by decide)
    · rintro ⟨rfl, rfl, absent⟩
      rw [absent] at files
      have file : (prepareObject svc now req).1.fs.read (s.tempOf req.key) = some req.data := by
        rw [files]
        exact read_writeFile _ _ _
      exact ⟨rfl, rfl, rfl, (commitObject_prepared entry file).1⟩
  · obtain ⟨answer, table', files'⟩ := aborts_spec (prepares svc req (now :: times))
      (tempId req.requestId req.key) again
    obtain ⟨answer₁, table₁, files₁⟩ := abortObject_spec (prepareObject svc now req).1
      (tempId req.requestId req.key)
    refine ⟨?_, ?_, ?_, ?_⟩
    · rw [files', files₁, read_prepares, read_prepareObject]
    · rw [table', table₁, prepares_delete]
      exact (prepares_delete req svc [now]).symm
    · rw [answer, answer₁]
    · rw [answer]

/-- A prepare of `abc/k` with the single byte 1. -/
def sampleRequest : PrepareRequest := ⟨"abc/k", [1], Sha256.digest [1], 1⟩

omit [Sha256] in
theorem redelivery_once_sample :
    letI : Sha256 := Sha256.sampled
    Accepted sampleRequest ∧
    SameOutcome "abc/k"
      (commits (prepares (Service.empty sampleStorage) sampleRequest [0]) (tempId 1 "abc/k") 0)
      (commitObject (prepareObject (Service.empty sampleStorage) 0 sampleRequest).1
        (tempId 1 "abc/k")) := by
  let _ : Sha256 := Sha256.sampled
  have accepted : Accepted sampleRequest := ⟨.inr rfl, by decide⟩
  refine ⟨accepted, ?_⟩
  exact (redelivery_iff (Service.empty sampleStorage) sampleRequest accepted 0 [] 0).1.2
    ⟨rfl, rfl, get_empty _⟩

omit [Sha256] in
/-- A prepare delivered twice makes its commit fail. -/
theorem redelivered_prepare_lost :
    ¬ ∀ [Sha256] (s : ObjectStorage) (svc : Service s) (req : PrepareRequest), Accepted req →
      ∀ (now : Nat) (times : List Nat) (again : Nat),
      SameOutcome req.key
        (commits (prepares svc req (now :: times)) (tempId req.requestId req.key) again)
        (commitObject (prepareObject svc now req).1 (tempId req.requestId req.key)) := by
  intro claim
  let _ : Sha256 := Sha256.sampled
  have accepted : Accepted sampleRequest := ⟨.inr rfl, by decide⟩
  have same := claim sampleStorage (Service.empty sampleStorage) sampleRequest accepted 0 [1] 0
  have failed : (commits (prepares (Service.empty sampleStorage) sampleRequest [0, 1])
      (tempId 1 "abc/k") 0).2.success = false := by decide +kernel
  exact absurd (same.2.2.2.symm.trans failed) (by decide)

end Save.Replication
