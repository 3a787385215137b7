import Save.Replication.Interleaving

/-!
# Isolation of prepares

All prepares of a key use one temp file (`replication/service.rs`), and an id does not
name its coordinator. As long as a prepare starts only when nobody works on its temp
file, and a commit comes from the coordinator its entry was acknowledged to,
every temp file has one user; then a commit that answers success has published
the bytes of its own prepare, and no request touches the temp data of another
prepare. Without the condition a commit can publish the bytes of a prepare that
is still under way.

The invariant (`Running.Sound`) gives each entry of the table its origin, each job
the temp file it is working on, and each temp file one user. A step works on the
files of its own user and so leaves those of the others alone.
-/

namespace Save.Replication
set_option autoImplicit false
open Save.Text Save.Kv Save.Common Save.Files Save.Storage Save.Run

variable [Sha256] {s : ObjectStorage}

/-! ## Users of temp files -/

/-- Who may work on a temp file: an entry of the table or a job. -/
inductive User where
  | entry (t : String)
  | job (i : Nat)
  deriving DecidableEq

/-- The temp file a job works on. -/
def Job.temp (s : ObjectStorage) : Job → Option Path
  | .preparing o _ => some (s.tempOf o.key)
  | .committing _ _ _ _ stage => stage.temp.map TempObject.tempPath
  | .aborting temp => some temp.tempPath

def Running.uses (sys : Running s) : User → Option Path
  | .entry t => (sys.service.pending.get t).map fun p => p.temp.tempPath
  | .job i => (sys.jobs i).bind (Job.temp s)

/-- Nobody works on the temp file of the key. -/
def Running.Clear (sys : Running s) (key : String) : Prop :=
  ∀ u, sys.uses u ≠ some (s.tempOf key)

/-- A prepare that starts has its temp file to itself, and a commit that finds an entry
comes from the coordinator whose prepare the entry is. -/
def OwnWork (sys : Running s) : RequestEvent → Prop
  | .prepare c call => ∀ o, call.checked c = some o → sys.Clear o.key
  | .commit c t => ∀ p, sys.service.pending.get t = some p →
      ∃ o, sys.origins t = some o ∧ o.coordinator = c
  | _ => True

/-- A commit that answers success has published the bytes of the prepare last acknowledged
under its id to the coordinator that sent it, at that prepare's key, and a prepare that is
pending before and after the step keeps its temp data. -/
structure Isolated (sys : Running s) (e : RequestEvent) (sys' : Running s) : Prop where
  published : ∀ i c t acked object, e = .answer i →
    sys.jobs i = some (.committing c t acked object .committed) →
    ∃ o, acked = some o ∧ o.coordinator = c ∧ o.tempId = t ∧
      object = some (s.pathOf o.key, o.data)
  kept : ∀ t p p', sys.service.pending.get t = some p → sys'.service.pending.get t = some p' →
    sys'.service.fs.read p.temp.tempPath = sys.service.fs.read p.temp.tempPath

/-! ## The invariant -/

/-- What a job knows of its temp file, and what a commit has published. -/
def Job.Holds (s : ObjectStorage) (fs : Fs) : Job → Prop
  | .preparing o stage => stage.Content s o.key o.data fs
  | .committing c t acked object stage => ∃ o, acked = some o ∧ o.coordinator = c ∧ o.tempId = t ∧
      Writing stage = false ∧ stage.Content s o.key o.data fs ∧
      object = if stage.published then some (s.pathOf o.key, o.data) else none
  | .aborting temp => ∃ key, temp = tempObject s key

/-- What the table knows of an entry. -/
structure Running.Entry (sys : Running s) (t : String) (o : Origin) : Prop where
  origin : sys.origins t = some o
  id : o.tempId = t
  acked : sys.acked o.coordinator t = some o
  file : sys.service.fs.read (s.tempOf o.key) = some o.data

structure Running.Sound (sys : Running s) : Prop where
  entries : ∀ t p, sys.service.pending.get t = some p → ∃ o, sys.Entry t o
  jobs : ∀ i job, sys.jobs i = some job → job.Holds s sys.service.fs
  own : Exclusive sys.uses

theorem Running.Sound.start (fs : Fs) : (Running.start s fs).Sound := by
  refine ⟨fun t p there => ?_, (fun i job found => by cases found), fun u v p used => ?_⟩
  · simp [Running.start, Service.fresh] at there
  · cases u <;> simp [Running.uses, Running.start, Service.fresh] at used

/-- At the start every prepare may begin. -/
theorem Running.clear_start (s : ObjectStorage) (fs : Fs) (key : String) :
    (Running.start s fs).Clear key := by
  intro u
  cases u <;> simp [Running.uses, Running.start, Service.fresh]

section Frame

variable {sys sys' : Running s} {fs fs' : Fs} {u : User} {p : Path}

/-- The path of an entry is the temp file of its origin's key. -/
theorem Running.Entry.temp {t : String} {o : Origin} (entry : sys.Entry t o) {q : Pending}
    (there : sys.service.pending.get t = some q) : q.temp = tempObject s o.key := by
  obtain rfl := entry.id
  exact sys.service.temp_eq there

theorem Running.Entry.uses {t : String} {o : Origin} (entry : sys.Entry t o) {q : Pending}
    (there : sys.service.pending.get t = some q) :
    sys.uses (.entry t) = some (s.tempOf o.key) := by
  simp [Running.uses, there, entry.temp there, tempObject]

theorem Running.Entry.keep {t : String} {o : Origin} (entry : sys.Entry t o)
    (origins : sys'.origins t = sys.origins t)
    (acked : sys'.acked o.coordinator t = sys.acked o.coordinator t)
    (file : sys'.service.fs.read (s.tempOf o.key) = sys.service.fs.read (s.tempOf o.key)) :
    sys'.Entry t o :=
  ⟨origins.trans entry.origin, entry.id, acked.trans entry.acked, file.trans entry.file⟩

/-- Every file that a job works on is a temp file. -/
theorem Job.Holds.temp {job : Job} (holds : job.Holds s fs) (used : job.temp s = some p) :
    ∃ key, p = s.tempOf key := by
  cases job with
  | preparing o stage => exact ⟨o.key, (Option.some.inj used).symm⟩
  | aborting temp =>
    obtain ⟨key, rfl⟩ := holds
    exact ⟨key, (Option.some.inj used).symm⟩
  | committing c t acked object stage =>
    obtain ⟨o, -, -, -, -, content, -⟩ := holds
    obtain ⟨temp, there, rfl⟩ := Option.map_eq_some_iff.1 used
    exact ⟨o.key, by rw [content.names there]⟩

/-- A job does not notice what happens to other files. -/
theorem Job.Holds.frame {job : Job} (holds : job.Holds s fs)
    (same : ∀ q, job.temp s = some q → fs.SameAt fs' q) : job.Holds s fs' := by
  cases job with
  | preparing o stage => exact Stage.Content.frame holds (same _ rfl)
  | aborting temp => exact holds
  | committing c t acked object stage =>
    obtain ⟨o, rest, sender, id, late, content, done⟩ := holds
    refine ⟨o, rest, sender, id, late, ?_, done⟩
    cases held : stage.temp with
    | some temp =>
      have kept := same temp.tempPath (by simp [Job.temp, held])
      rw [content.names held] at kept
      exact content.frame kept
    | none =>
      -- only a finished commit holds no temp object, and it says nothing of files
      cases stage <;> trivial

end Frame

/-! ## Steps of a job -/

section Jobs

variable {sys : Running s} {i : Nat} {job : Job} {fs' : Fs}

/-- When one user touches its own temp file only, the others do not notice. -/
theorem Running.Sound.others (sound : sys.Sound) (fs' : Fs) (u : User)
    (frame : ∀ key, sys.uses u ≠ some (s.tempOf key) →
      sys.service.fs.SameAt fs' (s.tempOf key)) :
    (∀ t p o, sys.service.pending.get t = some p → sys.Entry t o → .entry t ≠ u →
      fs'.read (s.tempOf o.key) = sys.service.fs.read (s.tempOf o.key)) ∧
    ∀ j other, sys.jobs j = some other → .job j ≠ u → other.Holds s fs' := by
  have apart : ∀ v key, sys.uses v = some (s.tempOf key) → v ≠ u →
      sys.service.fs.SameAt fs' (s.tempOf key) := by
    intro v key used other
    exact frame key fun clash => other (sound.own v u _ used clash)
  constructor
  · intro t p o found entry other
    exact (apart _ o.key (entry.uses found) other).read
  · intro j job found other
    have known := sound.jobs j job found
    refine known.frame fun q there => ?_
    obtain ⟨key, rfl⟩ := known.temp there
    exact apart (.job j) key (by simp [Running.uses, found, there]) other

/-- A job that touches its own temp file among the temp files leaves the rest sound. -/
theorem Running.Sound.after (sound : sys.Sound) (there : sys.jobs i = some job) {job' : Option Job}
    (frame : ∀ key, job.temp s ≠ some (s.tempOf key) → sys.service.fs.SameAt fs' (s.tempOf key))
    (holds : ∀ j, job' = some j → j.Holds s fs')
    (less : ∀ p, job'.bind (Job.temp s) = some p → job.temp s = some p) :
    (sys.after fs' i job').Sound := by
  have used : sys.uses (.job i) = job.temp s := by simp [Running.uses, there]
  obtain ⟨files, jobs⟩ := sound.others fs' (.job i) (by rwa [used])
  refine ⟨fun t p found => ?_, fun j other found => ?_, sound.own.mono fun u p used' => ?_⟩
  · obtain ⟨o, entry⟩ := sound.entries t p found
    exact ⟨o, entry.keep rfl rfl (files t p o found entry (by simp))⟩
  · by_cases same : j = i
    · subst same
      exact holds other (by simpa [Running.after] using found)
    · have found' : sys.jobs j = some other := by simpa [Running.after, same] using found
      exact jobs j other found' (by simpa using same)
  · cases u with
    | entry t => exact used'
    | job j =>
      by_cases same : j = i
      · subst same
        rw [used]
        exact less p (by simpa [Running.uses, Running.after] using used')
      · simpa [Running.uses, Running.after, same] using used'

/-- After `write_temp_object` the key and the body play no part. -/
theorem commitStep_eq {fs : Fs} {stage : Stage} (late : Writing stage = false) (key : String)
    (body : Bytes) : commitStep s fs stage = s.advance key body 0 fs stage := by
  cases stage with
  | start => cases late
  | handle t => cases late
  | copying t _ _ _ => cases late
  | copied t => cases late
  | written t => rfl
  | dirMade t => rfl
  | renamed t => rfl
  | committed => rfl

/-- A commit takes up no other temp object, and its publication is the body. -/
theorem commit_advance {key : String} {body : Bytes} {n : Nat} {fs : Fs} {stage stage' : Stage}
    (content : stage.Content s key body fs) (late : Writing stage = false)
    (step : s.advance key body n fs stage = some (fs', stage')) :
    (∃ t, stage.temp = some t) ∧ Writing stage' = false ∧
    (∀ t, stage'.temp = some t → stage.temp = some t) ∧
    publication fs' (if stage.published then some (s.pathOf key, body) else none) stage =
      if stage'.published then some (s.pathOf key, body) else none := by
  cases advance_cases step with
  | start => cases late
  | create t => cases late
  | write t ino offset chunk rest => cases late
  | copied t ino offset => cases late
  | synced t => cases late
  | dirMade t => exact ⟨⟨t, rfl⟩, rfl, fun _ held => held, rfl⟩
  | rename t moved next =>
    obtain ⟨rfl, temp⟩ := content
    have read : fs'.read (s.pathOf key) = some body := (Fs.read_rename moved).trans temp
    have object : publication fs' none (.dirMade ⟨s.tempOf key, s.pathOf key⟩) =
        some (s.pathOf key, body) := by
      simp [publication, read]
    obtain rfl | rfl := next
    · exact ⟨⟨_, rfl⟩, rfl, fun _ held => held, object⟩
    · exact ⟨⟨_, rfl⟩, rfl, (fun _ held => by cases held), object⟩
  | dirSynced t => exact ⟨⟨t, rfl⟩, rfl, (fun _ held => by cases held), rfl⟩

/-- What a job knows after its next operation. -/
theorem Job.Holds.advance {fs : Fs} (holds : job.Holds s fs) {n : Nat} {job' : Option Job}
    (step : job.advance s n fs = some (fs', job')) :
    (∀ key, job.temp s ≠ some (s.tempOf key) → fs.SameAt fs' (s.tempOf key)) ∧
    (∀ j, job' = some j → j.Holds s fs') ∧
    ∀ p, job'.bind (Job.temp s) = some p → job.temp s = some p := by
  cases job with
  | preparing o stage =>
    have content : stage.Content s o.key o.data fs := holds
    simp only [Job.advance] at step
    split at step
    · obtain ⟨⟨fs₁, stage'⟩, next, same⟩ := Option.map_eq_some_iff.1 step
      cases same
      refine ⟨fun key apart => ?_, ?_, fun p used => used⟩
      · exact content.advance_sameAt next (fun same => apart (congrArg some same.symm))
          (tempOf_ne_pathOf s key o.key)
      · rintro j ⟨rfl⟩
        exact content.advance next
    · cases step
  | aborting temp =>
    obtain ⟨key, rfl⟩ := holds
    cases step
    refine ⟨fun key' apart => ?_, (fun j ended => by cases ended), fun p used => by cases used⟩
    exact fs.sameAt_unlink fun same => apart (congrArg some same.symm)
  | committing c t acked object stage =>
    obtain ⟨o, rest, sender, id, late, content, rfl⟩ := holds
    obtain ⟨⟨fs₁, stage'⟩, next, same⟩ := Option.map_eq_some_iff.1 step
    cases same
    rw [commitStep_eq late o.key o.data] at next
    obtain ⟨⟨temp, held⟩, late', temps, published⟩ := commit_advance content late next
    refine ⟨fun key apart => ?_, ?_, fun p used => ?_⟩
    · refine content.advance_sameAt next (fun same => apart ?_) (tempOf_ne_pathOf s key o.key)
      rw [Job.temp, held, content.names held, same]
      rfl
    · rintro j ⟨rfl⟩
      exact ⟨o, rest, sender, id, late', content.advance next, published⟩
    · obtain ⟨temp', held', rfl⟩ := Option.map_eq_some_iff.1 used
      simp [Job.temp, temps temp' held']

/-- A job that fails removes its own temp file at most. -/
theorem Job.Holds.dropped_sameAt {fs : Fs} (holds : job.Holds s fs) {key : String}
    (apart : job.temp s ≠ some (s.tempOf key)) : fs.SameAt (job.dropped fs) (s.tempOf key) := by
  cases job with
  | preparing o stage =>
    exact Stage.Content.dropped_sameAt holds fun same => apart (congrArg some same.symm)
  | aborting temp =>
    exact fs.sameAt_unlink fun same => apart (congrArg some same.symm)
  | committing c t acked object stage =>
    rw [Job.dropped, Stage.dropped_eq]
    split
    · exact .refl fs _
    · rename_i temp held
      refine fs.sameAt_unlink fun same => apart ?_
      simp [Job.temp, held, same]

/-- A job that ends, with its temp file dropped or left. -/
theorem Running.Sound.ended (sound : sys.Sound) (there : sys.jobs i = some job)
    (frame : ∀ key, job.temp s ≠ some (s.tempOf key) → sys.service.fs.SameAt fs' (s.tempOf key)) :
    (sys.after fs' i none).Sound :=
  sound.after there frame nofun nofun

end Jobs

/-! ## Steps of the table -/

section Table

variable {sys : Running s}

/-- The table after an entry has been taken out, with a job that works on its temp file. -/
theorem Running.Sound.take (sound : sys.Sound) {t : String} {p : Pending}
    (there : sys.service.pending.get t = some p) {job : Job}
    (holds : job.Holds s sys.service.fs) (temp : job.temp s = some p.temp.tempPath) :
    (sys.take t job).Sound := by
  refine ⟨fun t' p' found => ?_, fun j other found => ?_, ?_⟩
  · obtain ⟨o, entry⟩ := sound.entries t' p' (get_delete_eq_some.1 found).2
    exact ⟨o, entry.keep rfl rfl rfl⟩
  · by_cases same : j = sys.next
    · subst same
      obtain rfl : job = other := by simpa [Running.take, Running.begin] using found
      exact holds
    · exact sound.jobs j other (by simpa [Running.take, Running.begin, same] using found)
  · have used : sys.uses (.entry t) = some p.temp.tempPath := by simp [Running.uses, there]
    have moved := sound.own.transfer used (.job sys.next)
    convert moved using 1
    funext u
    cases u with
    | entry t' =>
      by_cases same : t' = t
      · subst same
        simp [Running.uses, Running.take, Running.begin, Service.remove]
      · have apart : t ≠ t' := fun h => same h.symm
        simp [Running.uses, Running.take, Running.begin, Service.remove, same, apart]
    | job j =>
      by_cases same : j = sys.next
      · subst same
        simp [Running.uses, Running.take, Running.begin, temp]
      · simp [Running.uses, Running.take, Running.begin, same]

/-- A new prepare on a temp file that nobody uses. -/
theorem Running.Sound.prepare (sound : sys.Sound) {o : Origin} (clear : sys.Clear o.key) :
    (sys.begin (.preparing o .start)).Sound := by
  refine ⟨fun t p found => ?_, fun j other found => ?_, ?_⟩
  · obtain ⟨o', entry⟩ := sound.entries t p found
    exact ⟨o', entry.keep rfl rfl rfl⟩
  · by_cases same : j = sys.next
    · subst same
      obtain rfl : Job.preparing o .start = other := by simpa [Running.begin] using found
      trivial
    · exact sound.jobs j other (by simpa [Running.begin, same] using found)
  · convert sound.own.claim (.job sys.next) clear using 1
    funext u
    cases u with
    | entry t => simp [Running.uses, Running.begin]
    | job j =>
      by_cases same : j = sys.next
      · subst same
        simp [Running.uses, Running.begin, Job.temp]
      · simp [Running.uses, Running.begin, same]

/-- The temp file of a prepare goes from its job to its entry. -/
theorem Running.Sound.register (sound : sys.Sound) {i : Nat} {o : Origin} {temp : TempObject}
    (there : sys.jobs i = some (.preparing o (.written temp))) (now : Nat) :
    sys.service.pending.get o.tempId = none ∧ (sys.register i o now).Sound := by
  have used : sys.uses (.job i) = some (s.tempOf o.key) := by
    simp [Running.uses, there, Job.temp]
  -- an entry under this id would work on the same temp file
  have absent : sys.service.pending.get o.tempId = none := by
    by_contra present
    obtain ⟨p, found⟩ := Option.ne_none_iff_exists'.1 present
    have used' : sys.uses (.entry o.tempId) = some (s.tempOf o.key) := by
      simp [Running.uses, found, sys.service.temp_eq found, tempObject]
    cases sound.own _ _ _ used used'
  have files : (sys.register i o now).service.fs = sys.service.fs := by
    show (sys.service.insert o.requestId o.key _ rfl).fs = _
    unfold Service.insert
    rw [show sys.service.pending.get (tempId o.requestId o.key) = none from absent]
  refine ⟨absent, fun t p found => ?_, fun j other found => ?_, ?_⟩
  · have found' : (sys.service.pending.put o.tempId _).get t = some p := found
    rw [get_put] at found'
    split at found'
    · rename_i same
      subst same
      obtain ⟨-, file⟩ := sound.jobs i _ there
      exact ⟨o, by simp [Running.register], rfl, by simp [Running.register], by rw [files]; exact file⟩
    · rename_i apart
      obtain ⟨o', entry⟩ := sound.entries t p found'
      have apart' : t ≠ o.tempId := fun same => apart same.symm
      refine ⟨o', entry.keep (by simp [Running.register, apart']) ?_ (by rw [files])⟩
      by_cases same : o'.coordinator = o.coordinator
      · simp [Running.register, same, apart']
      · simp [Running.register, same]
  · have found' : sys.jobs j = some other := by
      by_cases same : j = i
      · subst same
        simp [Running.register] at found
      · simpa [Running.register, same] using found
    rw [files]
    exact sound.jobs j other found'
  · convert sound.own.transfer used (.entry o.tempId) using 1
    funext u
    cases u with
    | entry t =>
      by_cases same : t = o.tempId
      · subst same
        simp [Running.uses, Running.register, Service.insert, Origin.tempId, tempObject]
      · have apart : tempId o.requestId o.key ≠ t := fun h => same h.symm
        simp [Running.uses, Running.register, Service.insert, same, apart]
    | job j =>
      by_cases same : j = i
      · subst same
        simp [Running.uses, Running.register]
      · simp [Running.uses, Running.register, same]

/-- An entry dropped by the cleanup takes its own temp file with it. -/
theorem Running.Sound.abortObject (sound : sys.Sound) (t : String) :
    ({ sys with service := (Replication.abortObject sys.service t).1 } : Running s).Sound := by
  cases there : sys.service.pending.get t with
  | none =>
    have same : (Replication.abortObject sys.service t).1 = sys.service := by
      simp [Replication.abortObject, there]
    rw [same]
    exact sound
  | some p =>
    obtain ⟨o, entry⟩ := sound.entries t p there
    have used := entry.uses there
    have own := entry.temp there
    have dropped : (Replication.abortObject sys.service t).1 =
        sys.service.remove t (sys.service.fs.unlink (s.tempOf o.key)) := by
      simp [Replication.abortObject, there, own, tempObject]
    obtain ⟨files, jobs⟩ := sound.others (sys.service.fs.unlink (s.tempOf o.key)) (.entry t)
      fun key apart => sys.service.fs.sameAt_unlink fun same => apart (by rw [used, same])
    rw [dropped]
    refine ⟨fun t' p' found => ?_, fun j other found => jobs j other found (by simp), ?_⟩
    · obtain ⟨apart, found'⟩ := get_delete_eq_some.1 found
      obtain ⟨o', entry'⟩ := sound.entries t' p' found'
      exact ⟨o', entry'.keep rfl rfl (files t' p' o' found' entry' (by simpa using apart))⟩
    · refine sound.own.mono fun u p used' => ?_
      cases u with
      | job j => exact used'
      | entry t' =>
        obtain ⟨p', found, rfl⟩ := Option.map_eq_some_iff.1 used'
        simp [Running.uses, (get_delete_eq_some.1 found).2]

theorem Running.Sound.cleanup (sound : sys.Sound) (now maxAge : Nat) :
    ({ sys with service := (cleanupStalePrepares sys.service now maxAge).1 } : Running s).Sound := by
  unfold cleanupStalePrepares
  generalize staleIds sys.service now maxAge = ids
  induction ids generalizing sys with
  | nil => exact sound
  | cons t ids ih => exact ih (sound.abortObject t)

end Table

/-! ## Runs -/

variable {sys sys' : Running s} {e : RequestEvent}

/-- A step under the condition keeps the invariant. -/
theorem Running.Sound.step (sound : sys.Sound) (work : OwnWork sys e)
    (next : sys.step e = some sys') : sys'.Sound := by
  cases e with
  | prepare c call =>
    simp only [Running.step] at next
    split at next
    · cases next
      exact sound
    · rename_i o checked
      cases next
      exact sound.prepare (work o checked)
  | commit c t =>
    simp only [Running.step] at next
    split at next
    · cases next
      exact sound
    · rename_i p there
      cases next
      obtain ⟨o, entry⟩ := sound.entries t p there
      obtain ⟨o', origin, sender⟩ := work p there
      obtain rfl : o' = o := Option.some.inj (origin.symm.trans entry.origin)
      have own := entry.temp there
      refine sound.take there ⟨o', ?_, sender, entry.id, rfl, ⟨own, entry.file⟩, rfl⟩ rfl
      rw [← sender]
      exact entry.acked
  | abort c t =>
    simp only [Running.step] at next
    split at next
    · cases next
      exact sound
    · rename_i p there
      cases next
      obtain ⟨o, entry⟩ := sound.entries t p there
      exact sound.take there ⟨o.key, entry.temp there⟩ rfl
  | advance i n =>
    obtain ⟨job, there, rest⟩ := Option.bind_eq_some_iff.1 next
    obtain ⟨⟨fs', job'⟩, moved, same⟩ := Option.bind_eq_some_iff.1 rest
    cases same
    obtain ⟨frame, holds, less⟩ := (sound.jobs i job there).advance moved
    exact sound.after there frame holds less
  | register i now =>
    simp only [Running.step] at next
    split at next
    · rename_i o temp there
      split at next
      · cases next
        obtain ⟨rfl, -⟩ := sound.jobs i _ there
        exact sound.ended there fun key apart =>
          sys.service.fs.sameAt_unlink fun same => apart (congrArg some same.symm)
      · cases next
        exact (sound.register there now).2
    · cases next
  | answer i =>
    simp only [Running.step] at next
    split at next
    · rename_i there
      cases next
      exact sound.ended there fun _ _ => .refl _ _
    · cases next
  | fail i =>
    obtain ⟨job, there, same⟩ := Option.bind_eq_some_iff.1 next
    cases same
    exact sound.ended there fun key => (sound.jobs i job there).dropped_sameAt
  | cleanup now maxAge =>
    cases next
    exact sound.cleanup now maxAge
  | crash =>
    cases next
    refine ⟨fun t p there => ?_, (fun i job found => by cases found), fun u v p used => ?_⟩
    · simp [Service.fresh] at there
    · cases u <;> simp [Running.uses, Service.fresh] at used

/-- Which prepare an entry comes from changes only when the entry is new. -/
theorem Running.Sound.origins_step (sound : sys.Sound) (next : sys.step e = some sys') {t : String}
    {p : Pending} (there : sys.service.pending.get t = some p) : sys'.origins t = sys.origins t := by
  cases e with
  | prepare c call =>
    simp only [Running.step] at next
    split at next <;> cases next <;> rfl
  | commit c t =>
    simp only [Running.step] at next
    split at next <;> cases next <;> rfl
  | abort c t =>
    simp only [Running.step] at next
    split at next <;> cases next <;> rfl
  | advance i n =>
    obtain ⟨job, -, rest⟩ := Option.bind_eq_some_iff.1 next
    obtain ⟨moved, -, same⟩ := Option.bind_eq_some_iff.1 rest
    cases same
    rfl
  | register i now =>
    simp only [Running.step] at next
    split at next
    · rename_i o temp found
      split at next
      · cases next
        rfl
      · cases next
        have absent := (sound.register found now).1
        have apart : t ≠ o.tempId := by
          rintro rfl
          rw [there] at absent
          cases absent
        simp [Running.register, apart]
    · cases next
  | answer i =>
    simp only [Running.step] at next
    split at next <;> cases next
    rfl
  | fail i =>
    obtain ⟨job, -, same⟩ := Option.bind_eq_some_iff.1 next
    cases same
    rfl
  | cleanup now maxAge => cases next; rfl
  | crash => cases next; rfl

theorem Running.Sound.isolated (sound : sys.Sound) (work : OwnWork sys e)
    (next : sys.step e = some sys') : Isolated sys e sys' := by
  constructor
  · rintro i c t acked object rfl there
    obtain ⟨o, rest, sender, id, -, -, done⟩ := sound.jobs i _ there
    exact ⟨o, rest, sender, id, done⟩
  · intro t p p' there there'
    obtain ⟨o, entry⟩ := sound.entries t p there
    obtain ⟨o', entry'⟩ := (sound.step work next).entries t p' there'
    obtain rfl : o' = o := by
      have same := sound.origins_step next there
      rw [entry.origin, entry'.origin] at same
      exact Option.some.inj same
    rw [entry.temp there]
    exact entry'.file.trans entry.file.symm

/-- **Isolation of prepares.** In every run of a participant in which each prepare starts on
a temp file that nobody works on, and each commit that finds an entry comes from the
coordinator the entry was acknowledged to, every step is isolated. -/
theorem prepares_isolated (s : ObjectStorage) (fs : Fs) (es : List RequestEvent)
    (sys sys' : Running s) (e : RequestEvent)
    (along : Along Running.step OwnWork (Running.start s fs) (es ++ [e]))
    (ran : exec Running.step (Running.start s fs) es = some sys)
    (next : sys.step e = some sys') : Isolated sys e sys' := by
  obtain ⟨first, later⟩ := along_append.1 along
  have last : OwnWork sys e := (later sys ran).1
  have sound : sys.Sound := by
    refine exec_invariant (fun sys e sys' here work step => ?_) (Running.Sound.start fs) first ran
    exact here.step work step
  exact sound.isolated last next

/-- A first request for `abc/k`, with one byte. -/
def sampleOrigin (coordinator : Nat) (b : UInt8) : Origin :=
  ⟨coordinator, 1, "abc/k", [b], Sha256.digest [b]⟩

/-- The events of that prepare up to its complete temp file, as job `i`. -/
def sampleWrite (i coordinator : Nat) (b : UInt8) : List RequestEvent :=
  .prepare coordinator (.unary ⟨"abc/k", [b], Sha256.digest [b], 1⟩) ::
    List.replicate 5 (.advance i 0)

/-- The events of its commit as job `i`, up to the answer. -/
def sampleCommit (i coordinator : Nat) : List RequestEvent :=
  [.commit coordinator "1:abc/k", .advance i 0, .advance i 0]

/-- Two coordinators prepare two objects under the ids of one request number, side by side. -/
def samplePrepares : List RequestEvent :=
  [.prepare 0 (.unary ⟨"abc/k", [1], Sha256.digest [1], 1⟩),
    .prepare 1 (.unary ⟨"abc/j", [2], Sha256.digest [2], 1⟩)] ++
    [0, 1, 0, 1, 0, 1, 0, 1, 0, 1].map (fun i => .advance i 0) ++ [.register 1 0, .register 0 0]

omit [Sha256] in
/-- The first of two pending prepares is committed. -/
theorem prepares_isolated_sample :
    letI : Sha256 := Sha256.sampled
    ∃ sys sys', exec Running.step (Running.start sampleStorage Fs.empty)
        (samplePrepares ++ sampleCommit 2 0) = some sys ∧
      sys.step (.answer 2) = some sys' ∧ (sys.service.pending.get "1:abc/j").isSome = true ∧
      Isolated sys (.answer 2) sys' := by
  let _ : Sha256 := Sha256.sampled
  have prepared : (exec Running.step (Running.start sampleStorage Fs.empty)
      samplePrepares).map (fun sys => sys.origins "1:abc/k") = some (some (sampleOrigin 0 1)) := by
    decide +kernel
  have ran : (exec Running.step (Running.start sampleStorage Fs.empty)
      (samplePrepares ++ sampleCommit 2 0)).map
        (fun sys => (sys.jobs 2, (sys.service.pending.get "1:abc/j").isSome)) =
        some (some (.committing 0 "1:abc/k" (some (sampleOrigin 0 1))
          (some (sampleStorage.pathOf "abc/k", [1])) .committed), true) := by decide +kernel
  obtain ⟨sys, run, seen⟩ := Option.map_eq_some_iff.1 ran
  obtain ⟨job, pending⟩ := Prod.mk.inj seen
  have next : sys.step (.answer 2) = some (sys.after sys.service.fs 2 none) := by
    simp [Running.step, job]
  refine ⟨sys, _, run, next, pending, prepares_isolated sampleStorage Fs.empty _ sys _ _ ?_ run next⟩
  have start (o : Origin) : (Running.start sampleStorage Fs.empty).Clear o.key := Running.clear_start _ _ _
  refine along_append.2 ⟨along_append.2 ⟨along_append.2 ⟨along_append.2 ⟨⟨fun o _ => start o,
    fun first begun => ⟨fun o checked => ?_, fun _ _ => trivial⟩⟩, ?_⟩, ?_⟩, ?_⟩, ?_⟩
  · -- the other prepare is at work on another temp file
    have passes : (PrepareCall.unary ⟨"abc/k", [1], Sha256.digest [1], 1⟩).checked 0 =
        some (sampleOrigin 0 1) := by
      decide +kernel
    have passes' : (PrepareCall.unary ⟨"abc/j", [2], Sha256.digest [2], 1⟩).checked 1 =
        some ⟨1, 1, "abc/j", [2], Sha256.digest [2]⟩ := by
      decide +kernel
    obtain rfl := Option.some.inj (passes'.symm.trans checked)
    simp only [Running.step, passes, Option.some.injEq] at begun
    subst begun
    have apart : some (sampleStorage.tempOf "abc/k") ≠ some (sampleStorage.tempOf "abc/j") := by
      decide +kernel
    rintro (t | i)
    · simp [Running.uses, Running.start, Running.begin, Service.fresh]
    · by_cases first : i = 0
      · subst first
        exact apart
      · simp [Running.uses, Running.start, Running.begin, Function.update_of_ne first]
  · intro sys' _
    refine along_of_mem (fun e member sys => ?_) sys'
    obtain ⟨i, -, rfl⟩ := List.mem_map.1 member
    trivial
  · exact fun _ _ => ⟨trivial, fun _ _ => ⟨trivial, fun _ _ => trivial⟩⟩
  · intro mid reached
    rw [reached] at prepared
    have origin : mid.origins "1:abc/k" = some (sampleOrigin 0 1) := Option.some.inj prepared
    exact ⟨fun _ _ => ⟨_, origin, rfl⟩, fun _ _ => ⟨trivial, fun _ _ => ⟨trivial, fun _ _ => trivial⟩⟩⟩
  · exact fun _ _ => ⟨trivial, fun _ _ => trivial⟩

omit [Sha256] in
/-- A commit publishes the bytes of another coordinator's prepare under way. -/
theorem commit_publishes_other_prepare :
    ¬ ∀ [Sha256] (s : ObjectStorage) (fs : Fs) (es : List RequestEvent) (sys sys' : Running s)
      (e : RequestEvent), exec Running.step (Running.start s fs) es = some sys →
      sys.step e = some sys' → Isolated sys e sys' := by
  intro claim
  let _ : Sha256 := Sha256.sampled
  have ran : (exec Running.step (Running.start sampleStorage Fs.empty)
      ((sampleWrite 0 0 1 ++ [.register 0 0]) ++ sampleWrite 1 1 2 ++ sampleCommit 2 0)).map
        (fun sys => sys.jobs 2) =
        some (some (.committing 0 "1:abc/k" (some (sampleOrigin 0 1))
          (some (sampleStorage.pathOf "abc/k", [2])) .committed)) := by decide +kernel
  obtain ⟨sys, run, job⟩ := Option.map_eq_some_iff.1 ran
  have next : sys.step (.answer 2) = some (sys.after sys.service.fs 2 none) := by
    simp [Running.step, job]
  obtain ⟨o, acked, -, -, object⟩ := (claim _ _ _ sys _ _ run next).published _ _ _ _ _ rfl job
  obtain rfl := Option.some.inj acked
  exact absurd object (by decide +kernel)

end Save.Replication
