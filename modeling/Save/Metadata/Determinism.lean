import Save.Metadata.Refinement

/-!
# Replica determinism

Two replicas that apply the same entries from the same records, in any batches and
at any local times. The one command that reads something local is `CreateBucket`:
`apply_command` (`raft/state_machine.rs`) passes only the name on, and the record is
built with the applying node's clock instead of the `created_at` the command
carries. `replicas_agree_iff` says exactly when that shows in the end.
-/

namespace Save.Metadata
set_option autoImplicit false
open Save.Kv Save.Common Save.Cells

/-- An entry that creates the bucket. -/
def Entry.createsBucket (name : String) (e : Entry) : Bool :=
  match e.payload with
  | .normal (.createBucket bucket) => bucket.name == name
  | _ => false

/-- An entry that deletes the bucket. -/
def Entry.deletesBucket (name : String) (e : Entry) : Bool :=
  match e.payload with
  | .normal (.deleteBucket name') => name' == name
  | _ => false

/-- An entry that creates or deletes the bucket. -/
def Entry.touchesBucket (name : String) (e : Entry) : Bool :=
  e.createsBucket name || e.deletesBucket name

/-- The last entry that creates or deletes the bucket. -/
def lastTouch (name : String) (ts : List Tick) : Option Tick :=
  (ts.filter fun t => t.entry.touchesBucket name).getLast?

/-- The entries before the first one its record refuses: a bucket name or key that is
not valid, or the creation of a bucket that is there. -/
def applicable (db : Db) (ts : List Tick) : List Tick := machine.accepted ts db.default.get

/-- Where the last command on a bucket creates it, both clocks read the same. -/
def ClocksAgree (ts₁ ts₂ : List Tick) : Prop :=
  ∀ name t₁ t₂, lastTouch name ts₁ = some t₁ → lastTouch name ts₂ = some t₂ →
    t₁.entry.createsBucket name = true → t₁.now = t₂.now

/-! ## Records up to creation times -/

/-- A record without the time a bucket was created at. -/
def Value.timeless : Value → Value
  | .bucket b => .bucket { b with createdAt := 0 }
  | v => v

def SameButTime (v v' : Option Value) : Prop := v.map Value.timeless = v'.map Value.timeless

/-- The same entry, at any two times. -/
def SameEntry (t t' : Tick) : Prop := t.entry = t'.entry

theorem SameButTime.eq_none {v v' : Option Value} (same : SameButTime v v') :
    v = none ↔ v' = none := by
  cases v <;> cases v' <;> simp_all [SameButTime]

/-- Lock records have no creation time. -/
theorem lockAct_both {f : Option LockState → Option LockState} {v v' : Option Value}
    (same : SameButTime v v') : Both SameButTime (lockAct f v) (lockAct f v') := by
  cases v with
  | none => cases v' with
    | none => exact rfl
    | some w' => cases same
  | some w => cases v' with
    | none => cases same
    | some w' =>
      have values : w.timeless = w'.timeless := Option.some.inj same
      cases w <;> cases w' <;> simp_all [lockAct, Both, Value.timeless, SameButTime]

/-- A command's outcome does not depend on creation times, nor, creation times aside,
on the clock. -/
theorem cellAct_both (now now' : DateTime) (cmd : Command) {v v' : Option Value}
    (same : SameButTime v v') : Both SameButTime (cellAct now cmd v) (cellAct now' cmd v') := by
  cases cmd with
  | createBucket bucket =>
    simp only [cellAct, same.eq_none]
    split <;> simp [Both, SameButTime, Value.timeless, Bucket.new]
  | deleteBucket name => simp only [cellAct]; split <;> simp [Both, SameButTime]
  | putObjectMetadata metadata => simp only [cellAct]; split <;> simp [Both, SameButTime]
  | deleteObjectMetadata bucket key => simp only [cellAct]; split <;> simp [Both, SameButTime]
  | acquireLock bucket key lockType holder => simp only [cellAct]; exact lockAct_both same
  | releaseLock bucket key holder => simp only [cellAct]; exact lockAct_both same

theorem SameEntry.cell {t t' : Tick} (same : SameEntry t t') : machine.cell t = machine.cell t' := by
  simp [machine, Tick.cell, show t.entry = t'.entry from same]

theorem SameEntry.act {t t' : Tick} (same : SameEntry t t') (v v' : Option Value)
    (values : SameButTime v v') : Both SameButTime (machine.act t v) (machine.act t' v') := by
  obtain ⟨e, now⟩ := t
  obtain ⟨e', now'⟩ := t'
  obtain rfl : e = e' := same
  simp only [machine, Tick.act]
  split
  · exact cellAct_both now now' _ values
  · exact values

theorem forall₂_sameEntry {ts₁ ts₂ : List Tick} :
    List.Forall₂ SameEntry ts₁ ts₂ ↔ ts₁.map Tick.entry = ts₂.map Tick.entry := by
  rw [← List.forall₂_eq_eq_eq, List.forall₂_map_left_iff, List.forall₂_map_right_iff]
  rfl

/-! ## Cells -/

theorem cell_eq_bucketKey {t : Tick} {name : String} :
    machine.cell t = some (bucketKey name) ↔ t.entry.touchesBucket name = true := by
  obtain ⟨⟨id, payload⟩, now⟩ := t
  cases payload with
  | blank | membership m =>
    simp [machine, Tick.cell, Entry.touchesBucket, Entry.createsBucket, Entry.deletesBucket]
  | normal cmd =>
    cases cmd with
    | createBucket bucket =>
      simp [machine, Tick.cell, Command.cell, Entry.touchesBucket, Entry.createsBucket,
        Entry.deletesBucket, bucketKey_inj]
    | deleteBucket name' =>
      simp [machine, Tick.cell, Command.cell, Entry.touchesBucket, Entry.createsBucket,
        Entry.deletesBucket, bucketKey_inj]
    | putObjectMetadata metadata =>
      simp [machine, Tick.cell, Command.cell, Entry.touchesBucket, Entry.createsBucket,
        Entry.deletesBucket, (bucketKey_ne_objectDbKey _ _ _).symm]
    | deleteObjectMetadata bucket key =>
      simp [machine, Tick.cell, Command.cell, Entry.touchesBucket, Entry.createsBucket,
        Entry.deletesBucket, (bucketKey_ne_objectDbKey _ _ _).symm]
    | acquireLock bucket key lockType holder =>
      simp [machine, Tick.cell, Command.cell, Entry.touchesBucket, Entry.createsBucket,
        Entry.deletesBucket, (bucketKey_ne_lockKey _ _ _).symm]
    | releaseLock bucket key holder =>
      simp [machine, Tick.cell, Command.cell, Entry.touchesBucket, Entry.createsBucket,
        Entry.deletesBucket, (bucketKey_ne_lockKey _ _ _).symm]

theorem touching_bucketKey (name : String) (ts : List Tick) :
    machine.touching (bucketKey name) ts = ts.filter fun t => t.entry.touchesBucket name := by
  refine List.filter_congr fun t _ => ?_
  simp [cell_eq_bucketKey]

/-- What an entry that touches a bucket leaves of its record. -/
def bucketAfter (name : String) (t : Tick) : Option Value :=
  if t.entry.createsBucket name then some (.bucket ⟨name, t.now⟩) else none

/-- Only the two bucket commands touch the record of a bucket. -/
theorem Entry.touchesBucket_cases {name : String} {e : Entry} (touch : e.touchesBucket name = true) :
    (∃ bucket, e.payload = .normal (.createBucket bucket) ∧ bucket.name = name) ∨
      e.payload = .normal (.deleteBucket name) := by
  obtain ⟨id, payload⟩ := e
  cases payload with
  | blank | membership m =>
    simp [Entry.touchesBucket, Entry.createsBucket, Entry.deletesBucket] at touch
  | normal cmd =>
    cases cmd with
    | createBucket bucket =>
      refine .inl ⟨bucket, rfl, ?_⟩
      simpa [Entry.touchesBucket, Entry.createsBucket, Entry.deletesBucket] using touch
    | deleteBucket name' =>
      have named : name' = name := by
        simpa [Entry.touchesBucket, Entry.createsBucket, Entry.deletesBucket] using touch
      exact .inr (by rw [named])
    | putObjectMetadata metadata | deleteObjectMetadata bucket key | acquireLock b k l h
    | releaseLock b k h =>
      simp [Entry.touchesBucket, Entry.createsBucket, Entry.deletesBucket] at touch

theorem act_eq_bucketAfter {name : String} {t : Tick} {v w : Option Value}
    (touch : t.entry.touchesBucket name = true) (act : machine.act t v = some w) :
    w = bucketAfter name t := by
  simp only [machine, Tick.act, cellAct] at act
  obtain ⟨bucket, payload, rfl⟩ | payload := Entry.touchesBucket_cases touch
  · simp only [payload] at act
    split at act
    · cases act
      simp [bucketAfter, Entry.createsBucket, Bucket.new, payload]
    · cases act
  · simp only [payload] at act
    split at act
    · cases act
      simp [bucketAfter, Entry.createsBucket, payload]
    · cases act

/-- The record of a bucket is what the last entry that touches it leaves. -/
theorem runCell_bucketKey {name : String} {ts : List Tick} {v w : Option Value}
    (ran : machine.runCell (bucketKey name) ts v = some w) :
    w = match lastTouch name ts with
      | none => v
      | some t => bucketAfter name t := by
  rw [← Machine.runCell_touching, touching_bucketKey] at ran
  unfold lastTouch
  rcases List.eq_nil_or_concat (ts.filter fun t => t.entry.touchesBucket name) with
    none | ⟨init, t, split⟩
  · rw [none] at ran ⊢
    cases ran
    rfl
  · have touch : t.entry.touchesBucket name = true := by
      have member : t ∈ ts.filter fun t => t.entry.touchesBucket name := by simp [split]
      exact (List.mem_filter.1 member).2
    rw [split, List.concat_eq_append, Machine.runCell_append] at ran
    obtain ⟨u, -, last⟩ := Option.bind_eq_some_iff.1 ran
    simp only [Machine.runCell, cell_eq_bucketKey.2 touch, if_true] at last
    rw [Option.bind_fun_some] at last
    rw [split, List.concat_eq_append, List.getLast?_append]
    exact act_eq_bucketAfter touch last

/-- Every other record is the same on both replicas. -/
theorem runCell_other {k : String} (other : ∀ name, k ≠ bucketKey name) {ts₁ ts₂ : List Tick}
    (pairs : List.Forall₂ SameEntry ts₁ ts₂) (v : Option Value) :
    machine.runCell k ts₁ v = machine.runCell k ts₂ v := by
  have both := machine.runCell_both (k := k) (r := Eq) (q := SameEntry)
    (fun t t' same => by rw [same.cell]) (fun t t' same touch v v' values => ?_) pairs (rfl : v = v)
  · cases first : machine.runCell k ts₁ v <;> cases second : machine.runCell k ts₂ v <;>
      simp_all [Both]
  · subst values
    obtain ⟨⟨id, payload⟩, now⟩ := t
    obtain ⟨e', now'⟩ := t'
    obtain rfl : _ = e' := same
    have equal : machine.act ⟨⟨id, payload⟩, now⟩ v = machine.act ⟨⟨id, payload⟩, now'⟩ v := by
      cases payload with
      | blank | membership m => rfl
      | normal cmd =>
        cases cmd with
        | createBucket bucket => exact absurd (Option.some.inj touch).symm (other bucket.name)
        | _ => rfl
    rw [equal]
    cases machine.act ⟨⟨id, payload⟩, now'⟩ v <;> simp [Both]

theorem lastTouch_map (name : String) (ts : List Tick) :
    (lastTouch name ts).map Tick.entry =
      ((ts.map Tick.entry).filter fun e => e.touchesBucket name).getLast? := by
  rw [lastTouch, List.filter_map, List.getLast?_map]
  rfl

/-! ## The two replicas -/

theorem applicable_sameEntry {db₁ db₂ : Db} (records : db₁.default = db₂.default)
    {ts₁ ts₂ : List Tick} (log : ts₁.map Tick.entry = ts₂.map Tick.entry) :
    List.Forall₂ SameEntry (applicable db₁ ts₁) (applicable db₂ ts₂) := by
  unfold applicable
  rw [records]
  exact machine.accepted_both (r := SameButTime) (fun t t' same => same.cell)
    (fun t t' same => same.act) (forall₂_sameEntry.2 log) (fun k => rfl)

/-- **Determinism, exactly.** Replicas that start with the same records and apply the
same entries end with the same records if and only if their clocks agree at every
creation that is the last command on its bucket. -/
theorem replicas_agree_iff {db₁ db₂ : Db} (records : db₁.default = db₂.default)
    {batches₁ batches₂ : List (List Tick)}
    (log : batches₁.flatten.map Tick.entry = batches₂.flatten.map Tick.entry) :
    (runBatches db₁ batches₁).1.default = (runBatches db₂ batches₂).1.default ↔
      ClocksAgree (applicable db₁ batches₁.flatten) (applicable db₂ batches₂.flatten) := by
  have pairs := applicable_sameEntry records log
  have cells₁ := machine.run_eq_some_iff.1 (machine.run_accepted batches₁.flatten db₁.default.get)
  have cells₂ := machine.run_eq_some_iff.1 (machine.run_accepted batches₂.flatten db₂.default.get)
  change ∀ k, machine.runCell k (applicable db₁ batches₁.flatten) _ = _ at cells₁
  change ∀ k, machine.runCell k (applicable db₂ batches₂.flatten) _ = _ at cells₂
  have touches : ∀ name, (lastTouch name (applicable db₁ batches₁.flatten)).map Tick.entry =
      (lastTouch name (applicable db₂ batches₂.flatten)).map Tick.entry := by
    intro name
    rw [lastTouch_map, lastTouch_map, forall₂_sameEntry.1 pairs]
  constructor
  · intro same name t₁ t₂ last₁ last₂ creates
    have entry : t₁.entry = t₂.entry := by simpa [last₁, last₂] using touches name
    have value₁ := runCell_bucketKey (cells₁ (bucketKey name))
    have value₂ := runCell_bucketKey (cells₂ (bucketKey name))
    rw [← runBatches_default, last₁] at value₁
    rw [← runBatches_default, last₂, ← same, value₁] at value₂
    simpa [bucketAfter, creates, ← entry] using value₂
  · intro agree
    refine Store.ext fun k => ?_
    rw [runBatches_default, runBatches_default]
    by_cases bucket : ∃ name, k = bucketKey name
    · obtain ⟨name, rfl⟩ := bucket
      rw [runCell_bucketKey (cells₁ (bucketKey name)), runCell_bucketKey (cells₂ (bucketKey name))]
      have entries := touches name
      cases last₁ : lastTouch name (applicable db₁ batches₁.flatten) with
      | none =>
        rw [last₁, Option.map_none] at entries
        rw [Option.map_eq_none_iff.1 entries.symm, records]
      | some t₁ =>
        rw [last₁, Option.map_some] at entries
        obtain ⟨t₂, last₂, entry⟩ := Option.map_eq_some_iff.1 entries.symm
        rw [last₂]
        simp only [bucketAfter, entry]
        split
        · rename_i creates
          rw [agree name t₁ t₂ last₁ last₂ creates]
        · rfl
    · have other : ∀ name, k ≠ bucketKey name := fun name h => bucket ⟨name, h⟩
      have start : db₁.default.get k = db₂.default.get k := by rw [records]
      have same := runCell_other other pairs (db₁.default.get k)
      rw [cells₁ k, start, cells₂ k] at same
      exact Option.some.inj same

/-- The same creation, in two batchings. -/
theorem replicas_agree_one_creation :
    (runBatches Db.empty [[⟨⟨⟨⟨1, 1⟩, 1⟩, .normal (.createBucket ⟨"abc", 5⟩)⟩, 7⟩]]).1.default =
        (runBatches Db.empty
          [[], [⟨⟨⟨⟨1, 1⟩, 1⟩, .normal (.createBucket ⟨"abc", 5⟩)⟩, 7⟩]]).1.default ↔
      ClocksAgree
        (applicable Db.empty [⟨⟨⟨⟨1, 1⟩, 1⟩, .normal (.createBucket ⟨"abc", 5⟩)⟩, 7⟩])
        (applicable Db.empty [⟨⟨⟨⟨1, 1⟩, 1⟩, .normal (.createBucket ⟨"abc", 5⟩)⟩, 7⟩]) :=
  replicas_agree_iff rfl rfl

/-- One creation, applied at time 7 on one replica and at time 8 on the other: the
`created_at` of the command is 5 on both. -/
theorem replicas_diverge :
    ∃ (db : Db) (batches₁ batches₂ : List (List Tick)),
      batches₁.flatten.map Tick.entry = batches₂.flatten.map Tick.entry ∧
        (runBatches db batches₁).1.default ≠ (runBatches db batches₂).1.default := by
  refine ⟨Db.empty, [[⟨⟨⟨⟨1, 1⟩, 1⟩, .normal (.createBucket ⟨"abc", 5⟩)⟩, 7⟩]],
    [[⟨⟨⟨⟨1, 1⟩, 1⟩, .normal (.createBucket ⟨"abc", 5⟩)⟩, 8⟩]], rfl, fun same => ?_⟩
  have records := congrArg (fun db : Store Value => db.get (bucketKey "abc")) same
  exact absurd records (by decide)

end Save.Metadata
