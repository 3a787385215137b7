import Save.Api.PartPaths

/-!
# The collector and uploads that are not over

`run_gc_cycle` (`gc.rs`) removes files by age, except those in a directory named
after an upload of the listing it made at its start. The listing tells uploads from
parts by the text `:part:` in their key, which an object key, or a bucket called
`part`, brings along as well: such an upload is not listed and its parts are
removed. An upload that lost its record to a request under another name with the
same joined key is not listed either. `collector_spares_live_uploads`: in every run
without these two, no step of a cycle removes a part of an upload that was initiated
before the cycle and is not over.
-/

namespace Save.Api
set_option autoImplicit false
open Save.Text Save.Kv Save.Common Save.Metadata Save.Files Save.Storage Save.Run

/-- A cycle is not started while the key of an upload has the text of a part's key, and no
upload's records are deleted under the name of another. -/
def Spares (sys : MultipartNode) : MultipartEvent → Prop
  | .gc _ => sys.gc = .idle → ∀ w ∈ sys.live, containsStr w.dbKey ":part:" = false
  | .advance i _ => ∀ v ∈ sys.tasks[i]?.bind MultipartTask.ends,
      ∀ w ∈ sys.live, w.dbKey = v.dbKey → w = v
  | _ => True

instance (sys : MultipartNode) : (e : MultipartEvent) → Decidable (Spares sys e)
  | .gc _ => inferInstanceAs (Decidable (_ → ∀ w ∈ sys.live, _))
  | .advance _ _ => inferInstanceAs (Decidable (∀ v ∈ _, ∀ w ∈ sys.live, _))
  | .initiate _ _ _ _ => inferInstanceAs (Decidable True)
  | .request _ => inferInstanceAs (Decidable True)
  | .stop _ => inferInstanceAs (Decidable True)

/-! ## Keys -/

/-- The key of an upload with a drawn id is not the key of a part. -/
theorem dbKey_ne_partKey {w v : UploadName} (uuid : IsUuid w.uploadId) (n : Nat) :
    w.dbKey ≠ v.partKey n := by
  intro same
  have digits : ∀ c ∈ (toString n).toList, c.isDigit = true := by
    intro c member
    have list : (toString n).toList = Nat.toDigits 10 n := by simp
    rw [list] at member
    exact Nat.isDigit_of_mem_toDigits (by decide) (by decide) member
  have lists : ("mpu:" ++ w.bucket ++ ":" ++ w.key).toList ++ ':' :: w.uploadId.toList =
      (v.dbKey ++ ":part").toList ++ ':' :: (toString n).toList := by
    simpa [UploadName.dbKey, multipartDbKey, partKey_eq, partsPrefix_eq] using
      congrArg String.toList same
  -- what follows the last colon has a dash on one side only
  have ends : w.uploadId.toList <:+ (toString n).toList := suffix_of_sep uuid.no_colon lists.symm
  exact absurd (digits '-' (ends.subset uuid.2.2)) (by decide)

theorem contains_of_partsPrefix {k : String} {v : UploadName}
    (start : startsWith k v.partsPrefix = true) : containsStr k ":part:" = true := by
  obtain ⟨t, rfl⟩ := startsWith_iff_append.1 start
  simp only [containsStr, partsPrefix_eq, decide_eq_true_eq, String.toList_append]
  exact ⟨v.dbKey.toList, t.toList, rfl⟩

/-! ## A cycle -/

/-- The ids a cycle keeps. -/
def GcStage.active : GcStage → Option (List String)
  | .idle => none
  | .listing active => some active
  | .removing active _ => some active

/-- A step of a cycle removes no file, or one that is not of an active upload. -/
theorem gcStep_removes {s : ObjectStorage} {age : Nat} {node node' : Node} {stage stage' : GcStage}
    {event : GcEvent} (step : gcStep s age (node, stage) event = some (node', stage')) :
    node'.fs = node.fs ∨ ∃ active path, stage.active = some active ∧
      shouldKeepFile path active = false ∧ node'.fs = node.fs.unlink path := by
  cases stage with
  | removing active files =>
    cases files with
    | nil => cases gcStep_cases step with | finish => exact .inl rfl
    | cons file files =>
      cases event with
      | listed files' => cases step
      | next removed =>
        simp only [gcStep] at step
        split at step
        · cases step
          exact .inl rfl
        · split at step
          · cases step
            exact .inl rfl
          · rename_i gone
            cases removed with
            | true =>
              cases step
              exact .inr ⟨active, file.1, rfl, by simpa using gone, rfl⟩
            | false =>
              cases step
              exact .inl rfl
  | idle => cases gcStep_cases step with | begin => exact .inl rfl
  | listing active => cases gcStep_cases step with | list => exact .inl rfl

/-- A step that goes on keeps the ids of its cycle. -/
theorem gcStep_active {s : ObjectStorage} {age : Nat} {node node' : Node} {stage stage' : GcStage}
    {event : GcEvent} (step : gcStep s age (node, stage) event = some (node', stage'))
    {active : List String} (going : stage'.active = some active) :
    stage.active = some active ∨ stage = .idle ∧ getActiveUploadIds node.db = .ok active := by
  cases gcStep_cases step with
  | begin found =>
    cases going
    exact .inr ⟨rfl, found⟩
  | list => exact .inl going
  | keep => exact .inl going
  | remove => exact .inl going
  | finish => cases going

/-- The listing has the id of every upload record whose key is not taken for that of a part. -/
theorem mem_collectUploads {db : Store Value} {es : List (String × Value)} {us : List MultipartUpload}
    (listed : collectUploads db es = .ok us) {k : String} {u : MultipartMetadata}
    (member : (k, .upload u) ∈ es) (shown : containsStr k ":part:" = false) :
    u.uploadId ∈ us.map MultipartUpload.uploadId := by
  induction es generalizing us with
  | nil => cases member
  | cons e es ih =>
    obtain ⟨k', v⟩ := e
    simp only [collectUploads] at listed
    split at listed
    · rename_i skipped
      rcases List.mem_cons.1 member with same | later
      · cases same
        rw [shown] at skipped
        cases skipped
      · exact ih listed later
    · split at listed
      · rename_i metadata
        obtain ⟨parts, -, listed⟩ := bind_ok listed
        obtain ⟨rest, more, listed⟩ := bind_ok listed
        cases listed
        rw [List.map_cons, List.mem_cons]
        rcases List.mem_cons.1 member with same | later
        · cases same
          exact .inl rfl
        · exact .inr (ih more later)
      · cases listed

theorem mem_getActiveUploadIds {db : Store Value} {active : List String}
    (found : getActiveUploadIds db = .ok active) {w : UploadName} {u : MultipartMetadata}
    (record : db.get w.dbKey = some (.upload u)) (shown : containsStr w.dbKey ":part:" = false) :
    u.uploadId ∈ active := by
  unfold getActiveUploadIds at found
  cases listed : listAllMultipartUploads db with
  | error e => simp [listed, Except.map] at found
  | ok us =>
    simp only [listed, Except.map, Except.ok.injEq] at found
    rw [← found]
    exact mem_collectUploads listed (mem_scan.2 ⟨record, multipartDbKey_startsWith _ _ _⟩) shown

/-! ## Runs -/

/-- Uploads that are not over have their records, and a cycle keeps those it has seen. -/
structure MultipartNode.Guarded (sys : MultipartNode) : Prop where
  valid : ∀ w ∈ sys.live, ValidBucket w.bucket ∧ IsUuid w.uploadId
  issued : ∀ w ∈ sys.live, w ∈ sys.issued
  seen : ∀ w ∈ sys.seen, w ∈ sys.issued
  recorded : ∀ w ∈ sys.live, containsStr w.dbKey ":part:" = false →
    ∃ u, sys.node.db.get w.dbKey = some (.upload u) ∧ u.uploadId = w.uploadId
  active : ∀ ids, sys.gc.active = some ids → ∀ w ∈ sys.live, w ∈ sys.seen → w.uploadId ∈ ids

theorem MultipartNode.start_guarded (node : Node) : (MultipartNode.start node).Guarded := by
  constructor <;> intro w member <;> cases member

variable [Sha256] {s : ObjectStorage} {age : Nat} {sys sys' : MultipartNode}

/-- A request's operation. -/
theorem MultipartNode.Guarded.advance (inv : sys.Guarded) {i n : Nat} {task task' : MultipartTask}
    {node : Node} (at_i : sys.tasks[i]? = some task) (made : task.advance s sys.node n = some (node, task'))
    (spares : Spares sys (.advance i n)) :
    MultipartNode.Guarded { sys with
      node
      tasks := sys.tasks.set i task'
      live := sys.live.filter fun w => some w != task.ends } := by
  have still : ∀ w ∈ sys.live.filter (fun w => some w != task.ends),
      w ∈ sys.live ∧ task.ends ≠ some w := by
    intro w member
    obtain ⟨live, other⟩ := List.mem_filter.1 member
    exact ⟨live, fun same => by simp [same] at other⟩
  refine ⟨fun w member => inv.valid w (still w member).1, fun w member => inv.issued w (still w member).1,
    inv.seen, fun w member shown => ?_,
    fun ids going w member => inv.active ids going w (still w member).1⟩
  obtain ⟨live, other⟩ := still w member
  obtain ⟨u, record, id⟩ := inv.recorded w live shown
  have keeps := MultipartTask.advance_keeps made
  rcases keeps.kept w.dbKey u (multipartDbKey_startsWith _ _ _) record with
    kept | ⟨v, ends, claims⟩ | ⟨v, m, same⟩
  · exact ⟨u, kept, id⟩
  · exfalso
    rcases claims with same | part
    · have named : v ∈ sys.tasks[i]?.bind MultipartTask.ends := by simp [at_i, ends]
      exact other (spares v named w live same ▸ ends)
    · rw [contains_of_partsPrefix part] at shown
      cases shown
  · exact absurd same (dbKey_ne_partKey (inv.valid w live).2 m)

omit [Sha256] in
/-- A step of a cycle. -/
theorem MultipartNode.Guarded.collect (inv : sys.Guarded) {event : GcEvent} {node : Node} {stage : GcStage}
    (made : gcStep s age (sys.node, sys.gc) event = some (node, stage))
    (spares : Spares sys (.gc event)) :
    MultipartNode.Guarded { sys with
      node, gc := stage, seen := if sys.gc = .idle then sys.issued else sys.seen } := by
  have db : node.db = sys.node.db := (gcStep_cases made).db
  refine ⟨inv.valid, inv.issued, fun w member => ?_, fun w live shown => ?_, fun ids going w live before => ?_⟩
  · dsimp only at member
    split at member
    · exact member
    · exact inv.seen w member
  · obtain ⟨u, record, id⟩ := inv.recorded w live shown
    exact ⟨u, by rw [db]; exact record, id⟩
  · rcases gcStep_active made going with same | ⟨idle, found⟩
    · have going_on : sys.gc ≠ .idle := by
        intro idle
        rw [idle] at same
        cases same
      dsimp only at before
      rw [if_neg going_on] at before
      exact inv.active ids same w live before
    · have shown := spares idle w live
      obtain ⟨u, record, id⟩ := inv.recorded w live shown
      rw [← id]
      exact mem_getActiveUploadIds found record shown

theorem MultipartNode.Guarded.step {e : MultipartEvent} (inv : sys.Guarded) (spares : Spares sys e)
    (step : sys.step s age e = some sys') : sys'.Guarded := by
  cases MultipartNode.step_cases step with
  | @initiate now w contentType cached valid uuid fresh =>
    have new : ∀ v ∈ sys.issued, v ≠ w := by
      rintro v member rfl
      exact fresh v member rfl
    refine ⟨?_, ?_, fun v member => List.mem_cons_of_mem _ (inv.seen v member), ?_, ?_⟩
    · intro v member
      rcases List.mem_cons.1 member with rfl | older
      · exact ⟨valid.bucket, uuid⟩
      · exact inv.valid v older
    · intro v member
      rcases List.mem_cons.1 member with rfl | older
      · exact List.mem_cons_self
      · exact List.mem_cons_of_mem _ (inv.issued v older)
    · intro v member shown
      rcases List.mem_cons.1 member with rfl | older
      · exact ⟨⟨v.uploadId, v.bucket, v.key, now, contentType⟩, by simp, rfl⟩
      · obtain ⟨u, record, id⟩ := inv.recorded v older shown
        obtain ⟨bucket, drawn⟩ := inv.valid v older
        have apart : w.dbKey ≠ v.dbKey := by
          intro same
          exact new v (inv.issued v older)
            (name_of_dbKey valid.bucket bucket drawn uuid.no_colon same).symm
        exact ⟨u, by simp only [get_put, if_neg apart]; exact record, id⟩
    · intro ids going v member before
      rcases List.mem_cons.1 member with rfl | older
      · exact absurd rfl (new v (inv.seen v before))
      · exact inv.active ids going v older before
  | request r => exact ⟨inv.valid, inv.issued, inv.seen, inv.recorded, inv.active⟩
  | advance at_i made => exact inv.advance at_i made spares
  | @stop i task at_i =>
    refine ⟨inv.valid, inv.issued, inv.seen, fun w live shown => ?_, inv.active⟩
    obtain ⟨u, record, id⟩ := inv.recorded w live shown
    exact ⟨u, by rw [MultipartTask.dropped_db]; exact record, id⟩
  | gc made => exact inv.collect made spares

omit [Sha256] in
/-- The files of an active upload are kept. -/
theorem shouldKeepFile_partPath (base : Path) {id : String} (plain : Plain id) (n : Nat)
    {active : List String} (member : id ∈ active) : shouldKeepFile (partPath base id n) active = true := by
  have last : (partPath base id n).parent.getLast? = some id := by
    have split : base ++ ["temp", "parts", id, toString n] =
        (base ++ ["temp", "parts"]) ++ [id] ++ [toString n] := by simp
    rw [partPath_plain base plain, Path.parent, split, List.dropLast_concat, List.getLast?_concat]
  simp [shouldKeepFile, last, member]

/-- **The collector.** No step of a cycle removes a part of an upload that was initiated before the
cycle and is neither completed nor aborted. -/
theorem collector_spares_live_uploads {node : Node} {events : List MultipartEvent}
    (spares : Along (MultipartNode.step s age) Spares (MultipartNode.start node) events)
    (ran : exec (MultipartNode.step s age) (MultipartNode.start node) events = some sys)
    {event : GcEvent} (collect : sys.step s age (.gc event) = some sys') {w : UploadName}
    (live : w ∈ sys.live) (before : w ∈ sys.seen) (n : Nat) :
    sys'.node.fs.read (partPath s.basePath w.uploadId n) =
      sys.node.fs.read (partPath s.basePath w.uploadId n) := by
  have inv : sys.Guarded :=
    exec_invariant (fun _ _ _ inv here step => inv.step here step)
      (MultipartNode.start_guarded node) spares ran
  cases MultipartNode.step_cases collect with
  | gc made =>
    rcases gcStep_removes made with same | ⟨active, path, going, gone, removed⟩
    · simp only [same]
    · have kept := shouldKeepFile_partPath s.basePath (inv.valid w live).2.plain n
        (inv.active active going w live before)
      have apart : partPath s.basePath w.uploadId n ≠ path := by
        rintro rfl
        rw [kept] at gone
        cases gone
      simp only [removed]
      exact Fs.read_unlink_of_ne _ apart

/-- One upload of the key with a part that is old, and a cycle that has listed it. -/
def samplePart (key : String) : List MultipartEvent :=
  [.initiate 9 ⟨"abc", key, sampleUuid⟩ none true,
   .request (.part ⟨"abc", key, sampleUuid, 1, [1]⟩), .advance 0 0, .advance 0 0, .advance 0 0,
   .gc (.next true), .gc (.listed [(partPath sampleStorage.basePath sampleUuid 1, 7200)])]

def samplePartRun (key : String) : Option MultipartNode :=
  exec (MultipartNode.step sampleStorage 3600) (MultipartNode.start ⟨Store.empty, Fs.empty⟩)
    (samplePart key)

/-- The upload is not over and was there when the cycle started, and its part is there; `after`
says what the next step of the cycle leaves of it. -/
def sampleCollected (key : String) (after : Option Bytes) (sys sys' : MultipartNode) : Prop :=
  ⟨"abc", key, sampleUuid⟩ ∈ sys.live ∧ ⟨"abc", key, sampleUuid⟩ ∈ sys.seen ∧
    sys.node.fs.read (partPath sampleStorage.basePath sampleUuid 1) = some [1] ∧
    sys'.node.fs.read (partPath sampleStorage.basePath sampleUuid 1) = after

instance (key : String) (after : Option Bytes) (sys sys' : MultipartNode) :
    Decidable (sampleCollected key after sys sys') :=
  inferInstanceAs (Decidable (_ ∧ _ ∧ _ ∧ _))

omit [Sha256] in
theorem collector_spares_sample :
    letI : Sha256 := Sha256.sampled
    ∃ sys sys', samplePartRun "k" = some sys ∧
      sys.step sampleStorage 3600 (.gc (.next true)) = some sys' ∧
      sys'.node.fs.read (partPath sampleStorage.basePath sampleUuid 1) = some [1] := by
  let _ : Sha256 := Sha256.sampled
  have seen : (samplePartRun "k").map (fun sys => ((sys.step sampleStorage 3600 (.gc (.next true))).isSome,
      decide (sampleCollected "k" (some [1]) sys sys))) = some (true, true) := by
    decide +kernel
  obtain ⟨sys, ran, facts⟩ := Option.map_eq_some_iff.1 seen
  simp only [Prod.mk.injEq, decide_eq_true_eq] at facts
  obtain ⟨goes, live, before, there, -⟩ := facts
  obtain ⟨sys', collect⟩ := Option.isSome_iff_exists.1 goes
  have spares : Along (MultipartNode.step sampleStorage 3600) Spares
      (MultipartNode.start ⟨Store.empty, Fs.empty⟩) (samplePart "k") := by decide +kernel
  refine ⟨sys, sys', ran, collect, ?_⟩
  rw [collector_spares_live_uploads spares ran collect live before 1]
  exact there

omit [Sha256] in
/-- A key with the text of a part's key hides its upload from the collector. -/
theorem collector_removes_live_part :
    ¬ ∀ [Sha256] (s : ObjectStorage) (age : Nat) (node : Node) (events : List MultipartEvent)
      (sys sys' : MultipartNode) (event : GcEvent) (w : UploadName) (n : Nat),
      exec (MultipartNode.step s age) (MultipartNode.start node) events = some sys →
      sys.step s age (.gc event) = some sys' → w ∈ sys.live → w ∈ sys.seen →
      (sys.node.fs.read (partPath s.basePath w.uploadId n)).isSome = true →
      (sys'.node.fs.read (partPath s.basePath w.uploadId n)).isSome = true := by
  intro claim
  let _ : Sha256 := Sha256.sampled
  have seen : (samplePartRun "a:part:b").bind (fun sys =>
      (sys.step sampleStorage 3600 (.gc (.next true))).map fun sys' =>
        decide (sampleCollected "a:part:b" none sys sys')) = some true := by
    decide +kernel
  obtain ⟨sys, ran, rest⟩ := Option.bind_eq_some_iff.1 seen
  obtain ⟨sys', collect, facts⟩ := Option.map_eq_some_iff.1 rest
  obtain ⟨live, before, there, gone⟩ := of_decide_eq_true facts
  have kept := claim _ _ _ _ sys sys' _ _ 1 ran collect live before (by rw [there]; rfl)
  rw [gone] at kept
  cases kept

end Save.Api
