import Save.Replication.Coordinator
import Mathlib.Data.Finset.Card

/-!
# What a quorum of prepares is worth

A write of `replication/coordinator.rs` is acknowledged when a quorum of nodes has
acknowledged its prepare. Whether a node then holds the object depends on the second
phase: `Takes` says exactly when one node's commit takes effect, and the
acknowledged write is on a quorum of nodes exactly when enough of them take it.
-/

namespace Save.Replication
set_option autoImplicit false
open Save.Text Save.Kv Save.Common Save.Files Save.Storage

variable [Sha256] {s : ObjectStorage}

/-! ## The streamed prepare -/

section Chunks
omit [Sha256]

theorem flatten_cut (sizes : List Nat) (data : Bytes) : (cut sizes data).flatten = data := by
  induction sizes generalizing data with
  | nil =>
    by_cases empty : data = []
    · simp [cut, empty]
    · simp [cut, empty]
  | cons n sizes ih =>
    by_cases empty : data = []
    · simp [cut, empty]
    · rw [cut, if_neg empty, List.flatten_cons, ih, List.take_append_drop]

theorem cut_nil (sizes : List Nat) : cut sizes [] = [] := by
  cases sizes <;> rfl

theorem cut_cons {data : Bytes} (nonempty : data ≠ []) (sizes : List Nat) :
    ∃ p ps, cut sizes data = p :: ps := by
  cases sizes with
  | nil => exact ⟨data, [], by rw [cut, if_neg nonempty]⟩
  | cons n sizes => exact ⟨_, _, by rw [cut, if_neg nonempty]⟩

theorem streamChunks_cons (key : String) (requestId : Nat) (checksum : String) (p : Bytes)
    (ps : List Bytes) :
    streamChunks key requestId checksum (p :: ps) = ⟨key, requestId, p, false, ""⟩ ::
      (ps.map (fun p => ⟨"", 0, p, false, ""⟩) ++ [⟨"", 0, [], true, checksum⟩]) := rfl

theorem flatMap_streamChunks (key : String) (requestId : Nat) (checksum : String)
    (pieces : List Bytes) :
    (streamChunks key requestId checksum pieces).flatMap PrepareChunk.chunk = pieces.flatten := by
  have middle : ∀ ps : List Bytes, (ps.map fun p => (⟨"", 0, p, false, ""⟩ : PrepareChunk)).flatMap
      PrepareChunk.chunk = ps.flatten := by
    intro ps
    induction ps with
    | nil => rfl
    | cons p ps ih => simp only [List.map_cons, List.flatMap_cons, List.flatten_cons, ih]
  cases pieces with
  | nil => rfl
  | cons p ps => simp [streamChunks_cons, middle]

theorem expectedChecksum_streamChunks (key : String) (requestId : Nat) {checksum : String}
    (present : checksum ≠ "") (pieces : List Bytes) :
    expectedChecksum (streamChunks key requestId checksum pieces) = checksum := by
  unfold expectedChecksum streamChunks
  rw [List.foldl_append]
  simp [present]

end Chunks

theorem digest_ne_empty (data : Bytes) : Sha256.digest data ≠ "" := by
  intro empty
  have := Sha256.length data
  rw [empty] at this
  exact absurd this (by decide)

theorem streamPrepareObject_cons (svc : Service s) (now : Nat) (first : PrepareChunk)
    (rest : List PrepareChunk) :
    streamPrepareObject svc now (first :: rest) = streamPrepareData svc now first.key first.requestId
      ((first :: rest).flatMap PrepareChunk.chunk) (expectedChecksum (first :: rest)) := rfl

/-- An empty file is streamed as the marker alone, which has no key. -/
theorem streamPrepareObject_nil (svc : Service s) (now : Nat) (key : String) (requestId : Nat)
    (checksum : String) (sizes : List Nat) :
    streamPrepareObject svc now (streamChunks key requestId checksum (cut sizes [])) =
      (svc, .failed "missing key in first chunk") := by
  rw [cut_nil]
  rfl

/-- The streamed prepare of a file that is read in any pieces does what the plain one does. -/
theorem streamPrepareObject_pieces (svc : Service s) (now : Nat) {key : String} (valid : ValidKey key)
    (requestId : Nat) {data p : Bytes} {ps : List Bytes} (whole : (p :: ps).flatten = data) :
    streamPrepareObject svc now (streamChunks key requestId (Sha256.digest data) (p :: ps)) =
      prepareObject svc now ⟨key, data, Sha256.digest data, requestId⟩ := by
  have named : key ≠ "" := by
    rintro rfl
    exact absurd valid (by decide)
  have call := createTempObject_ok (s := s) valid
  have bytes := flatMap_streamChunks key requestId (Sha256.digest data) (p :: ps)
  have sum := expectedChecksum_streamChunks key requestId (digest_ne_empty data) (p :: ps)
  rw [whole] at bytes
  rw [streamChunks_cons] at bytes sum ⊢
  rw [streamPrepareObject_cons, bytes, sum]
  unfold streamPrepareData prepareObject
  rw [if_neg named, if_neg (by simp)]
  simp only [call]
  rw [if_neg (by simp)]

theorem streamPrepareObject_eq (svc : Service s) (now : Nat) {key : String} (valid : ValidKey key)
    (requestId : Nat) {data : Bytes} (nonempty : data ≠ []) (sizes : List Nat) :
    streamPrepareObject svc now
        (streamChunks key requestId (Sha256.digest data) (cut sizes data)) =
      prepareObject svc now ⟨key, data, Sha256.digest data, requestId⟩ := by
  have whole := flatten_cut sizes data
  obtain ⟨p, ps, pieces⟩ := cut_cons nonempty sizes
  rw [pieces] at whole ⊢
  exact streamPrepareObject_pieces svc now valid requestId whole

/-! ## The cleanup between the phases -/

theorem data_abortObject (svc : Service s) (t : String) :
    (abortObject svc t).1.fs.data = svc.fs.data := by
  unfold abortObject
  cases svc.pending.get t <;> rfl

/-- An abort removes at most the temp file of its entry. -/
theorem inode_abortObject (svc : Service s) (t : String) (q : Path) :
    ((abortObject svc t).1.fs.inode q = none ∧
      ∃ p, svc.pending.get t = some p ∧ p.temp.tempPath = q) ∨
    ((abortObject svc t).1.fs.inode q = svc.fs.inode q ∧
      ∀ p, svc.pending.get t = some p → p.temp.tempPath ≠ q) := by
  unfold abortObject
  cases there : svc.pending.get t with
  | none => exact .inr ⟨rfl, nofun⟩
  | some p =>
    by_cases same : p.temp.tempPath = q
    · left
      refine ⟨?_, p, rfl, same⟩
      rw [← same]
      exact svc.fs.inode_unlink _
    · right
      refine ⟨svc.fs.inode_unlink_of_ne fun h => same h.symm, ?_⟩
      rintro p' ⟨rfl⟩
      exact same

/-- What dropping some entries leaves: the other entries, the bytes of every file, and the
files that are no dropped entry's. -/
structure Dropped (svc svc' : Service s) (ids : List String) : Prop where
  entries : ∀ t, svc'.pending.get t = if t ∈ ids then none else svc.pending.get t
  data : svc'.fs.data = svc.fs.data
  files : ∀ q, (svc'.fs.inode q = none ∧
      ∃ t ∈ ids, ∃ p, svc.pending.get t = some p ∧ p.temp.tempPath = q) ∨
    (svc'.fs.inode q = svc.fs.inode q ∧
      ∀ t ∈ ids, ∀ p, svc.pending.get t = some p → p.temp.tempPath ≠ q)

theorem dropped_foldl (ids : List String) (svc : Service s) :
    Dropped svc (ids.foldl (fun svc t => (abortObject svc t).1) svc) ids := by
  induction ids generalizing svc with
  | nil => exact ⟨fun _ => rfl, rfl, fun _ => .inr ⟨rfl, nofun⟩⟩
  | cons t ids ih =>
    obtain ⟨entries, data, files⟩ := ih (abortObject svc t).1
    have table := (abortObject_spec svc t).2.1
    refine ⟨fun t' => ?_, data.trans (data_abortObject svc t), fun q => ?_⟩
    · rw [List.foldl_cons, entries, table, get_delete]
      by_cases later : t' ∈ ids
      · simp [later]
      · by_cases same : t = t'
        · simp [same]
        · simp [later, same, Ne.symm same]
    · rcases files q with ⟨gone, t', later, p, there, path⟩ | ⟨kept, others⟩
      · refine .inl ⟨gone, t', List.mem_cons_of_mem _ later, p, ?_, path⟩
        rw [table, get_delete] at there
        split at there
        · cases there
        · exact there
      · rcases inode_abortObject svc t q with ⟨gone, p, there, path⟩ | ⟨kept', own⟩
        · exact .inl ⟨kept.trans gone, t, List.mem_cons_self, p, there, path⟩
        · refine .inr ⟨kept.trans kept', fun t' member p there path => ?_⟩
          by_cases same : t' = t
          · subst same
            exact own p there path
          · have later : t' ∈ ids := (List.mem_cons.1 member).resolve_left same
            refine others t' later p ?_ path
            rw [table, get_delete, if_neg (Ne.symm same)]
            exact there

theorem mem_staleIds {svc : Service s} {now maxAge : Nat} {t : String} :
    t ∈ staleIds svc now maxAge ↔
      ∃ p, svc.pending.get t = some p ∧ maxAge ≤ now - p.createdAt := by
  have entries : ∀ p, (t, p) ∈ svc.pending.entries ↔ svc.pending.get t = some p := by
    intro p
    rw [Store.entries, Std.ExtTreeMap.mem_toList_iff_getElem?_eq_some, Store.get]
  unfold staleIds
  simp only [List.mem_map, List.mem_filter, decide_eq_true_eq, Prod.exists, exists_and_right,
    exists_eq_right, entries]

/-- Every entry on the key's temp file survives the runs of the cleanup. -/
def Fresh (svc : Service s) (key : String) (cleanups : List (Nat × Nat)) : Prop :=
  ∀ run ∈ cleanups, ∀ t p, svc.pending.get t = some p → p.temp.tempPath = s.tempOf key →
    run.1 - p.createdAt < run.2

theorem runCleanups_gone {svc : Service s} {q : Path} (cleanups : List (Nat × Nat))
    (gone : svc.fs.inode q = none) : (runCleanups svc cleanups).fs.inode q = none := by
  induction cleanups generalizing svc with
  | nil => exact gone
  | cons run cleanups ih =>
    refine ih ?_
    rcases (dropped_foldl (staleIds svc run.1 run.2) svc).files q with ⟨none, -⟩ | ⟨kept, -⟩
    · exact none
    · exact kept.trans gone

omit [Sha256] in
theorem read_of_inode {fs fs' : Fs} {p : Path} (data : fs'.data = fs.data)
    (inode : fs'.inode p = fs.inode p) : fs'.read p = fs.read p := by
  unfold Fs.read
  rw [inode, data]

/-- One run leaves a temp file and the entries on it when it drops none of them, and
removes the file otherwise. -/
theorem cleanup_temp (svc : Service s) (key : String) (run : Nat × Nat) :
    (Fresh svc key [run] →
      (cleanupStalePrepares svc run.1 run.2).1.fs.read (s.tempOf key) =
        svc.fs.read (s.tempOf key) ∧
      ∀ t p, p.temp.tempPath = s.tempOf key →
        ((cleanupStalePrepares svc run.1 run.2).1.pending.get t = some p ↔
          svc.pending.get t = some p)) ∧
    (¬ Fresh svc key [run] →
      (cleanupStalePrepares svc run.1 run.2).1.fs.inode (s.tempOf key) = none) := by
  obtain ⟨entries, data, files⟩ := dropped_foldl (staleIds svc run.1 run.2) svc
  constructor
  · intro fresh
    have young : ∀ t ∈ staleIds svc run.1 run.2, ∀ p, svc.pending.get t = some p →
        p.temp.tempPath ≠ s.tempOf key := by
      intro t stale p there path
      obtain ⟨p', there', old⟩ := mem_staleIds.1 stale
      rw [there] at there'
      cases there'
      have := fresh run List.mem_cons_self t p there path
      omega
    constructor
    · refine read_of_inode data ?_
      rcases files (s.tempOf key) with ⟨-, t, member, p, there, path⟩ | ⟨kept, -⟩
      · exact absurd path (young t member p there)
      · exact kept
    · intro t p path
      refine (Eq.congr_left (entries t)).trans ?_
      by_cases stale : t ∈ staleIds svc run.1 run.2
      · rw [if_pos stale]
        refine ⟨(fun none => by cases none), fun there => ?_⟩
        exact absurd path (young t stale p there)
      · rw [if_neg stale]
  · intro not
    rcases files (s.tempOf key) with ⟨gone, -⟩ | ⟨-, others⟩
    · exact gone
    · exfalso
      apply not
      intro r member t p there path
      obtain rfl := List.mem_singleton.1 member
      by_contra old
      exact others t (mem_staleIds.2 ⟨p, there, by omega⟩) p there path

/-- The temp file outlives the runs exactly when every entry on it does. -/
theorem runCleanups_temp (key : String) (cleanups : List (Nat × Nat)) (svc : Service s) :
    (Fresh svc key cleanups →
      (runCleanups svc cleanups).fs.read (s.tempOf key) = svc.fs.read (s.tempOf key) ∧
      ∀ t p, svc.pending.get t = some p → p.temp.tempPath = s.tempOf key →
        (runCleanups svc cleanups).pending.get t = some p) ∧
    (¬ Fresh svc key cleanups → (runCleanups svc cleanups).fs.inode (s.tempOf key) = none) := by
  induction cleanups generalizing svc with
  | nil => exact ⟨fun _ => ⟨rfl, fun _ _ there _ => there⟩, fun h => absurd (by simp [Fresh]) h⟩
  | cons run cleanups ih =>
    obtain ⟨fresh, stale⟩ := ih (cleanupStalePrepares svc run.1 run.2).1
    obtain ⟨kept, gone⟩ := cleanup_temp svc key run
    have split : Fresh svc key (run :: cleanups) ↔
        Fresh svc key [run] ∧ Fresh svc key cleanups := by
      simp [Fresh]
    rw [split]
    by_cases now : Fresh svc key [run]
    · obtain ⟨read, entries⟩ := kept now
      have same : Fresh (cleanupStalePrepares svc run.1 run.2).1 key cleanups ↔
          Fresh svc key cleanups := by
        constructor
        · intro all r member t p there path
          exact all r member t p ((entries t p path).2 there) path
        · intro all r member t p there path
          exact all r member t p ((entries t p path).1 there) path
      refine ⟨fun all => ?_, fun not => stale fun later => not ⟨now, same.1 later⟩⟩
      obtain ⟨read', entries'⟩ := fresh (same.2 all.2)
      refine ⟨read'.trans read, fun t p there path => ?_⟩
      exact entries' t p ((entries t p path).2 there) path
    · exact ⟨fun all => absurd all.1 now, fun _ => runCleanups_gone cleanups (gone now)⟩

/-- The cleanup leaves every object's file. -/
theorem read_runCleanups (svc : Service s) (cleanups : List (Nat × Nat)) (key : String) :
    (runCleanups svc cleanups).fs.read (s.pathOf key) = svc.fs.read (s.pathOf key) := by
  induction cleanups generalizing svc with
  | nil => rfl
  | cons run cleanups ih =>
    refine (ih _).trans ?_
    obtain ⟨-, data, files⟩ := dropped_foldl (staleIds svc run.1 run.2) svc
    have same : (cleanupStalePrepares svc run.1 run.2).1.fs.inode (s.pathOf key) =
        svc.fs.inode (s.pathOf key) := by
      rcases files (s.pathOf key) with ⟨-, t, -, p, there, path⟩ | ⟨kept, -⟩
      · obtain ⟨requestId, key', -, own⟩ := svc.formed t p there
        rw [own] at path
        exact absurd path (tempOf_ne_pathOf s key' key)
      · exact kept
    exact read_of_inode data same

/-! ## One node -/

/-- The commit of a node takes effect: the prepare was acknowledged, nothing was pending
under its id, the cleanup dropped no entry on the temp file, and the commit arrived. -/
structure Takes (e : Participant) (requestId : Nat) (key : String) (data : Bytes)
    (svc : Service s) : Prop where
  connected : e.connected = true
  answered : e.prepare = .answered
  nonempty : data ≠ []
  unused : svc.pending.get (tempId requestId key) = none
  fresh : Fresh svc key e.cleanups
  young : ∀ run ∈ e.cleanups, run.1 - e.preparedAt < run.2
  reachable : e.reachable = true
  delivered : 0 < e.commits
  renames : e.renames = true

/-- A node after both phases: the second when the first was acknowledged. -/
def participate (e : Participant) (requestId : Nat) (key : String) (data : Bytes)
    (svc : Service s) : Service s :=
  let run := streamPrepare e key requestId data (Sha256.digest data) svc
  let kept := runCleanups run.1 e.cleanups
  match acknowledged run.2 with
  | some t => commitPrepared e t kept
  | none => kept

section Participant

variable {e : Participant} {requestId : Nat} {key : String} {data : Bytes} {svc : Service s}

theorem read_streamPrepareObject (svc : Service s) (now : Nat) (valid : ValidKey key)
    (requestId : Nat) (data : Bytes) (sizes : List Nat) (key' : String) :
    (streamPrepareObject svc now
      (streamChunks key requestId (Sha256.digest data) (cut sizes data))).1.fs.read (s.pathOf key') =
      svc.fs.read (s.pathOf key') := by
  by_cases nonempty : data = []
  · subst nonempty
    rw [streamPrepareObject_nil]
  · rw [streamPrepareObject_eq svc now valid requestId nonempty sizes]
    exact read_prepareObject _ _ _ _

/-- A prepare changes no object's file. -/
theorem read_streamPrepare (e : Participant) (valid : ValidKey key) (requestId : Nat) (data : Bytes)
    (svc : Service s) (key' : String) :
    (streamPrepare e key requestId data (Sha256.digest data) svc).1.fs.read (s.pathOf key') =
      svc.fs.read (s.pathOf key') := by
  unfold streamPrepare
  split
  · cases e.prepare with
    | lost => rfl
    | unanswered => exact read_streamPrepareObject svc _ valid _ _ _ _
    | answered => exact read_streamPrepareObject svc _ valid _ _ _ _
  · rfl

/-- An acknowledged prepare has run as a plain one with the same data. -/
theorem streamPrepare_ok (valid : ValidKey key) {t : String}
    (acknowledged : (streamPrepare e key requestId data (Sha256.digest data) svc).2 = some (.ok t)) :
    e.connected = true ∧ e.prepare = .answered ∧ data ≠ [] ∧ t = tempId requestId key ∧
      (streamPrepare e key requestId data (Sha256.digest data) svc).1 =
        (prepareObject svc e.preparedAt ⟨key, data, Sha256.digest data, requestId⟩).1 := by
  have accepted : Accepted ⟨key, data, Sha256.digest data, requestId⟩ := ⟨.inr rfl, valid⟩
  unfold streamPrepare at acknowledged ⊢
  split at acknowledged
  · rename_i connected
    rw [if_pos connected]
    cases mode : e.prepare with
    | lost =>
      rw [mode] at acknowledged
      simp at acknowledged
    | unanswered =>
      rw [mode] at acknowledged
      simp at acknowledged
    | answered =>
      rw [mode] at acknowledged
      by_cases empty : data = []
      · subst empty
        simp [streamPrepareObject_nil, PrepareResponse.failed] at acknowledged
      · rw [streamPrepareObject_eq svc e.preparedAt valid requestId empty] at acknowledged ⊢
        simp only [(prepareObject_accepted svc e.preparedAt accepted).1, if_true,
          Option.some.injEq, Except.ok.injEq] at acknowledged
        exact ⟨connected, rfl, empty, acknowledged.symm, rfl⟩
  · simp at acknowledged

theorem streamPrepare_acknowledged (valid : ValidKey key) (connected : e.connected = true)
    (answered : e.prepare = .answered) (nonempty : data ≠ []) (svc : Service s) :
    (streamPrepare e key requestId data (Sha256.digest data) svc).2 =
      some (.ok (tempId requestId key)) := by
  have accepted : Accepted ⟨key, data, Sha256.digest data, requestId⟩ := ⟨.inr rfl, valid⟩
  unfold streamPrepare
  rw [if_pos connected, answered, streamPrepareObject_eq svc e.preparedAt valid requestId nonempty]
  simp [(prepareObject_accepted svc e.preparedAt accepted).1]

theorem participate_cases (e : Participant) (requestId : Nat) (key : String) (data : Bytes)
    (svc : Service s) :
    (∃ t, (streamPrepare e key requestId data (Sha256.digest data) svc).2 = some (.ok t) ∧
      participate e requestId key data svc = commitPrepared e t
        (runCleanups (streamPrepare e key requestId data (Sha256.digest data) svc).1 e.cleanups)) ∨
    ((∀ t, (streamPrepare e key requestId data (Sha256.digest data) svc).2 ≠ some (.ok t)) ∧
      participate e requestId key data svc =
        runCleanups (streamPrepare e key requestId data (Sha256.digest data) svc).1 e.cleanups) := by
  cases result : (streamPrepare e key requestId data (Sha256.digest data) svc).2 with
  | none => exact .inr ⟨by simp, by simp only [participate, result, acknowledged]⟩
  | some answer =>
    cases answer with
    | error e => exact .inr ⟨by simp, by simp only [participate, result, acknowledged]⟩
    | ok t => exact .inl ⟨t, rfl, by simp only [participate, result, acknowledged]⟩

/-- A delivered commit runs once, whatever is delivered after it. -/
theorem commitPrepared_eq (e : Participant) (t : String) (svc : Service s) :
    commitPrepared e t svc =
      if e.reachable = true ∧ 0 < e.commits then
        if e.renames then (commitObject svc t).1 else (abortObject svc t).1
      else svc := by
  unfold commitPrepared
  by_cases reachable : e.reachable = true
  · rw [if_pos reachable]
    cases e.commits with
    | zero => simp
    | succ again => simp [reachable, commits_state]
  · rw [if_neg reachable, if_neg fun both => reachable both.1]

/-- No other object's file changes. -/
theorem read_participate_of_ne (valid : ValidKey key) {key' : String}
    (apart : s.pathOf key' ≠ s.pathOf key) (svc : Service s) :
    (participate e requestId key data svc).fs.read (s.pathOf key') =
      svc.fs.read (s.pathOf key') := by
  have kept : (runCleanups (streamPrepare e key requestId data (Sha256.digest data) svc).1
      e.cleanups).fs.read (s.pathOf key') = svc.fs.read (s.pathOf key') := by
    rw [read_runCleanups, read_streamPrepare e valid]
  obtain ⟨t, acknowledged, same⟩ | ⟨-, same⟩ := participate_cases e requestId key data svc
  · obtain ⟨-, -, -, rfl, -⟩ := streamPrepare_ok valid acknowledged
    rw [same, commitPrepared_eq]
    refine Eq.trans ?_ kept
    split
    · split
      · exact read_commitObject_of_ne _ requestId apart
      · exact (abortObject_spec _ _).2.2 key'
    · rfl
  · rw [same]
    exact kept

/-- After a prepare the entries on the temp file are the ones before and its own. -/
theorem fresh_prepareObject (svc : Service s) (now : Nat) {req : PrepareRequest}
    (accepted : Accepted req) (unused : svc.pending.get (tempId req.requestId req.key) = none)
    (cleanups : List (Nat × Nat)) :
    Fresh (prepareObject svc now req).1 req.key cleanups ↔
      Fresh svc req.key cleanups ∧ ∀ run ∈ cleanups, run.1 - now < run.2 := by
  obtain ⟨-, table, -⟩ := prepareObject_accepted svc now accepted
  constructor
  · intro all
    refine ⟨fun run member t p there path => all run member t p ?_ path, fun run member => ?_⟩
    · rw [table, get_put, if_neg]
      · exact there
      · rintro rfl
        rw [unused] at there
        cases there
    · refine all run member (tempId req.requestId req.key) ⟨tempObject s req.key, req.checksum, now⟩
        ?_ rfl
      rw [table]
      simp
  · rintro ⟨old, own⟩ run member t p there path
    rw [table, get_put] at there
    split at there
    · cases there
      exact own run member
    · exact old run member t p there path

/-- Whether a prepare is there for its commit: nothing was under its id, and the cleanup
dropped no entry on its temp file, neither an older one nor its own. -/
theorem prepared_or_gone (svc : Service s) (now : Nat) {req : PrepareRequest}
    (accepted : Accepted req) (cleanups : List (Nat × Nat)) :
    (svc.pending.get (tempId req.requestId req.key) = none → Fresh svc req.key cleanups →
      (∀ run ∈ cleanups, run.1 - now < run.2) →
      (∃ p, (runCleanups (prepareObject svc now req).1 cleanups).pending.get
        (tempId req.requestId req.key) = some p) ∧
      (runCleanups (prepareObject svc now req).1 cleanups).fs.read (s.tempOf req.key) =
        some req.data) ∧
    (¬ (svc.pending.get (tempId req.requestId req.key) = none ∧ Fresh svc req.key cleanups ∧
        ∀ run ∈ cleanups, run.1 - now < run.2) →
      (runCleanups (prepareObject svc now req).1 cleanups).fs.inode (s.tempOf req.key) = none) := by
  obtain ⟨-, table, files⟩ := prepareObject_accepted svc now accepted
  obtain ⟨alive, gone⟩ := runCleanups_temp req.key cleanups (prepareObject svc now req).1
  constructor
  · intro unused fresh young
    have written : (prepareObject svc now req).1.fs.read (s.tempOf req.key) = some req.data := by
      rw [files, unused]
      exact read_writeFile _ _ _
    obtain ⟨read, entries⟩ :=
      alive ((fresh_prepareObject svc now accepted unused cleanups).2 ⟨fresh, young⟩)
    refine ⟨⟨⟨tempObject s req.key, req.checksum, now⟩, entries _ _ ?_ rfl⟩, read.trans written⟩
    rw [table]
    simp
  · intro not
    by_cases unused : svc.pending.get (tempId req.requestId req.key) = none
    · apply gone
      intro all
      exact not ⟨unused, (fresh_prepareObject svc now accepted unused cleanups).1 all⟩
    · apply runCleanups_gone
      rw [files]
      split
      · exact absurd ‹_› unused
      · exact Fs.inode_unlink _ _

/-- The object's file on a node: replaced exactly when the node takes the write. -/
theorem read_participate (e : Participant) (requestId : Nat) (valid : ValidKey key) (data : Bytes)
    (svc : Service s) :
    (Takes e requestId key data svc →
      (participate e requestId key data svc).fs.read (s.pathOf key) = some data) ∧
    (¬ Takes e requestId key data svc →
      (participate e requestId key data svc).fs.read (s.pathOf key) =
        svc.fs.read (s.pathOf key)) := by
  have accepted : Accepted ⟨key, data, Sha256.digest data, requestId⟩ := ⟨.inr rfl, valid⟩
  have kept : (runCleanups (streamPrepare e key requestId data (Sha256.digest data) svc).1
      e.cleanups).fs.read (s.pathOf key) = svc.fs.read (s.pathOf key) := by
    rw [read_runCleanups, read_streamPrepare e valid]
  obtain ⟨t, acknowledged, same⟩ | ⟨unacknowledged, same⟩ :=
    participate_cases e requestId key data svc
  · obtain ⟨connected, answered, nonempty, rfl, ran⟩ := streamPrepare_ok valid acknowledged
    obtain ⟨there, gone⟩ := prepared_or_gone svc e.preparedAt accepted e.cleanups
    rw [same, commitPrepared_eq]
    rw [ran] at kept ⊢
    constructor
    · intro takes
      obtain ⟨⟨p, entry⟩, file⟩ := there takes.unused takes.fresh takes.young
      rw [if_pos ⟨takes.reachable, takes.delivered⟩, if_pos takes.renames]
      exact (commitObject_prepared entry file).2
    · intro not
      split
      · rename_i arrives
        split
        · rename_i renames
          refine (read_commitObject_gone (gone ?_)).trans kept
          rintro ⟨unused, fresh, young⟩
          exact not ⟨connected, answered, nonempty, unused, fresh, young, arrives.1, arrives.2,
            renames⟩
        · exact ((abortObject_spec _ _).2.2 key).trans kept
      · exact kept
  · rw [same]
    refine ⟨fun takes => ?_, fun _ => kept⟩
    exact absurd (streamPrepare_acknowledged valid takes.connected takes.answered takes.nonempty svc)
      (unacknowledged _)

end Participant

/-! ## The whole write -/

omit [Sha256] in
theorem lookup_filterMap (nodes : List Nat) (g : Nat → Option String) (i : Nat) :
    (nodes.filterMap fun i => (g i).map (Prod.mk i)).lookup i = if i ∈ nodes then g i else none := by
  induction nodes with
  | nil => rfl
  | cons j nodes ih =>
    by_cases same : i = j
    · subst same
      cases found : g i with
      | none =>
        rw [List.filterMap_cons_none (by simp [found]), ih]
        simp [found]
      | some t => simp [found]
    · have other : (i == j) = false := by simpa using same
      cases found : g j with
      | none =>
        rw [List.filterMap_cons_none (by simp [found]), ih]
        simp [same]
      | some t =>
        rw [List.filterMap_cons_some (b := (j, t)) (by simp [found]), List.lookup_cons, other]
        simp only [ih, List.mem_cons, same, false_or]

section Write

variable {config : QuorumConfig} {localId : Nat} {faults : Faults} {key : String} {data : Bytes}
  {services : Nat → Service s}

/-- A node after an acknowledged write. -/
def afterWrite (config : QuorumConfig) (faults : Faults) (key : String) (data : Bytes)
    (services : Nat → Service s) (i : Nat) : Service s :=
  if i ∈ selectReplicaNodes faults config.replicationFactor then
    participate (faults.participants i) faults.requestId key data (services i)
  else runCleanups (services i) (faults.participants i).cleanups

theorem finish_prepareAll (i : Nat) :
    (prepareAll config faults key data (Sha256.digest data) services).finish
      (fun i t svc => commitPrepared (faults.participants i) t svc) i =
        afterWrite config faults key data services i := by
  unfold Prepared.finish prepareAll afterWrite
  simp only [lookup_filterMap]
  by_cases selected : i ∈ selectReplicaNodes faults config.replicationFactor
  · simp only [selected, if_true, participate]
    cases acknowledged (streamPrepare (faults.participants i) key faults.requestId data
      (Sha256.digest data) (services i)).2 <;> rfl
  · simp only [selected, if_false]

/-- An acknowledged write: the local node holds the data, the others are as the two phases
left them. -/
theorem commitReplicated_ok (self : localId ∉ faults.clients)
    (file : (services localId).fs.read (s.tempOf key) = some data)
    (call : (commitReplicated config localId faults key services).2 = .ok ()) :
    ((commitReplicated config localId faults key services).1 localId).fs.read (s.pathOf key) =
        some data ∧
      ∀ i, i ≠ localId → (commitReplicated config localId faults key services).1 i =
        afterWrite config faults key data services i := by
  have apart : localId ∉ selectReplicaNodes faults config.replicationFactor := by
    intro member
    exact self (List.mem_of_mem_filter (List.mem_of_mem_take member))
  unfold commitReplicated at call ⊢
  simp only [file] at call ⊢
  split at call
  · cases call
  · rename_i quorum
    split at call
    · cases call
    · rename_i renames
      split at call
      · cases call
      · rename_i fs moved
        rw [if_neg quorum, if_neg renames]
        refine ⟨?_, fun i other => ?_⟩
        · simp only [Function.update_self]
          rw [Fs.read_rename moved]
          have here : (prepareAll config faults key data (Sha256.digest data) services).services localId =
              runCleanups (services localId) (faults.participants localId).cleanups := by
            simp only [prepareAll, apart, if_false]
          rw [here] at moved ⊢
          obtain ⟨i, named, -⟩ := Fs.rename_eq_some moved
          obtain ⟨alive, gone⟩ := runCleanups_temp key (faults.participants localId).cleanups
            (services localId)
          by_cases fresh : Fresh (services localId) key (faults.participants localId).cleanups
          · rw [(alive fresh).1, file]
          · rw [gone fresh] at named
            cases named
        · simp only [Function.update_of_ne other]
          exact finish_prepareAll i

/-- The first phase changes no object's file. -/
theorem read_prepareAll (config : QuorumConfig) (faults : Faults) (valid : ValidKey key)
    (data : Bytes) (services : Nat → Service s) (i : Nat) (key' : String) :
    ((prepareAll config faults key data (Sha256.digest data) services).services i).fs.read
      (s.pathOf key') = (services i).fs.read (s.pathOf key') := by
  simp only [prepareAll]
  rw [read_runCleanups]
  split
  · exact read_streamPrepare _ valid _ _ _ _
  · rfl

theorem read_afterWrite_of_ne (valid : ValidKey key) {key' : String}
    (apart : s.pathOf key' ≠ s.pathOf key) (i : Nat) :
    (afterWrite config faults key data services i).fs.read (s.pathOf key') =
      (services i).fs.read (s.pathOf key') := by
  unfold afterWrite
  split
  · exact read_participate_of_ne valid apart _
  · exact read_runCleanups _ _ _

/-- The aborts change no object's file. -/
theorem read_aborted (config : QuorumConfig) (faults : Faults) (valid : ValidKey key)
    (data : Bytes) (services : Nat → Service s) (i : Nat) (key' : String) :
    ((prepareAll config faults key data (Sha256.digest data) services).finish
      (fun i t svc => abortPrepared (faults.participants i) t svc) i).fs.read (s.pathOf key') =
      (services i).fs.read (s.pathOf key') := by
  rw [Prepared.finish]
  split
  · exact read_prepareAll config faults valid data services i key'
  · refine Eq.trans ?_ (read_prepareAll config faults valid data services i key')
    unfold abortPrepared
    split
    · exact (abortObject_spec _ _).2.2 key'
    · rfl

/-- A write that is given up changes no object's file. -/
theorem read_dropped (valid : ValidKey key) (i : Nat) (key' : String) :
    (Function.update
      ((prepareAll config faults key data (Sha256.digest data) services).finish
        fun i t svc => abortPrepared (faults.participants i) t svc) localId
      { (prepareAll config faults key data (Sha256.digest data) services).services localId with
        fs := ((prepareAll config faults key data (Sha256.digest data) services).services
          localId).fs.unlink (s.tempOf key) } i).fs.read (s.pathOf key') =
      (services i).fs.read (s.pathOf key') := by
  by_cases same : i = localId
  · subst same
    simp only [Function.update_self]
    rw [Fs.read_unlink_of_ne _ (tempOf_ne_pathOf s key key').symm,
      read_prepareAll config faults valid]
  · rw [Function.update_of_ne same, read_aborted config faults valid]

/-- A write changes no other object's file, and none at all when it fails. -/
theorem read_commitReplicated (valid : ValidKey key) {key' : String}
    (other : s.pathOf key' ≠ s.pathOf key ∨
      (commitReplicated config localId faults key services).2 ≠ .ok ()) (i : Nat) :
    ((commitReplicated config localId faults key services).1 i).fs.read (s.pathOf key') =
      (services i).fs.read (s.pathOf key') := by
  unfold commitReplicated at other ⊢
  split
  · rfl
  · rename_i data file
    rw [file] at other
    simp only at other ⊢
    split
    · exact read_dropped valid i key'
    · rename_i quorum
      rw [if_neg quorum] at other
      split
      · exact read_dropped valid i key'
      · rename_i renames
        rw [if_neg renames] at other
        split
        · exact read_dropped valid i key'
        · rename_i fs moved
          rw [moved] at other
          have apart : s.pathOf key' ≠ s.pathOf key := other.resolve_right fun h => h rfl
          by_cases same : i = localId
          · subst same
            simp only [Function.update_self]
            refine (Fs.read_rename_of_ne moved (tempOf_ne_pathOf s key key').symm apart).trans ?_
            exact read_prepareAll config faults valid data services i key'
          · simp only [Function.update_of_ne same, finish_prepareAll]
            exact read_afterWrite_of_ne valid apart i

/-- The object's file on another node after an acknowledged write: the written data on a
selected node that takes the write, and otherwise what it was. -/
theorem read_afterWrite_eq (config : QuorumConfig) (faults : Faults) (valid : ValidKey key)
    (data : Bytes) (services : Nat → Service s) (i : Nat) :
    ((i ∈ selectReplicaNodes faults config.replicationFactor ∧
        Takes (faults.participants i) faults.requestId key data (services i)) →
      (afterWrite config faults key data services i).fs.read (s.pathOf key) = some data) ∧
    (¬ (i ∈ selectReplicaNodes faults config.replicationFactor ∧
        Takes (faults.participants i) faults.requestId key data (services i)) →
      (afterWrite config faults key data services i).fs.read (s.pathOf key) =
        (services i).fs.read (s.pathOf key)) := by
  unfold afterWrite
  by_cases selected : i ∈ selectReplicaNodes faults config.replicationFactor
  · obtain ⟨taken, left⟩ := read_participate (faults.participants i) faults.requestId valid data
      (services i)
    rw [if_pos selected]
    exact ⟨fun takes => taken takes.2, fun not => left fun takes => not ⟨selected, takes⟩⟩
  · rw [if_neg selected, read_runCleanups]
    exact ⟨fun takes => absurd takes.1 selected, fun _ => rfl⟩

theorem read_afterWrite (valid : ValidKey key) (i : Nat) :
    (afterWrite config faults key data services i).fs.read (s.pathOf key) = some data ↔
      (i ∈ selectReplicaNodes faults config.replicationFactor ∧
        Takes (faults.participants i) faults.requestId key data (services i)) ∨
      (services i).fs.read (s.pathOf key) = some data := by
  obtain ⟨taken, left⟩ := read_afterWrite_eq config faults valid data services i
  by_cases takes : i ∈ selectReplicaNodes faults config.replicationFactor ∧
      Takes (faults.participants i) faults.requestId key data (services i)
  · simp [taken takes, takes]
  · simp [left takes, takes]

end Write

open Classical in
/-- The nodes that hold exactly these bytes as the object of the key. -/
noncomputable def holders (cluster : Finset Nat) (services : Nat → Service s) (key : String)
    (data : Bytes) : Finset Nat :=
  cluster.filter fun i => (services i).fs.read (s.pathOf key) = some data

open Classical in
/-- The other nodes that take the write, or held its bytes before. -/
noncomputable def takers (cluster : Finset Nat) (config : QuorumConfig) (localId : Nat)
    (faults : Faults) (key : String) (data : Bytes) (services : Nat → Service s) : Finset Nat :=
  (cluster.erase localId).filter fun i =>
    (i ∈ selectReplicaNodes faults config.replicationFactor ∧
      Takes (faults.participants i) faults.requestId key data (services i)) ∨
    (services i).fs.read (s.pathOf key) = some data

/-- After an acknowledged write the holders are the local node and the takers. -/
theorem card_holders {config : QuorumConfig} {localId : Nat} {faults : Faults} {key : String}
    {data : Bytes} {services : Nat → Service s} {cluster : Finset Nat} (valid : ValidKey key)
    (member : localId ∈ cluster) (self : localId ∉ faults.clients)
    (file : (services localId).fs.read (s.tempOf key) = some data)
    (call : (commitReplicated config localId faults key services).2 = .ok ()) :
    (holders cluster (commitReplicated config localId faults key services).1 key data).card =
      1 + (takers cluster config localId faults key data services).card := by
  obtain ⟨here, others⟩ := commitReplicated_ok self file call
  have split : holders cluster (commitReplicated config localId faults key services).1 key data =
      insert localId (takers cluster config localId faults key data services) := by
    ext i
    by_cases same : i = localId
    · subst same
      simp [holders, member, here]
    · simp only [holders, takers, Finset.mem_filter, Finset.mem_insert, Finset.mem_erase, same,
        ne_eq, not_false_eq_true, true_and, false_or, others i same, read_afterWrite valid]
  have apart : localId ∉ takers cluster config localId faults key data services := by
    simp [takers]
  rw [split, Finset.card_insert_of_notMem apart, Nat.add_comm]

theorem takers_update {config : QuorumConfig} {localId : Nat} {faults : Faults} {key : String}
    {data : Bytes} (services : Nat → Service s) (cluster : Finset Nat) (svc : Service s) :
    takers cluster config localId faults key data (Function.update services localId svc) =
      takers cluster config localId faults key data services := by
  ext i
  simp only [takers, Finset.mem_filter, Finset.mem_erase]
  refine and_congr_right fun member => ?_
  rw [Function.update_of_ne member.1]

theorem putReplicated_eq {config : QuorumConfig} {localId : Nat} {faults : Faults} {key : String}
    {data : Bytes} (services : Nat → Service s) (valid : ValidKey key) :
    putReplicated config localId faults key data services =
      commitReplicated config localId faults key (Function.update services localId
        { services localId with fs := writeFile (services localId).fs (s.tempOf key) data }) := by
  unfold putReplicated
  rw [createTempObject_ok valid]
  rfl

/-- A write with an invalid key does nothing. -/
theorem putReplicated_invalid (config : QuorumConfig) (localId : Nat) (faults : Faults)
    {key : String} (data : Bytes) (services : Nat → Service s) (invalid : ¬ ValidKey key) :
    ∃ e, putReplicated config localId faults key data services = (services, .error e) := by
  obtain ⟨e, refused⟩ := createTempObject_invalid s invalid
  unfold putReplicated
  rw [refused]
  exact ⟨_, rfl⟩

/-- The files of the object after an acknowledged write. -/
theorem read_putReplicated {config : QuorumConfig} {leader : Nat} {faults : Faults} {key : String}
    {data : Bytes} {services : Nat → Service s} (self : leader ∉ faults.clients)
    (call : (putReplicated config leader faults key data services).2 = .ok ()) (i : Nat) :
    ((putReplicated config leader faults key data services).1 i).fs.read (s.pathOf key) =
        some data ∨
      i ≠ leader ∧
      ¬ (i ∈ selectReplicaNodes faults config.replicationFactor ∧
        Takes (faults.participants i) faults.requestId key data (services i)) ∧
      ((putReplicated config leader faults key data services).1 i).fs.read (s.pathOf key) =
        (services i).fs.read (s.pathOf key) := by
  have valid : ValidKey key := by
    by_contra invalid
    obtain ⟨e, failed⟩ := putReplicated_invalid config leader faults data services invalid
    rw [failed] at call
    cases call
  rw [putReplicated_eq services valid] at call ⊢
  have file : (Function.update services leader
      { services leader with fs := writeFile (services leader).fs (s.tempOf key) data }
        leader).fs.read (s.tempOf key) = some data := by
    rw [Function.update_self]
    exact read_writeFile _ _ _
  obtain ⟨here, others⟩ := commitReplicated_ok self file call
  by_cases same : i = leader
  · subst same
    exact .inl here
  · obtain ⟨taken, left⟩ := read_afterWrite_eq config faults valid data (Function.update services
      leader { services leader with fs := writeFile (services leader).fs (s.tempOf key) data }) i
    rw [Function.update_of_ne same] at taken left
    rw [others i same]
    by_cases takes : i ∈ selectReplicaNodes faults config.replicationFactor ∧
        Takes (faults.participants i) faults.requestId key data (services i)
    · exact .inl (taken takes)
    · exact .inr ⟨same, takes, left takes⟩

/-- A write leaves the other objects, and a failed write leaves them all. -/
theorem read_putReplicated_other {config : QuorumConfig} {leader : Nat} {faults : Faults}
    {key : String} {data : Bytes} {services : Nat → Service s} {key' : String}
    (other : s.pathOf key' ≠ s.pathOf key ∨
      (putReplicated config leader faults key data services).2 ≠ .ok ()) (i : Nat) :
    ((putReplicated config leader faults key data services).1 i).fs.read (s.pathOf key') =
      (services i).fs.read (s.pathOf key') := by
  by_cases valid : ValidKey key
  · rw [putReplicated_eq services valid] at other ⊢
    rw [read_commitReplicated valid other]
    by_cases same : i = leader
    · subst same
      rw [Function.update_self]
      exact read_writeFile_of_ne _ (tempOf_ne_pathOf s key key').symm _
    · rw [Function.update_of_ne same]
  · obtain ⟨e, failed⟩ := putReplicated_invalid config leader faults data services valid
    rw [failed]

/-- A delete leaves the files of other objects. -/
theorem read_deleteReplicated {leader : Nat} {faults : DeleteFaults} {key key' : String}
    (apart : s.pathOf key' ≠ s.pathOf key) (services : Nat → Service s) (i : Nat) :
    ((deleteReplicated leader faults key services).1 i).fs.read (s.pathOf key') =
      (services i).fs.read (s.pathOf key') := by
  have one : ∀ svc : Service s,
      (deleteObject svc key).1.fs.read (s.pathOf key') = svc.fs.read (s.pathOf key') := by
    intro svc
    unfold deleteObject
    simp only
    split
    · rename_i fs call
      rw [deleteObject_eq call]
      exact svc.fs.read_unlink_of_ne apart
    · rfl
    · rfl
  unfold deleteReplicated
  split
  · rfl
  · split
    · rfl
    · simp only
      split
      · exact one (services i)
      · rfl

/-- **Quorum durability.** An acknowledged write is on a quorum of nodes exactly when enough
other nodes take it in the second phase, or held its bytes before. -/
theorem quorum_durable_iff (n localId : Nat) (cluster : Finset Nat) (member : localId ∈ cluster)
    (faults : Faults) (self : localId ∉ faults.clients) (key : String) (data : Bytes)
    (services : Nat → Service s) :
    let config := QuorumConfig.withReplicationFactor n
    ((putReplicated config localId faults key data services).2 = .ok () →
      (config.writeQuorum ≤
          (holders cluster (putReplicated config localId faults key data services).1 key data).card ↔
        config.writeQuorum ≤ 1 + (takers cluster config localId faults key data services).card)) ∧
    (ValidKey key → (services localId).fs.read (s.tempOf key) = some data →
      (commitReplicated config localId faults key services).2 = .ok () →
      (config.writeQuorum ≤
          (holders cluster (commitReplicated config localId faults key services).1 key data).card ↔
        config.writeQuorum ≤ 1 + (takers cluster config localId faults key data services).card)) := by
  intro config
  constructor
  · intro call
    have valid : ValidKey key := by
      by_contra invalid
      obtain ⟨e, failed⟩ := putReplicated_invalid config localId faults data services invalid
      rw [failed] at call
      cases call
    rw [putReplicated_eq services valid] at call ⊢
    rw [card_holders valid member self ?_ call, takers_update]
    rw [Function.update_self]
    exact read_writeFile _ _ _
  · intro valid file call
    rw [card_holders valid member self file call]

/-- A write to two healthy nodes that acknowledge; the commit is delivered this often. -/
def sampleFaults (commits : Nat) : Faults where
  requestId := 1
  clients := [1, 2]
  participants _ := ⟨true, true, [], .answered, 0, [], true, commits, true, true⟩
  localRenames := true

omit [Sha256] in
theorem quorum_durable_sample :
    letI : Sha256 := Sha256.sampled
    2 ≤ (holders {0, 1, 2} (putReplicated (.withReplicationFactor 3) 0 (sampleFaults 1) "abc/k" [1]
      fun _ => Service.empty sampleStorage).1 "abc/k" [1]).card := by
  let _ : Sha256 := Sha256.sampled
  have call : (putReplicated (.withReplicationFactor 3) 0 (sampleFaults 1) "abc/k" [1]
      fun _ => Service.empty sampleStorage).2 = .ok () := by decide +kernel
  refine ((quorum_durable_iff 3 0 {0, 1, 2} (by decide) (sampleFaults 1) (by decide) "abc/k" [1]
    (fun _ => Service.empty sampleStorage)).1 call).2 ?_
  have taken : 1 ∈ takers {0, 1, 2} (.withReplicationFactor 3) 0 (sampleFaults 1) "abc/k" [1]
      (fun _ => Service.empty sampleStorage) := by
    simp only [takers, Finset.mem_filter]
    refine ⟨by decide, .inl ⟨by decide, ?_⟩⟩
    exact ⟨rfl, rfl, by decide, get_empty _, (fun _ member => by cases member),
      (fun _ member => by cases member), rfl, by decide, rfl⟩
  have := Finset.card_pos.2 ⟨1, taken⟩
  show 2 ≤ _
  omega

omit [Sha256] in
/-- A write is acknowledged, and only the coordinator holds it, when its commits are lost. -/
theorem acknowledged_write_not_durable :
    ¬ ∀ [Sha256] (s : ObjectStorage) (n localId : Nat) (cluster : Finset Nat), localId ∈ cluster →
      ∀ (faults : Faults), localId ∉ faults.clients →
      ∀ (key : String) (data : Bytes) (services : Nat → Service s),
      (putReplicated (.withReplicationFactor n) localId faults key data services).2 = .ok () →
      (QuorumConfig.withReplicationFactor n).writeQuorum ≤
        (holders cluster (putReplicated (.withReplicationFactor n) localId faults key data
          services).1 key data).card := by
  intro claim
  let _ : Sha256 := Sha256.sampled
  have call : (putReplicated (.withReplicationFactor 3) 0 (sampleFaults 0) "abc/k" [1]
      fun _ => Service.empty sampleStorage).2 = .ok () := by decide +kernel
  have claimed := claim sampleStorage 3 0 {0, 1, 2} (by decide) (sampleFaults 0) (by decide) "abc/k"
    [1] (fun _ => Service.empty sampleStorage) call
  have alone : ∀ i ∈ holders {0, 1, 2} (putReplicated (.withReplicationFactor 3) 0 (sampleFaults 0)
      "abc/k" [1] fun _ => Service.empty sampleStorage).1 "abc/k" [1], i = 0 := by
    intro i member
    simp only [holders, Finset.mem_filter, Finset.mem_insert, Finset.mem_singleton] at member
    obtain ⟨rfl | rfl | rfl, held⟩ := member
    · rfl
    · exact absurd held (by decide +kernel)
    · exact absurd held (by decide +kernel)
  have few := Finset.card_le_card fun i member => Finset.mem_singleton.2 (alone i member)
  have quorum : (QuorumConfig.withReplicationFactor 3).writeQuorum = 2 := rfl
  rw [quorum] at claimed
  simp only [Finset.card_singleton] at few
  omega

end Save.Replication
