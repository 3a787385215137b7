import Save.Api.Buckets

/-!
# Objects without a bucket

The handlers of `handlers/bucket` and `handlers/objects` check outside the log: that
the bucket exists (or is in the cache) before an object is added, that it is empty
before it is deleted, and `complete_multipart` checks neither. `bucket_integrity`:
in every run in which each check still holds when its command enters the log
(`ChecksHold`), every applied object record has the record of its bucket.

The invariant keeps, beside every check that a handler or a proposal carries, the
part of the log it was made over (`seen`), so that a check can be compared with the
log that its command is appended to.
-/

namespace Save.Api
set_option autoImplicit false
open Save.Text Save.Kv Save.Common Save.Metadata Save.Run

/-! ## Buckets and objects of a log -/

/-- Whether the bucket is there after a command. -/
def bucketThere (name : String) (there : Bool) : Command → Bool
  | .createBucket bucket => if bucket.name = name then true else there
  | .deleteBucket name' => if name' = name then false else there
  | _ => there

/-- Whether the object is there after a command. -/
def objectThere (bucket key : String) (there : Bool) : Command → Bool
  | .putObjectMetadata o => if (o.bucket, o.key) = (bucket, key) then true else there
  | .deleteObjectMetadata bucket' key' => if (bucket', key') = (bucket, key) then false else there
  | _ => there

/-- Whether the bucket is there after the commands. -/
def hasBucket (name : String) (there : Bool) (log : List Command) : Bool :=
  log.foldl (bucketThere name) there

/-- Whether the object is there after the commands. -/
def hasObject (bucket key : String) (there : Bool) (log : List Command) : Bool :=
  log.foldl (objectThere bucket key) there

/-- The check behind a proposed command holds at the end of the log: the bucket that a put
has seen is not deleted since, and the one that a completed upload goes to, unchecked, is
there; no object came since into a bucket seen empty. -/
def BucketProposal.Holds (log : List Command) (p : BucketProposal) : Prop :=
  match p.command with
  | .putObjectMetadata o =>
    match p.seen with
    | some seen => hasBucket o.bucket true (log.drop seen) = true
    | none => hasBucket o.bucket false log = true
  | .deleteBucket name => ∀ key, hasObject name key false (log.drop (p.seen.getD 0)) = false
  | _ => True

/-- A command enters the log only while the check behind it holds. -/
def ChecksHold (sys : BucketSystem) : BucketEvent → Prop
  | .commit j => ∀ p, sys.inFlight[j]? = some p → p.Holds sys.log
  | _ => True

/-- Every object record has the record of its bucket, on every node. -/
def BucketSystem.Integrity (sys : BucketSystem) : Prop :=
  ∀ node x v, (sys.nodes node).db.get x = some v → startsWith x objectPrefix = true →
    ∃ o b, v = .object o ∧ (sys.nodes node).db.get (bucketKey o.bucket) = some (.bucket b)

/-! ## The invariant -/

/-- The bucket was there when `seen` entries were. -/
def SawBucket (log : List Command) (name : String) (seen : Nat) : Prop :=
  seen ≤ log.length ∧ hasBucket name false (log.take seen) = true

/-- The bucket was empty when `seen` entries were. -/
def SawEmpty (log : List Command) (name : String) (seen : Nat) : Prop :=
  seen ≤ log.length ∧ ∀ key, hasObject name key false (log.take seen) = false

def BucketRequest.Valid : BucketRequest → Prop
  | .put o => ValidBucket o.bucket ∧ ValidKey o.key
  | .initiate w _ => ValidBucket w.bucket

def Handler.Inv (log : List Command) : Handler → Prop
  | .createBucket name => ValidBucket name
  | .createBucketWrite bucket => ValidBucket bucket.name
  | .createBucketCache name seen => SawBucket log name seen
  | .deleteBucket name => ValidBucket name
  | .deleteBucketList name => ValidBucket name
  | .deleteBucketWrite name seen => ValidBucket name ∧ SawEmpty log name seen
  | .lock op => ValidBucket op.bucket ∧ ValidKey op.key
  | .validateCache r => r.Valid
  | .validateLook r => r.Valid
  | .validateInsert r seen => r.Valid ∧ SawBucket log r.bucket seen
  | .objectLook op => ValidBucket op.bucket ∧ ValidKey op.key
  | .objectWrite op seen => (ValidBucket op.bucket ∧ ValidKey op.key) ∧
    ∀ s, seen = some s → SawBucket log op.bucket s
  | _ => True

def BucketProposal.Inv (log : List Command) (p : BucketProposal) : Prop :=
  match p.command with
  | .createBucket bucket => ValidBucket bucket.name
  | .deleteBucket name => ValidBucket name ∧ ∃ s, p.seen = some s ∧ SawEmpty log name s
  | .putObjectMetadata o => (ValidBucket o.bucket ∧ ValidKey o.key) ∧
    ∀ s, p.seen = some s → SawBucket log o.bucket s
  | .deleteObjectMetadata bucket key => ValidBucket bucket ∧ ValidKey key
  | _ => True

/-- A command as an operation on the store. -/
def catalogOp (now : DateTime) : Command → CatalogOp
  | .createBucket bucket => .createBucket now bucket.name
  | .deleteBucket name => .deleteBucket name
  | .putObjectMetadata o => .putObject o
  | .deleteObjectMetadata bucket key => .deleteObject bucket key
  | .acquireLock bucket key lockType holder => .lock (.acquire bucket key lockType holder)
  | .releaseLock bucket key holder => .lock (.release bucket key holder)

/-- A node's records are those of the log it has applied, and its cache entries were true. -/
structure BucketNode.Inv (log : List Command) (n : BucketNode) : Prop where
  applied : n.applied ≤ log.length
  stored : ∃ c : Catalog, c.StoredIn n.db ∧
    (∀ name, (c.buckets name).isSome = hasBucket name false (log.take n.applied)) ∧
    ∀ bucket key, (c.objects (bucket, key)).isSome = hasObject bucket key false (log.take n.applied)
  cache : ∀ name seen, n.cache name = some seen → SawBucket log name seen

/-- At every point of the log, the bucket of every object is there. -/
def Intact (log : List Command) : Prop :=
  ∀ q bucket key, hasObject bucket key false (log.take q) = true →
    hasBucket bucket false (log.take q) = true

structure BucketSystem.Inv (sys : BucketSystem) : Prop where
  named : ∀ c ∈ sys.log, (catalogOp 0 c).Valid
  intact : Intact sys.log
  nodes : ∀ node, (sys.nodes node).Inv sys.log
  tasks : ∀ i node h, sys.tasks i = some (node, h) → h.Inv sys.log
  inFlight : ∀ p ∈ sys.inFlight, p.Inv sys.log

theorem BucketSystem.Inv.integrity {sys : BucketSystem} (inv : sys.Inv) : sys.Integrity := by
  intro node x v there start
  obtain ⟨c, stored, buckets, objects⟩ := (inv.nodes node).stored
  obtain ⟨bucket, key, o, live, rfl⟩ := stored.owned x v there start
  obtain ⟨rfl, rfl, -, record⟩ := stored.object bucket key o live
  rw [record] at there
  cases there
  have present : (c.buckets o.bucket).isSome = true := by
    rw [buckets]
    refine inv.intact _ o.bucket o.key ?_
    rw [← objects, live]
    rfl
  obtain ⟨b, found⟩ := Option.isSome_iff_exists.1 present
  refine ⟨o, b, rfl, ?_⟩
  rw [stored.bucket, found]
  rfl

/-! ## Checks -/

section

variable {log : List Command} {n : BucketNode} {name bucket key : String} {seen : Nat}

theorem SawBucket.append (saw : SawBucket log name seen) (c : Command) :
    SawBucket (log ++ [c]) name seen := by
  refine ⟨saw.1.trans (by simp), ?_⟩
  rw [List.take_append_of_le_length saw.1]
  exact saw.2

theorem SawEmpty.append (saw : SawEmpty log name seen) (c : Command) :
    SawEmpty (log ++ [c]) name seen := by
  refine ⟨saw.1.trans (by simp), ?_⟩
  rw [List.take_append_of_le_length saw.1]
  exact saw.2

/-- A bucket that was seen and is not deleted since is there. -/
theorem SawBucket.there (saw : SawBucket log name seen)
    (since : hasBucket name true (log.drop seen) = true) : hasBucket name false log = true := by
  rw [← List.take_append_drop seen log, hasBucket, List.foldl_append]
  have before : (log.take seen).foldl (bucketThere name) false = true := saw.2
  rw [before]
  exact since

/-- A bucket that was seen empty and got no object since is empty. -/
theorem SawEmpty.empty (saw : SawEmpty log name seen)
    (since : ∀ key, hasObject name key false (log.drop seen) = false) (key : String) :
    hasObject name key false log = false := by
  rw [← List.take_append_drop seen log, hasObject, List.foldl_append]
  have before : (log.take seen).foldl (objectThere name key) false = false := saw.2 key
  rw [before]
  exact since key

theorem BucketNode.Inv.sawBucket (inv : n.Inv log) (valid : ValidBucket name)
    (found : (getBucket n.db name).toBool = true) : SawBucket log name n.applied := by
  obtain ⟨c, stored, buckets, -⟩ := inv.stored
  refine ⟨inv.applied, ?_⟩
  rw [← buckets]
  unfold getBucket at found
  rw [checkBucketName_ok.2 valid] at found
  simp only [bind, Except.bind, stored.bucket] at found
  cases live : c.buckets name with
  | none =>
    rw [live] at found
    cases found
  | some b => rfl

theorem BucketNode.Inv.sawEmpty (inv : n.Inv log) (valid : ValidBucket name)
    (listed : listObjects n.db name none = .ok []) : SawEmpty log name n.applied := by
  obtain ⟨c, stored, -, objects⟩ := inv.stored
  refine ⟨inv.applied, fun key => ?_⟩
  obtain ⟨os, listed', -, all⟩ := stored.readFrom.objects name none valid
  rw [listed] at listed'
  cases listed'
  rw [← objects]
  cases live : c.objects (name, key) with
  | none => rfl
  | some o =>
    obtain ⟨-, rfl, -⟩ := stored.object name key o live
    have member := (all o).2 ⟨live, startsWith_iff.2 List.nil_prefix⟩
    cases member

/-! ## The log grows -/

theorem Handler.Inv.append {h : Handler} (inv : h.Inv log) (c : Command) : h.Inv (log ++ [c]) := by
  cases h with
  | createBucketCache name seen => exact SawBucket.append inv c
  | deleteBucketWrite name seen => exact ⟨inv.1, inv.2.append c⟩
  | validateInsert r seen => exact ⟨inv.1, inv.2.append c⟩
  | objectWrite op seen => exact ⟨inv.1, fun s same => (inv.2 s same).append c⟩
  | _ => exact inv

theorem BucketProposal.Inv.append {p : BucketProposal} (inv : p.Inv log) (c : Command) :
    p.Inv (log ++ [c]) := by
  obtain ⟨command, seen⟩ := p
  cases command with
  | deleteBucket name =>
    obtain ⟨valid, s, same, saw⟩ := inv
    exact ⟨valid, s, same, saw.append c⟩
  | putObjectMetadata o => exact ⟨inv.1, fun s same => (inv.2 s same).append c⟩
  | _ => exact inv

theorem BucketNode.Inv.append (inv : n.Inv log) (c : Command) : n.Inv (log ++ [c]) where
  applied := inv.applied.trans (by simp)
  stored := by
    rw [List.take_append_of_le_length inv.applied]
    exact inv.stored
  cache name seen entry := (inv.cache name seen entry).append c

theorem intact_append {c : Command} (intact : Intact log)
    (last : ∀ bucket key, objectThere bucket key (hasObject bucket key false log) c = true →
      bucketThere bucket (hasBucket bucket false log) c = true) : Intact (log ++ [c]) := by
  intro q bucket key there
  by_cases short : q ≤ log.length
  · rw [List.take_append_of_le_length short] at there ⊢
    exact intact q bucket key there
  · have whole : (log ++ [c]).take q = log ++ [c] := List.take_of_length_le (by simp; omega)
    rw [whole, hasObject, List.foldl_append] at there
    rw [whole, hasBucket, List.foldl_append]
    exact last bucket key there

/-- A command whose check holds leaves no object without its bucket. -/
theorem BucketProposal.Holds.intact {p : BucketProposal} (holds : p.Holds log) (inv : p.Inv log)
    (intact : Intact log) : Intact (log ++ [p.command]) := by
  obtain ⟨command, seen⟩ := p
  have whole : ∀ bucket key, hasObject bucket key false log = true →
      hasBucket bucket false log = true := by
    intro bucket key there
    have here := intact log.length bucket key
    rw [List.take_length] at here
    exact here there
  refine intact_append intact fun bucket key there => ?_
  cases command with
  | createBucket b =>
    simp only [bucketThere]
    split
    · rfl
    · exact whole bucket key there
  | deleteBucket name =>
    obtain ⟨-, s, same, saw⟩ := inv
    subst same
    simp only [bucketThere]
    split
    · rename_i same
      subst same
      have none := saw.empty holds key
      rw [show objectThere name key (hasObject name key false log) (.deleteBucket name) =
        hasObject name key false log from rfl, none] at there
      cases there
    · exact whole bucket key there
  | putObjectMetadata o =>
    simp only [objectThere] at there
    split at there
    · rename_i same
      cases same
      cases seen with
      | none => exact holds
      | some s => exact (inv.2 s rfl).there holds
    · exact whole bucket key there
  | deleteObjectMetadata bucket' key' =>
    simp only [objectThere] at there
    split at there
    · cases there
    · exact whole bucket key there
  | acquireLock _ _ _ _ => exact whole bucket key there
  | releaseLock _ _ _ => exact whole bucket key there

/-! ## Nodes -/

theorem catalogOp_call (now : DateTime) (db : Store Value) (c : Command) :
    applyCommand now db c = ((catalogOp now c).call db).mapError ioError := by
  cases c <;> rfl

theorem catalogOp_valid {c : Command} (valid : (catalogOp 0 c).Valid) (now : DateTime) :
    (catalogOp now c).Valid := by
  cases c <;> exact valid

theorem buckets_on (now : DateTime) (cat : Catalog) (c : Command) (name : String) :
    (((catalogOp now c).on cat).buckets name).isSome =
      bucketThere name (cat.buckets name).isSome c := by
  cases c with
  | createBucket b =>
    simp only [catalogOp, CatalogOp.on, bucketThere]
    by_cases same : b.name = name
    · subst same
      rw [if_pos rfl]
      split
      · assumption
      · simp only [Function.update_self, Option.isSome_some]
    · rw [if_neg same]
      split
      · rfl
      · simp only [Function.update_of_ne (Ne.symm same)]
  | deleteBucket name' =>
    simp only [catalogOp, CatalogOp.on, bucketThere]
    by_cases same : name' = name
    · subst same
      rw [if_pos rfl]
      simp only [Function.update_self, Option.isSome_none]
    · rw [if_neg same]
      simp only [Function.update_of_ne (Ne.symm same)]
  | putObjectMetadata o => rfl
  | deleteObjectMetadata bucket key => rfl
  | acquireLock bucket key lockType holder => rfl
  | releaseLock bucket key holder => rfl

theorem objects_on (now : DateTime) (cat : Catalog) (c : Command) (bucket key : String) :
    (((catalogOp now c).on cat).objects (bucket, key)).isSome =
      objectThere bucket key (cat.objects (bucket, key)).isSome c := by
  cases c with
  | createBucket b =>
    simp only [catalogOp, CatalogOp.on, objectThere]
    split <;> rfl
  | deleteBucket name => rfl
  | putObjectMetadata o =>
    simp only [catalogOp, CatalogOp.on, objectThere]
    by_cases same : (o.bucket, o.key) = (bucket, key)
    · cases same
      rw [if_pos rfl]
      simp only [Function.update_self, Option.isSome_some]
    · rw [if_neg same]
      simp only [Function.update_of_ne (Ne.symm same)]
  | deleteObjectMetadata bucket' key' =>
    simp only [catalogOp, CatalogOp.on, objectThere]
    by_cases same : (bucket', key') = (bucket, key)
    · cases same
      rw [if_pos rfl]
      simp only [Function.update_self, Option.isSome_none]
    · rw [if_neg same]
      simp only [Function.update_of_ne (Ne.symm same)]
  | acquireLock bucket' key' lockType holder => rfl
  | releaseLock bucket' key' holder => rfl

theorem BucketNode.Inv.apply (inv : n.Inv log) {c : Command} (next : log[n.applied]? = some c)
    (valid : (catalogOp 0 c).Valid) {now : DateTime} {ws : List (Write Value)}
    (applied : applyCommand now n.db c = .ok ws) :
    BucketNode.Inv log { n with db := applyAll n.db ws, applied := n.applied + 1 } where
  applied := by
    obtain ⟨bound, -⟩ := List.getElem?_eq_some_iff.1 next
    exact bound
  stored := by
    obtain ⟨cat, stored, buckets, objects⟩ := inv.stored
    rw [catalogOp_call, mapError_eq_ok] at applied
    have after := stored.step (catalogOp_valid valid now)
    rw [after_of_call applied] at after
    have one : log.take (n.applied + 1) = log.take n.applied ++ [c] := by
      rw [List.take_add_one, next]
      rfl
    refine ⟨_, after, fun name => ?_, fun bucket key => ?_⟩
    · rw [buckets_on, buckets]
      simp only [one, hasBucket, List.foldl_append, List.foldl_cons, List.foldl_nil]
    · rw [objects_on, objects]
      simp only [one, hasObject, List.foldl_append, List.foldl_cons, List.foldl_nil]
  cache := inv.cache

theorem BucketNode.Inv.upload (inv : n.Inv log) (op : UploadOp) :
    BucketNode.Inv log { n with db := op.after n.db } where
  applied := inv.applied
  stored := by
    obtain ⟨cat, stored, rest⟩ := inv.stored
    have same : (CatalogOp.upload op).after n.db = op.after n.db := by
      simp only [CatalogOp.after, CatalogOp.call, UploadOp.after]
      cases op.call n.db <;> rfl
    have valid : (CatalogOp.upload op).Valid := trivial
    have after := stored.step valid
    rw [same] at after
    exact ⟨cat, after, rest⟩
  cache := inv.cache

theorem BucketNode.Inv.insert (inv : n.Inv log) (saw : SawBucket log name seen) :
    (n.insert name seen).Inv log where
  applied := inv.applied
  stored := inv.stored
  cache name' seen' entry := by
    by_cases same : name' = name
    · subst same
      simp only [BucketNode.insert, Function.update_self, Option.some.injEq] at entry
      subst entry
      exact saw
    · simp only [BucketNode.insert, Function.update_of_ne same] at entry
      exact inv.cache name' seen' entry

theorem BucketNode.Inv.remove (inv : n.Inv log) (name : String) : (n.remove name).Inv log where
  applied := inv.applied
  stored := inv.stored
  cache name' seen' entry := by
    by_cases same : name' = name
    · subst same
      simp only [BucketNode.remove, Function.update_self] at entry
      cases entry
    · simp only [BucketNode.remove, Function.update_of_ne same] at entry
      exact inv.cache name' seen' entry

/-! ## Handlers -/

theorem BucketRequest.validated_inv {r : BucketRequest} (valid : r.Valid)
    (saw : SawBucket log r.bucket seen) : (r.validated seen).Inv log := by
  cases r with
  | put o =>
    refine ⟨valid, fun s same => ?_⟩
    cases same
    exact saw
  | initiate w contentType => trivial

theorem BucketRequest.bucket_valid {r : BucketRequest} (valid : r.Valid) : ValidBucket r.bucket := by
  cases r with
  | put o => exact valid.1
  | initiate w contentType => exact valid

/-- A handler that goes on keeps its invariant; one that ends has none. -/
def GoesOn (log : List Command) : Option Handler → Prop
  | some h => h.Inv log
  | none => True

/-- A local step keeps the node's invariant, and the handler's. -/
theorem Handler.Inv.go {h : Handler} (own : h.Inv log) (inv : n.Inv log) {now : DateTime}
    {n' : BucketNode} {h' : Option Handler} (step : h.go n now = some (n', h')) :
    n'.Inv log ∧ GoesOn log h' := by
  cases h with
  | createBucket name =>
    simp only [Handler.go] at step
    split at step
    · cases step
      exact ⟨inv, trivial⟩
    · cases step
      exact ⟨inv, own⟩
  | createBucketWrite bucket => cases step
  | createBucketCache name seen =>
    cases step
    exact ⟨inv.insert own, trivial⟩
  | deleteBucket name =>
    simp only [Handler.go] at step
    split at step
    · cases step
      exact ⟨inv, own⟩
    · cases step
      exact ⟨inv, trivial⟩
  | deleteBucketList name =>
    simp only [Handler.go] at step
    split at step
    · rename_i listed
      cases step
      exact ⟨inv, own, inv.sawEmpty own listed⟩
    · cases step
      exact ⟨inv, trivial⟩
  | deleteBucketWrite name seen => cases step
  | deleteBucketForget name =>
    cases step
    exact ⟨inv.remove name, trivial⟩
  | lock op =>
    cases op with
    | put o =>
      cases step
      exact ⟨inv, own⟩
    | delete bucket key =>
      cases step
      exact ⟨inv, own⟩
    | complete uploadId o =>
      cases step
      exact ⟨inv, own⟩
    | get bucket key =>
      cases step
      exact ⟨inv, own⟩
  | validateCache r =>
    simp only [Handler.go] at step
    split at step
    · rename_i seen entry
      cases step
      exact ⟨inv, BucketRequest.validated_inv own (inv.cache _ seen entry)⟩
    · cases step
      exact ⟨inv, own⟩
  | validateLook r =>
    simp only [Handler.go] at step
    split at step
    · rename_i found
      cases step
      exact ⟨inv, own, inv.sawBucket (BucketRequest.bucket_valid own) found⟩
    · cases step
      exact ⟨inv, trivial⟩
  | validateInsert r seen =>
    cases step
    exact ⟨inv.insert own.2, BucketRequest.validated_inv own.1 own.2⟩
  | initiateWrite w contentType =>
    cases step
    exact ⟨inv.upload _, trivial⟩
  | objectLook op =>
    simp only [Handler.go] at step
    split at step
    · cases step
      refine ⟨inv, own, ?_⟩
      intro seen never
      cases never
    · cases step
      exact ⟨inv, trivial⟩
  | objectWrite op seen => cases step
  | completeAbort w =>
    cases step
    exact ⟨inv.upload _, trivial⟩

theorem Handler.Inv.proposal {h : Handler} (own : h.Inv log) {p : BucketProposal}
    (writes : h.proposal = some p) : p.Inv log := by
  cases h with
  | createBucketWrite bucket =>
    cases writes
    exact own
  | deleteBucketWrite name seen =>
    cases writes
    exact ⟨own.1, seen, rfl, own.2⟩
  | objectWrite op seen =>
    cases op with
    | put o =>
      cases writes
      exact own
    | delete bucket key =>
      cases writes
      exact own.1
    | complete uploadId o =>
      cases writes
      exact own
    | get bucket key => cases writes
  | _ => cases writes

/-- What a proposed command is on. -/
theorem BucketProposal.Inv.valid {p : BucketProposal} (inv : p.Inv log) :
    (catalogOp 0 p.command).Valid := by
  obtain ⟨command, seen⟩ := p
  cases command with
  | createBucket b => exact inv
  | deleteBucket name => exact inv.1
  | putObjectMetadata o => exact inv.1
  | deleteObjectMetadata bucket key => exact inv
  | acquireLock bucket key lockType holder => trivial
  | releaseLock bucket key holder => trivial

/-- A created bucket is there right after its entry. -/
theorem Handler.goesOn_answered {h : Handler} {p : BucketProposal} (writes : h.proposal = some p)
    {entry : Nat} (logged : log[entry]? = some p.command) : GoesOn log (h.answered entry) := by
  cases h with
  | createBucketWrite b =>
    cases writes
    obtain ⟨bound, -⟩ := List.getElem?_eq_some_iff.1 logged
    refine ⟨bound, ?_⟩
    rw [List.take_add_one, logged]
    simp [hasBucket, bucketThere]
  | objectWrite op seen => cases op <;> trivial
  | _ => trivial

end

/-! ## Runs -/

section

variable {sys sys' : BucketSystem}

theorem BucketSystem.Inv.setNode (inv : sys.Inv) {node : NodeId} {n : BucketNode}
    (own : n.Inv sys.log) : (sys.setNode node n).Inv where
  named := inv.named
  intact := inv.intact
  nodes node' := by
    by_cases same : node' = node
    · subst same
      simp only [BucketSystem.setNode, Function.update_self]
      exact own
    · simp only [BucketSystem.setNode, Function.update_of_ne same]
      exact inv.nodes node'
  tasks := inv.tasks
  inFlight := inv.inFlight

theorem BucketSystem.Inv.setTasks (inv : sys.Inv) {i next : Nat} {task : Option (NodeId × Handler)}
    (own : ∀ node h, task = some (node, h) → h.Inv sys.log) :
    BucketSystem.Inv { sys with tasks := Function.update sys.tasks i task, next } where
  named := inv.named
  intact := inv.intact
  nodes := inv.nodes
  tasks j node h there := by
    by_cases same : j = i
    · subst same
      simp only [Function.update_self] at there
      exact own node h there
    · simp only [Function.update_of_ne same] at there
      exact inv.tasks j node h there
  inFlight := inv.inFlight

theorem BucketSystem.Inv.resume (inv : sys.Inv) {i : Nat} {node : NodeId} {h : Option Handler}
    (own : GoesOn sys.log h) : (sys.resume i node h).Inv := by
  refine inv.setTasks fun node' h' same => ?_
  cases h with
  | none => cases same
  | some h =>
    cases same
    exact own

/-- The log grows by a command that leaves it intact. -/
theorem BucketSystem.Inv.append (inv : sys.Inv) {c : Command} (valid : (catalogOp 0 c).Valid)
    (intact : Intact (sys.log ++ [c])) {inFlight : List BucketProposal}
    (fewer : ∀ p ∈ inFlight, p ∈ sys.inFlight) :
    BucketSystem.Inv { sys with log := sys.log ++ [c], inFlight } where
  named c' member := by
    rcases List.mem_append.1 member with member | member
    · exact inv.named c' member
    · rw [List.mem_singleton] at member
      subst member
      exact valid
  intact := intact
  nodes node := (inv.nodes node).append c
  tasks i node h there := (inv.tasks i node h there).append c
  inFlight p member := (inv.inFlight p (fewer p member)).append c

theorem BucketCall.inv {call : BucketCall} (accepted : call.accepted = true) (log : List Command) :
    call.handler.Inv log := by
  cases call with
  | createBucket name =>
    show ValidBucket name
    exact of_decide_eq_true accepted
  | deleteBucket name =>
    show ValidBucket name
    exact of_decide_eq_true accepted
  | object op =>
    obtain ⟨bucket, key⟩ := Bool.and_eq_true_iff.1 accepted
    exact ⟨of_decide_eq_true bucket, of_decide_eq_true key⟩
  | initiate w contentType =>
    obtain ⟨bucket, -⟩ := Bool.and_eq_true_iff.1 accepted
    show ValidBucket w.bucket
    exact of_decide_eq_true bucket

theorem BucketSystem.Inv.step (inv : sys.Inv) {event : BucketEvent} (checks : ChecksHold sys event)
    (step : sys.step event = some sys') : sys'.Inv := by
  cases event with
  | call node call =>
    simp only [BucketSystem.step] at step
    split at step
    · rename_i accepted
      cases step
      refine inv.setTasks fun node' h same => ?_
      cases same
      exact BucketCall.inv accepted _
    · cases step
  | go i now =>
    obtain ⟨⟨node, h⟩, found, step⟩ := Option.bind_eq_some_iff.1 step
    obtain ⟨⟨n, h'⟩, went, step⟩ := Option.bind_eq_some_iff.1 step
    cases step
    obtain ⟨own, next⟩ := (inv.tasks i node h found).go (inv.nodes node) went
    exact (inv.setNode own).resume next
  | propose i =>
    obtain ⟨⟨node, h⟩, found, step⟩ := Option.bind_eq_some_iff.1 step
    obtain ⟨p, writes, step⟩ := Option.bind_eq_some_iff.1 step
    cases step
    refine ⟨inv.named, inv.intact, inv.nodes, inv.tasks, fun p' member => ?_⟩
    rcases List.mem_append.1 member with member | member
    · exact inv.inFlight p' member
    · rw [List.mem_singleton] at member
      subst member
      exact (inv.tasks i node h found).proposal writes
  | answered i entry =>
    obtain ⟨⟨node, h⟩, found, step⟩ := Option.bind_eq_some_iff.1 step
    obtain ⟨p, writes, step⟩ := Option.bind_eq_some_iff.1 step
    split at step
    · rename_i applied
      cases step
      exact inv.resume (Handler.goesOn_answered writes applied.2)
    · cases step
  | fail i =>
    obtain ⟨⟨node, h⟩, -, step⟩ := Option.bind_eq_some_iff.1 step
    cases step
    exact inv.resume trivial
  | commit j =>
    obtain ⟨p, found, step⟩ := Option.bind_eq_some_iff.1 step
    cases step
    have own := inv.inFlight p (List.mem_of_getElem? found)
    exact inv.append own.valid ((checks p found).intact own inv.intact)
      fun p' member => List.mem_of_mem_eraseIdx member
  | lose j =>
    obtain ⟨p, -, step⟩ := Option.bind_eq_some_iff.1 step
    cases step
    exact ⟨inv.named, inv.intact, inv.nodes, inv.tasks,
      fun p' member => inv.inFlight p' (List.mem_of_mem_eraseIdx member)⟩
  | apply node now =>
    obtain ⟨c, next, step⟩ := Option.bind_eq_some_iff.1 step
    split at step
    · rename_i ws applied
      cases step
      refine inv.setNode ((inv.nodes node).apply next ?_ applied)
      exact inv.named c (List.mem_of_getElem? next)
    · cases step
  | lock op =>
    cases step
    have free : BucketProposal.Inv sys.log ⟨op.command, none⟩ ∧
        BucketProposal.Holds sys.log ⟨op.command, none⟩ := by
      cases op with
      | acquire bucket key lockType holder => exact ⟨trivial, trivial⟩
      | release bucket key holder => exact ⟨trivial, trivial⟩
    exact inv.append free.1.valid (free.2.intact free.1 inv.intact) fun _ member => member
  | upload node op =>
    cases step
    exact inv.setNode ((inv.nodes node).upload op)
  | expire node bucket =>
    cases step
    exact inv.setNode ((inv.nodes node).remove bucket)

end

theorem BucketSystem.start_inv : BucketSystem.start.Inv where
  named c member := by cases member
  intact q bucket key there := by
    rw [show BucketSystem.start.log.take q = [] from List.take_nil] at there
    cases there
  nodes node := by
    refine ⟨le_rfl, ?_, ?_⟩
    · exact ⟨Catalog.empty, Catalog.StoredIn.empty, fun name => rfl, fun bucket key => rfl⟩
    · intro name seen entry
      cases entry
  tasks i node h there := by cases there
  inFlight p member := by cases member

/-- **Referential integrity.** In every run in which each check still holds when its command
enters the log, every object record has the record of its bucket, on every node. -/
theorem bucket_integrity (events : List BucketEvent) {sys : BucketSystem}
    (checks : Along BucketSystem.step ChecksHold BucketSystem.start events)
    (ran : exec BucketSystem.step BucketSystem.start events = some sys) : sys.Integrity := by
  have inv : sys.Inv :=
    exec_invariant (fun _ _ _ inv checks step => inv.step checks step) BucketSystem.start_inv checks ran
  exact inv.integrity

def strayObject : ObjectMetadata := ⟨"abc", "k", 1, "e", none, 0, 0, []⟩

/-- A bucket is created and an object put into it. -/
def putRun : List BucketEvent :=
  [.call 1 (.createBucket "abc"), .go 0 0, .propose 0, .commit 0, .apply 1 0,
    .call 1 (.object (.put strayObject)), .go 1 0, .go 1 0, .go 1 0, .go 1 0, .propose 1, .commit 0,
    .apply 1 0]

theorem putRun_integrity :
    ∃ sys, exec BucketSystem.step BucketSystem.start putRun = some sys ∧
      (sys.nodes 1).db.get (objectDbKey "abc" "k") = some (.object strayObject) ∧ sys.Integrity := by
  refine ⟨_, rfl, rfl, bucket_integrity putRun ?_ rfl⟩
  -- only the two commits have something to check
  repeat (refine ⟨trivial, ?_⟩; rintro _ ⟨⟩)
  refine ⟨?_, ?_⟩
  · rintro p ⟨⟩
    trivial
  rintro _ ⟨⟩
  repeat (refine ⟨trivial, ?_⟩; rintro _ ⟨⟩)
  refine ⟨?_, fun _ _ => ⟨trivial, fun _ _ => trivial⟩⟩
  rintro p ⟨⟩
  rfl

/-- The bucket is deleted between a put's check and its command. -/
def deleteRun : List BucketEvent :=
  [.call 1 (.createBucket "abc"), .go 0 0, .propose 0, .commit 0, .apply 1 0,
    .call 1 (.object (.put strayObject)), .go 1 0, .go 1 0, .go 1 0, .go 1 0,
    .call 1 (.deleteBucket "abc"), .go 2 0, .go 2 0, .propose 2, .commit 0, .apply 1 0,
    .propose 1, .commit 0, .apply 1 0]

theorem put_into_deleted_bucket :
    ∃ sys, exec BucketSystem.step BucketSystem.start deleteRun = some sys ∧ ¬ sys.Integrity := by
  refine ⟨_, rfl, fun integrity => ?_⟩
  obtain ⟨o, b, same, there⟩ :=
    integrity 1 (objectDbKey "abc" "k") (.object strayObject) rfl (by decide)
  cases same
  cases there

end Save.Api
