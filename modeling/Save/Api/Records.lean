import Save.Api.Objects
import Save.Metadata.Refinement

/-!
# Object records and commands

An object's record is stored under its storage key (`object.rs`, `keys.rs`). Only
the two object commands change it; what is there after a command was there before,
or is what the command put.
-/

namespace Save.Api
set_option autoImplicit false
open Save.Text Save.Kv Save.Common Save.Metadata

/-- The key of the record of a storage key. -/
def recordKey (key : String) : String := "obj:" ++ key

theorem objectDbKey_eq (bucket key : String) :
    objectDbKey bucket key = recordKey (storageKey bucket key) := by
  simp only [objectDbKey, recordKey, storageKey, String.append_assoc]

theorem recordKey_startsWith (key : String) : startsWith (recordKey key) objectPrefix = true :=
  startsWith_append _ _

/-- The command writes the record of the storage key. -/
def Puts (command : Command) (key : String) : Prop :=
  ∃ metadata, command = .putObjectMetadata metadata ∧
    storageKey metadata.bucket metadata.key = key

def isObjectCommand : Command → Bool
  | .putObjectMetadata _ => true
  | .deleteObjectMetadata _ _ => true
  | _ => false

section Commands

variable {now : DateTime} {db : Store Value} {command : Command} {ws : List (Write Value)}

/-- A record after a command is what the command put, or was there before it. -/
theorem record_of_apply (call : applyCommand now db command = .ok ws) {key : String} {v : Value}
    (there : (applyAll db ws).get (recordKey key) = some v) :
    (∃ metadata, command = .putObjectMetadata metadata ∧
      storageKey metadata.bucket metadata.key = key ∧ v = .object metadata) ∨
    (¬ Puts command key ∧ db.get (recordKey key) = some v) := by
  obtain ⟨v', act, -, sets⟩ := applyCommand_sets call
  rw [sets] at there
  by_cases same : command.cell = recordKey key
  · rw [if_pos same] at there
    subst there
    cases command with
    | putObjectMetadata metadata =>
      simp only [cellAct] at act
      split at act
      · cases act
        rw [Command.cell, objectDbKey_eq] at same
        exact .inl ⟨metadata, rfl, append_right_inj same, rfl⟩
      · cases act
    | deleteObjectMetadata bucket key' =>
      simp only [cellAct] at act
      split at act <;> cases act
    | createBucket bucket =>
      exact absurd same (ne_of_startsWith (by decide) (by decide) (bucketKey_startsWith _)
        (recordKey_startsWith key))
    | deleteBucket name =>
      exact absurd same (ne_of_startsWith (by decide) (by decide) (bucketKey_startsWith _)
        (recordKey_startsWith key))
    | acquireLock bucket key' lockType holder =>
      exact absurd same (ne_of_startsWith (by decide) (by decide) (lockKey_startsWith _ _)
        (recordKey_startsWith key))
    | releaseLock bucket key' holder =>
      exact absurd same (ne_of_startsWith (by decide) (by decide) (lockKey_startsWith _ _)
        (recordKey_startsWith key))
  · rw [if_neg same] at there
    refine .inr ⟨?_, there⟩
    rintro ⟨metadata, rfl, rfl⟩
    exact same (objectDbKey_eq _ _)

theorem puts_of_apply (call : applyCommand now db command = .ok ws) {key : String} {v : Value}
    (there : (applyAll db ws).get (recordKey key) = some v) :
    Puts command key ∨ db.get (recordKey key) = some v := by
  obtain ⟨metadata, put, same, -⟩ | ⟨-, old⟩ := record_of_apply call there
  · exact .inl ⟨metadata, put, same⟩
  · exact .inr old

theorem no_record_of_apply {bucket key : String}
    (call : applyCommand now db (.deleteObjectMetadata bucket key) = .ok ws) :
    (applyAll db ws).get (recordKey (storageKey bucket key)) = none := by
  obtain ⟨v, act, -, sets⟩ := applyCommand_sets call
  simp only [cellAct] at act
  split at act
  · cases act
    rw [sets, ← objectDbKey_eq, Command.cell, if_pos rfl]
  · cases act

end Commands

end Save.Api
