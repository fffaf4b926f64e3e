import PokemonServer.GameService
import PokemonServer.RoomKeys

/-!
# What DeleteRoomData deletes

SetRoomData sends its key with its length. DeleteRoomData sends two C strings, the
room's key and its command key, both in the name space of the rooms. Which rooms'
snapshots it deletes is therefore a question about the ids.
-/

namespace PokemonServer
open RedisClient

theorem cstr_eq_self_iff {s : String} : cstr s = s ↔ '\x00' ∉ s.toList := by
  constructor
  · intro h
    rw [← h]
    exact not_mem_cstr s
  · exact cstr_of_noNul

theorem cstr_append_command_ne (r : String) : cstr (r ++ ":command") ≠ r := by
  intro h
  have hr : '\x00' ∉ r.toList := by
    rw [← h]
    exact not_mem_cstr _
  rw [cstr_append hr] at h
  have hlength := congrArg (fun s => s.toList.length) h
  simp [cstr] at hlength

theorem deletedKeys_eq (r : String) :
    deletedKeys r = [roomKey (cstr r), roomKey (cstr (r ++ ":command"))] := by
  have hprefix : '\x00' ∉ "pokemon:room:".toList := by decide
  rw [deletedKeys, commandKey, roomKey, String.append_assoc, cstr_append hprefix,
    cstr_append hprefix, roomKey, roomKey]

theorem mem_deletedKeys {r s : String} :
    roomKey s ∈ deletedKeys r ↔ s = cstr r ∨ s = cstr (r ++ ":command") := by
  rw [deletedKeys_eq, List.mem_cons, List.mem_singleton, roomKey_injective.eq_iff,
    roomKey_injective.eq_iff]

theorem own_mem_deletedKeys {r : String} : roomKey r ∈ deletedKeys r ↔ '\x00' ∉ r.toList := by
  rw [mem_deletedKeys, ← cstr_eq_self_iff, eq_comm]
  exact or_iff_left (cstr_append_command_ne r).symm

section store
variable (scanPage : ScanPolicy)

def afterSetRoomData (write : String × String) (store : Store) : Store :=
  ((setRoomData write.1 write.2).run (Store.backend scanPage).exec store).2

def afterDeleteRoomData (r : String) (store : Store) : Store :=
  ((deleteRoomData r).run (Store.backend scanPage).exec store).2

def afterWrites (writes : List (String × String)) : Store :=
  writes.foldl (fun store write => afterSetRoomData scanPage write store) ∅

theorem afterSetRoomData_eq (write : String × String) (store : Store) :
    afterSetRoomData scanPage write store = store.insert (roomKey write.1) (.string write.2) := rfl

theorem lookup_afterDeleteRoomData (r : String) (store : Store) (key : String) :
    (afterDeleteRoomData scanPage r store).lookup key =
      if key ∈ deletedKeys r then none else store.lookup key :=
  Store.lookup_delKeys (deletedKeys r) store key

theorem mem_foldl_afterSetRoomData (writes : List (String × String)) (store : Store) (r : String) :
    roomKey r ∈ writes.foldl (fun store write => afterSetRoomData scanPage write store) store ↔
      r ∈ writes.map Prod.fst ∨ roomKey r ∈ store := by
  induction writes generalizing store with
  | nil => simp
  | cons write writes ih =>
    rw [List.foldl_cons, ih, afterSetRoomData_eq, AList.mem_insert, roomKey_injective.eq_iff,
      List.map_cons, List.mem_cons]
    tauto

theorem mem_afterWrites (writes : List (String × String)) (r : String) :
    roomKey r ∈ afterWrites scanPage writes ↔ r ∈ writes.map Prod.fst := by
  rw [afterWrites, mem_foldl_afterSetRoomData]
  exact or_iff_left (AList.notMem_empty _)

/-- DeleteRoomData of `r` removes the key of `r` and spares the key of `s`. -/
def DeletesOwnOnly (store : Store) (r s : String) : Prop :=
  roomKey r ∉ afterDeleteRoomData scanPage r store ∧
    (afterDeleteRoomData scanPage r store).lookup (roomKey s) = store.lookup (roomKey s)

theorem own_key_removed_iff (store : Store) (r : String) :
    roomKey r ∉ afterDeleteRoomData scanPage r store ↔
      (roomKey r ∈ store → '\x00' ∉ r.toList) := by
  rw [← AList.lookup_eq_none, lookup_afterDeleteRoomData, ← own_mem_deletedKeys]
  by_cases hown : roomKey r ∈ deletedKeys r
  · simp [hown]
  · simp [hown, AList.lookup_eq_none]

theorem other_key_spared_iff (store : Store) (r s : String) :
    (afterDeleteRoomData scanPage r store).lookup (roomKey s) = store.lookup (roomKey s) ↔
      (roomKey s ∈ store → s ≠ cstr r ∧ s ≠ cstr (r ++ ":command")) := by
  rw [lookup_afterDeleteRoomData, ← not_or, ← mem_deletedKeys]
  by_cases hother : roomKey s ∈ deletedKeys r
  · rw [if_pos hother, eq_comm, AList.lookup_eq_none]
    simp [hother]
  · simp [hother]

/-- Destroying `r` deletes its own snapshot and spares that of `s` exactly when `r`,
if written, has no NUL and `s`, if written, is neither `r` up to its first NUL nor
the id that makes its key the command key of `r`. -/
theorem deletesOwnOnly_iff (writes : List (String × String)) (r s : String) :
    DeletesOwnOnly scanPage (afterWrites scanPage writes) r s ↔
      (r ∈ writes.map Prod.fst → '\x00' ∉ r.toList) ∧
        (s ∈ writes.map Prod.fst → s ≠ cstr r ∧ s ≠ cstr (r ++ ":command")) := by
  rw [DeletesOwnOnly, own_key_removed_iff, other_key_spared_iff, mem_afterWrites, mem_afterWrites]

end store

open Sample in
theorem destroy_deletes_another_snapshot :
    ¬ DeletesOwnOnly scanAll (afterWrites scanAll [("r", "battle"), ("r:command", "other")])
        "r" "r:command" ∧
      ¬ DeletesOwnOnly scanAll (afterWrites scanAll [("r\x00s", "battle"), ("r", "other")])
        "r\x00s" "r" := by
  constructor
  · rintro ⟨-, hspared⟩
    revert hspared
    decide +kernel
  · rintro ⟨hremoved, -⟩
    revert hremoved
    decide +kernel

end PokemonServer
