import PokemonServer.GameService
import PokemonServer.RoomKeys

/-!
# GetAllRoomSnapshots executed alone

Without other commands in between, the SCAN loop visits the keys of the pages it
is given, and the result is read off the contents.
-/

namespace PokemonServer
open Interleaving RedisClient

def scannedKeys (scanPage : ScanPolicy) (s : Store) : ℕ → ℕ → Option (List String)
  | 0, _ => none
  | fuel + 1, cursor =>
    if (scanPage s cursor).2 = 0 then some (scanPage s cursor).1
    else (scannedKeys scanPage s fuel (scanPage s cursor).2).map ((scanPage s cursor).1 ++ ·)

def ScansOnce (scanPage : ScanPolicy) : Prop :=
  ∀ s, ∃ fuel keys, scannedKeys scanPage s fuel 0 = some keys ∧
    (keys.filter isRoomKey).Perm (s.keys.filter isRoomKey)

theorem scannedKeys_mono {scanPage : ScanPolicy} {s : Store} {fuel cursor : ℕ}
    {keys : List String} (h : scannedKeys scanPage s fuel cursor = some keys) (more : ℕ) :
    scannedKeys scanPage s (fuel + more) cursor = some keys := by
  induction fuel generalizing cursor keys with
  | zero => cases h
  | succ fuel ih =>
    rw [Nat.succ_add]
    simp only [scannedKeys] at h ⊢
    split at h
    · rename_i hzero
      rw [if_pos hzero]
      exact h
    · rename_i hzero
      rw [if_neg hzero]
      obtain ⟨rest, hrest, rfl⟩ := Option.map_eq_some_iff.mp h
      rw [ih hrest]
      rfl

def snapshotOf (s : Store) (key : String) : Option (String × String) :=
  if isCommandKey key then none
  else
    match s.lookup (cstr key) with
    | some (.string value) => some (key, value)
    | _ => none

variable {scanPage : ScanPolicy}

theorem Store.backend_command (cmd : Command) (s : Store) :
    (Store.backend scanPage).exec (.command cmd) s =
      (some (Store.exec scanPage cmd s).1, (Store.exec scanPage cmd s).2) := rfl

theorem Store.backend_scan (cursor : ℕ) (s : Store) :
    (Store.backend scanPage).exec (.command (.scan cursor "pokemon:room:*" 128)) s =
      (some (.array [.string (toString (scanPage s cursor).2),
        .array (((scanPage s cursor).1.filter isRoomKey).map .string)]), s) := rfl

theorem snapshotOf_fst {s : Store} {key : String} {pair : String × String}
    (h : snapshotOf s key = some pair) : pair.1 = key := by
  unfold snapshotOf at h
  split at h
  · cases h
  · split at h
    · cases h
      rfl
    · cases h

theorem snapshotOf_eq_some_iff {s : Store} {key value : String} :
    snapshotOf s key = some (key, value) ↔
      isCommandKey key = false ∧ s.lookup (cstr key) = some (.string value) := by
  unfold snapshotOf
  cases isCommandKey key with
  | true => simp
  | false =>
    simp only [Bool.false_eq_true, if_false, true_and]
    cases s.lookup (cstr key) with
    | none => simp
    | some stored => cases stored <;> simp

section visit
variable {β : Type} (visit : String → String → β → Client β) (keys : List Reply) (acc : β)
  {s : Store} {key value : String}

theorem visitKeys_cons_of_some (h : snapshotOf s key = some (key, value)) :
    (visitKeys visit (.string key :: keys) acc).run (Store.backend scanPage).exec s =
      (visit key value acc >>= visitKeys visit keys).run (Store.backend scanPage).exec s := by
  obtain ⟨hcommand, hlookup⟩ := snapshotOf_eq_some_iff.mp h
  have hget : Store.exec scanPage (.get (cstr key)) s = (.string value, s) := by
    simp only [Store.exec, hlookup]
  rw [visitKeys, if_neg (Bool.eq_false_iff.mp hcommand), redisCommand, Prog.op_bind,
    Prog.run_call, Store.backend_command, hget]

theorem visitKeys_cons_of_none (h : snapshotOf s key = none) :
    (visitKeys visit (.string key :: keys) acc).run (Store.backend scanPage).exec s =
      (visitKeys visit keys acc).run (Store.backend scanPage).exec s := by
  rw [visitKeys]
  split
  · rfl
  · rename_i hcommand
    rw [snapshotOf, if_neg hcommand] at h
    rw [redisCommand, Prog.op_bind, Prog.run_call, Store.backend_command]
    cases hlookup : s.lookup (cstr key) with
    | none =>
      have hget : Store.exec scanPage (.get (cstr key)) s = (.nil, s) := by
        simp only [Store.exec, hlookup]
      rw [hget]
    | some stored =>
      cases stored with
      | set members =>
        have hget : Store.exec scanPage (.get (cstr key)) s = (wrongType, s) := by
          simp only [Store.exec, hlookup]
        rw [hget]
        rfl
      | string value =>
        rw [hlookup] at h
        cases h

end visit

theorem visitKeys_run (s : Store) (keys : List String) (acc : List (String × String)) :
    (visitKeys collectSnapshot (keys.map .string) acc).run (Store.backend scanPage).exec s =
      (acc ++ keys.filterMap (snapshotOf s), s) := by
  induction keys generalizing acc with
  | nil => simp [visitKeys]
  | cons key keys ih =>
    rw [List.map_cons, List.filterMap_cons]
    cases hkey : snapshotOf s key with
    | none =>
      rw [visitKeys_cons_of_none _ _ _ hkey]
      exact ih acc
    | some pair =>
      obtain ⟨key', value⟩ := pair
      obtain rfl : key' = key := snapshotOf_fst hkey
      rw [visitKeys_cons_of_some _ _ _ hkey, List.append_cons]
      exact ih _

theorem scanRooms_run (s : Store) (fuel cursor : ℕ) (acc : List (String × String)) :
    (scanRooms collectSnapshot fuel cursor acc).run (Store.backend scanPage).exec s =
      ((scannedKeys scanPage s fuel cursor).map fun keys =>
        acc ++ (keys.filter isRoomKey).filterMap (snapshotOf s), s) := by
  induction fuel generalizing cursor acc with
  | zero => rfl
  | succ fuel ih =>
    rw [scanRooms_turn _ _ _ (Store.backend_scan cursor s), visitKeys_run, scannedKeys]
    by_cases hzero : (scanPage s cursor).2 = 0
    · simp only [if_pos hzero]
      rfl
    · simp only [if_neg hzero]
      rw [ih]
      cases scannedKeys scanPage s fuel (scanPage s cursor).2 with
      | none => rfl
      | some rest =>
        simp only [Option.map_some, List.filter_append, List.filterMap_append, List.append_assoc]

theorem getAllRoomSnapshots_run (s : Store) (fuel : ℕ) :
    (getAllRoomSnapshots fuel).run (Store.backend scanPage).exec s =
      ((scannedKeys scanPage s fuel 0).map fun keys =>
        (keys.filter isRoomKey).filterMap (snapshotOf s), s) :=
  scanRooms_run s fuel 0 []

end PokemonServer
