import PokemonServer.CleanupRaces
import PokemonServer.ScanPages

/-!
# DeleteRoomsForServer page by page

The cleanup deletes from the key space that it scans. It is exact whatever the pages
are: a room's key is never deleted as the command key of another room, so an owned key
is there until it is visited, and a visit after that finds nothing.
-/

namespace PokemonServer
open Interleaving RedisClient

def Owned (text : JsonText) (podIp : String) (s : Store) (key : String) : Prop :=
  ∃ value j, Listed s key value ∧ text.parse value = .ok j ∧
    j.field? "server_id" = some (.string podIp)

variable {text : JsonText} {podIp : String} {s : Store}

theorem ownedValue_iff {value : String} : ownedValue text podIp value = true ↔
    ∃ j, text.parse value = .ok j ∧ j.field? "server_id" = some (.string podIp) := by
  rw [ownedValue]
  cases text.parse value with
  | error exn => simp
  | ok j =>
    simp only [Except.ok.injEq, exists_eq_left', ownedBy]
    split
    · rename_i serverId hserver
      simp [hserver]
    · rename_i hother
      refine iff_of_false (fun h => by cases h) (hother podIp)

theorem owned_iff {key : String} : Owned text podIp s key ↔
    ∃ value, Listed s key value ∧ ownedValue text podIp value = true := by
  constructor
  · rintro ⟨value, j, hlisted, hparse, hserver⟩
    exact ⟨value, hlisted, ownedValue_iff.mpr ⟨j, hparse, hserver⟩⟩
  · rintro ⟨value, hlisted, howned⟩
    obtain ⟨j, hparse, hserver⟩ := ownedValue_iff.mp howned
    exact ⟨value, j, hlisted, hparse, hserver⟩

theorem Owned.mem {key : String} (h : Owned text podIp s key) : key ∈ s := by
  obtain ⟨value, j, hlisted, -⟩ := h
  exact Store.mem_of_lookup hlisted.stored

theorem Owned.ne_commandKey {key : String} (h : Owned text podIp s key) (other : String) :
    key ≠ commandKey other := by
  rintro rfl
  obtain ⟨value, j, hlisted, -⟩ := h
  have hnot := hlisted.notCommand
  rw [isCommandKey_commandKey] at hnot
  cases hnot

def Removed (text : JsonText) (podIp : String) (s : Store) (keys : List String) (k : String) :
    Prop :=
  ∃ key ∈ keys, Owned text podIp s key ∧ (k = key ∨ k = commandKey key)

structure Cleaned (text : JsonText) (podIp : String) (s : Store) (keys : List String)
    (st : Bool × Store) : Prop where
  removed : ∀ k, Removed text podIp s keys k → st.2.lookup k = none
  kept : ∀ k, ¬ Removed text podIp s keys k → st.2.lookup k = s.lookup k
  anyDeleted : st.1 = true ↔ ∃ key ∈ keys, Owned text podIp s key

section visit
variable {keys : List String} {key : String} {st : Bool × Store}

theorem removed_append {k : String} : Removed text podIp s (keys ++ [key]) k ↔
    Removed text podIp s keys k ∨
      Owned text podIp s key ∧ (k = key ∨ k = commandKey key) := by
  simp only [Removed, List.mem_append, List.mem_singleton, or_and_right, exists_or,
    exists_eq_left]

theorem Owned.removed_iff (h : Owned text podIp s key) :
    Removed text podIp s keys key ↔ key ∈ keys := by
  constructor
  · rintro ⟨other, hmem, -, hsame | hcommand⟩
    · exact hsame ▸ hmem
    · exact absurd hcommand (h.ne_commandKey other)
  · intro hmem
    exact ⟨key, hmem, h, Or.inl rfl⟩

theorem Cleaned.init (text : JsonText) (podIp : String) (s : Store) :
    Cleaned text podIp s [] (false, s) := by
  refine ⟨?_, fun k _ => rfl, ?_⟩
  · rintro k ⟨key, hmem, -⟩
    cases hmem
  · refine iff_of_false (fun h => by cases h) ?_
    rintro ⟨key, hmem, -⟩
    cases hmem

theorem Cleaned.same (h : Cleaned text podIp s keys st)
    (hkey : Owned text podIp s key → key ∈ keys) : Cleaned text podIp s (keys ++ [key]) st := by
  have hremoved : ∀ k, Removed text podIp s (keys ++ [key]) k ↔ Removed text podIp s keys k := by
    intro k
    rw [removed_append, or_iff_left_iff_imp]
    rintro ⟨howned, hk⟩
    exact ⟨key, hkey howned, howned, hk⟩
  refine ⟨fun k hk => h.removed k ((hremoved k).mp hk),
    fun k hk => h.kept k (mt (hremoved k).mpr hk), h.anyDeleted.trans ?_⟩
  constructor
  · rintro ⟨other, hmem, howned⟩
    exact ⟨other, List.mem_append_left _ hmem, howned⟩
  · rintro ⟨other, hmem, howned⟩
    rcases List.mem_append.mp hmem with hmem | hmem
    · exact ⟨other, hmem, howned⟩
    · obtain rfl := List.mem_singleton.mp hmem
      exact ⟨other, hkey howned, howned⟩

theorem Cleaned.delete (h : Cleaned text podIp s keys st) (howned : Owned text podIp s key) :
    Cleaned text podIp s (keys ++ [key])
      (true, (Store.delKeys [key, commandKey key] st.2).2) := by
  have hmem : ∀ k, k ∈ [key, commandKey key] ↔ k = key ∨ k = commandKey key := by simp
  refine ⟨?_, ?_, ?_⟩
  · intro k hk
    rw [Store.lookup_delKeys]
    rcases removed_append.mp hk with hold | ⟨-, hnew⟩
    · rw [h.removed k hold, ite_self]
    · rw [if_pos ((hmem k).mpr hnew)]
  · intro k hk
    rw [removed_append, not_or] at hk
    rw [Store.lookup_delKeys, if_neg fun hin => hk.2 ⟨howned, (hmem k).mp hin⟩]
    exact h.kept k hk.1
  · refine iff_of_true rfl ⟨key, ?_, howned⟩
    exact List.mem_append_right _ List.mem_cons_self

theorem Cleaned.visit (h : Cleaned text podIp s keys st) (hroom : isRoomKey key = true)
    (hnul : '\x00' ∉ key.toList) :
    Cleaned text podIp s (keys ++ [key]) (cleanKey text podIp st key) := by
  have hcommand : '\x00' ∉ (commandKey key).toList := by
    simp [commandKey, hnul]
  have hlisted : ∀ value, ¬ Removed text podIp s keys key →
      (snapshotOf st.2 key = some (key, value) ↔ Listed s key value) := by
    intro value hremoved
    exact (snapshotOf_eq_some hroom hnul).trans (listed_congr (h.kept key hremoved))
  rcases cleanKey_cases text podIp st key with ⟨hsame, hforeign⟩ | ⟨value, hvalue, howned, hdeleted⟩
  · rw [hsame]
    refine h.same fun howned => ?_
    by_contra hnew
    obtain ⟨value, hkey, hvalue⟩ := owned_iff.mp howned
    have hnot := hforeign value ((hlisted value (mt howned.removed_iff.mp hnew)).mpr hkey)
    rw [hvalue] at hnot
    cases hnot
  · have hremoved : ¬ Removed text podIp s keys key := by
      intro hgone
      have hlookup := (snapshotOf_eq_some_iff.mp hvalue).2
      rw [cstr_of_noNul hnul, h.removed key hgone] at hlookup
      cases hlookup
    rw [hdeleted, cstr_of_noNul hnul, cstr_of_noNul hcommand]
    exact h.delete (owned_iff.mpr ⟨value, (hlisted value hremoved).mp hvalue, howned⟩)

theorem cleaned_foldl (text : JsonText) (podIp : String) (s : Store) (keys : List String)
    (hkeys : ∀ key ∈ keys, isRoomKey key = true ∧ '\x00' ∉ key.toList) :
    Cleaned text podIp s keys (keys.foldl (cleanKey text podIp) (false, s)) := by
  induction keys using List.reverseRecOn with
  | nil => exact .init text podIp s
  | append_singleton keys key ih =>
    rw [List.foldl_append]
    have hkey := hkeys key (List.mem_append_right _ List.mem_cons_self)
    exact (ih fun key hmem => hkeys key (List.mem_append_left _ hmem)).visit hkey.1 hkey.2

end visit

variable {pages : ScanPages} {last : ℕ}

theorem visits_visitOwned (text : JsonText) (podIp : String) :
    Visits (visitOwned text podIp) fun keys st => keys.foldl (cleanKey text podIp) st where
  run _ keys st := visitOwned_keys_run keys st.1 st.2
  issues key value anyDeleted := by
    unfold visitOwned
    split
    · split
      · exact ⟨trivial, fun _ => trivial⟩
      · trivial
    · trivial

theorem afterPages_cleanKey (text : JsonText) (podIp : String) (st : Bool × Store) (n : ℕ) :
    afterPages pages (fun keys st => keys.foldl (cleanKey text podIp) st) st n =
      (pages.keys n).foldl (cleanKey text podIp) st := by
  induction n with
  | zero => rfl
  | succ n ih => rw [afterPages, ih, ScanPages.keys_succ, List.foldl_append]

/-- The contents that the SCAN after the first n pages finds: a cleanup that is cut off
there leaves them. -/
def storeAt (text : JsonText) (podIp : String) (pages : ScanPages) (s : Store) (n : ℕ) : Store :=
  ((deleteRoomsForServer text podIp n).run (Store.paged pages).exec (s, 0)).2.1

theorem storeAt_eq (hscan : pages.EndsAt last) {n : ℕ} (hn : n ≤ last) :
    storeAt text podIp pages s n =
      ((pages.keys n).foldl (cleanKey text podIp) (false, s)).2 := by
  have hrun := scanRooms_cutOff (visits_visitOwned text podIp) hscan.goes (false, s) n 0 (by omega)
  rw [Nat.zero_add, afterPages_cleanKey text podIp (false, s) n] at hrun
  exact congrArg (fun r => r.2.1) hrun

theorem mem_of_mem_storeAt (hscan : pages.EndsAt last) {n : ℕ} (hn : n ≤ last) {key : String}
    (h : key ∈ storeAt text podIp pages s n) : key ∈ s := by
  rw [storeAt_eq hscan hn] at h
  have hkept := lookup_cleanKeys text podIp key (false, s) (pages.keys n)
  exact (Store.mem_congr (Store.lookup_of_kept hkept h)).mp h

section owned
variable (hnul : ∀ key ∈ s, '\x00' ∉ key.toList)
  (hscan : pages.Allowed (storeAt text podIp pages s) last)
include hnul hscan

theorem cleaned_pages {n : ℕ} (hn : n ≤ last + 1) :
    Cleaned text podIp s (pages.keys n)
      ((pages.keys n).foldl (cleanKey text podIp) (false, s)) := by
  refine cleaned_foldl text podIp s _ fun key hkey => ⟨ScanPages.isRoomKey_of_mem_keys hkey, ?_⟩
  obtain ⟨k, hk, hpage⟩ := List.mem_flatMap.mp hkey
  have hlast : k ≤ last := by
    have := List.mem_range.mp hk
    omega
  obtain ⟨j, hj, hmem⟩ := hscan.stored k hlast key hpage
  exact hnul key (mem_of_mem_storeAt hscan.toEndsAt (hj.trans hlast) hmem)

theorem mem_keys_of_owned {key : String} (h : Owned text podIp s key) :
    key ∈ pages.keys (last + 1) := by
  by_contra hnot
  have hunseen : ∀ k ≤ last, key ∉ pages.page k := by
    intro k hk hpage
    exact hnot (ScanPages.mem_keys.mpr ⟨k, hk, hpage⟩)
  have hthere : ∀ k ≤ last, key ∈ storeAt text podIp pages s k := by
    intro k hk
    have hremoved : ¬ Removed text podIp s (pages.keys k) key := by
      rw [h.removed_iff]
      intro hmem
      obtain ⟨j, hj, hpage⟩ := List.mem_flatMap.mp hmem
      have hlt := List.mem_range.mp hj
      exact hunseen j (by omega) hpage
    have hkept := (cleaned_pages hnul hscan (by omega)).kept key hremoved
    rw [storeAt_eq hscan.toEndsAt hk]
    exact (Store.mem_congr hkept).mpr h.mem
  obtain ⟨value, j, hlisted, -⟩ := h
  obtain ⟨k, hk, hpage⟩ := hscan.returned key hlisted.matched hthere
  exact hunseen k hk hpage

theorem removed_pages_iff {k : String} : Removed text podIp s (pages.keys (last + 1)) k ↔
    Owned text podIp s k ∨ ∃ key, Owned text podIp s key ∧ k = commandKey key := by
  constructor
  · rintro ⟨key, -, howned, rfl | hcommand⟩
    · exact Or.inl howned
    · exact Or.inr ⟨key, howned, hcommand⟩
  · rintro (howned | ⟨key, howned, hcommand⟩)
    · exact ⟨k, mem_keys_of_owned hnul hscan howned, howned, Or.inl rfl⟩
    · exact ⟨key, mem_keys_of_owned hnul hscan howned, howned, Or.inr hcommand⟩

end owned

/-- On whatever pages the guarantee allows, the cleanup removes the owned keys and their
command keys, keeps every other key with its value, and reports whether a key was owned. -/
theorem deletes_owned_exactly (hnul : ∀ key ∈ s, '\x00' ∉ key.toList)
    (hscan : pages.Allowed (storeAt text podIp pages s) last) {fuel : ℕ} (hfuel : last < fuel) :
    ∃ anyDeleted s', (deleteRoomsForServer text podIp fuel).run (Store.paged pages).exec (s, 0) =
        (some anyDeleted, (s', last + 1)) ∧
      (∀ k, k ∉ s' ↔ k ∉ s ∨ Owned text podIp s k ∨
        ∃ key, Owned text podIp s key ∧ k = commandKey key) ∧
      (∀ k ∈ s', s'.lookup k = s.lookup k) ∧
      (anyDeleted = true ↔ ∃ key, Owned text podIp s key) := by
  have hrun := scanRooms_ends (visits_visitOwned text podIp) hscan.toEndsAt (false, s) last 0 fuel
    (Nat.zero_add last) hfuel
  rw [afterPages_cleanKey text podIp (false, s) (last + 1)] at hrun
  have hcleaned := cleaned_pages hnul hscan (le_refl (last + 1))
  refine ⟨_, _, hrun, ?_, ?_, ?_⟩
  · intro k
    rw [← removed_pages_iff hnul hscan, ← AList.lookup_eq_none]
    by_cases hk : Removed text podIp s (pages.keys (last + 1)) k
    · exact iff_of_true (hcleaned.removed k hk) (Or.inr hk)
    · rw [hcleaned.kept k hk, AList.lookup_eq_none, or_iff_left hk]
  · intro k hk
    refine hcleaned.kept k fun hgone => ?_
    exact AList.lookup_eq_none.mp (hcleaned.removed k hgone) hk
  · rw [hcleaned.anyDeleted]
    constructor
    · rintro ⟨key, -, howned⟩
      exact ⟨key, howned⟩
    · rintro ⟨key, howned⟩
      exact ⟨key, mem_keys_of_owned hnul hscan howned, howned⟩

namespace Sample

def storedRooms : Store :=
  (ownedRoom.insert (commandKey (roomKey "r")) (.string "moves")).insert (roomKey "s")
    (.string (ownerText "10.0.0.2"))

def deletedKeyAgain : ScanPages := fun n _ =>
  if n = 0 then ([roomKey "r", commandKey (roomKey "r")], 7)
  else ([roomKey "r", roomKey "s"], 0)

theorem mem_storedRooms {key : String} :
    key ∈ storedRooms ↔ key ∈ [roomKey "s", commandKey (roomKey "r"), roomKey "r"] := by
  rw [storedRooms, AList.mem_insert, AList.mem_insert, ownedRoom, AList.mem_insert,
    or_iff_left (AList.notMem_empty key)]
  simp only [List.mem_cons, List.not_mem_nil, or_false]

theorem deletedKeyAgain_allowed :
    deletedKeyAgain.Allowed (storeAt serverText "10.0.0.1" deletedKeyAgain storedRooms) 1 where
  ends := rfl
  goes k hk := by
    obtain rfl : k = 0 := by omega
    exact (by decide : (7 : ℕ) ≠ 0)
  stored k hk key hkey := by
    refine ⟨0, Nat.zero_le k, mem_storedRooms.mpr ?_⟩
    have hmem := (List.mem_filter.mp hkey).1
    rw [deletedKeyAgain] at hmem
    split at hmem <;> simp only [List.mem_cons, List.not_mem_nil, or_false] at hmem ⊢ <;> tauto
  returned key _ hkey := by
    have hmem := mem_storedRooms.mp (hkey 0 (Nat.zero_le 1))
    simp only [List.mem_cons, List.not_mem_nil, or_false] at hmem
    rcases hmem with rfl | rfl | rfl
    · exact ⟨1, le_rfl, by decide +kernel⟩
    · exact ⟨0, Nat.zero_le 1, by decide +kernel⟩
    · exact ⟨0, Nat.zero_le 1, by decide +kernel⟩

end Sample

open Sample in
theorem cleanup_of_deletedKeyAgain : ∃ anyDeleted s',
    (deleteRoomsForServer serverText "10.0.0.1" 2).run (Store.paged deletedKeyAgain).exec
        (storedRooms, 0) = (some anyDeleted, (s', 2)) ∧
      anyDeleted = true ∧ roomKey "r" ∉ s' ∧ commandKey (roomKey "r") ∉ s' := by
  have hnul : ∀ key ∈ storedRooms, '\x00' ∉ key.toList := by
    intro key hkey
    have hall : ∀ key ∈ [roomKey "s", commandKey (roomKey "r"), roomKey "r"],
        '\x00' ∉ key.toList := by decide
    exact hall key (mem_storedRooms.mp hkey)
  have howned : Owned serverText "10.0.0.1" storedRooms (roomKey "r") := by
    refine owned_iff.mpr ⟨ownerText "10.0.0.1", ⟨?_, ?_, ?_⟩, ?_⟩ <;> decide +kernel
  obtain ⟨anyDeleted, s', hrun, habsent, -, hany⟩ :=
    deletes_owned_exactly hnul deletedKeyAgain_allowed (by decide : 1 < 2)
  exact ⟨anyDeleted, s', hrun, hany.mpr ⟨_, howned⟩, (habsent _).mpr (Or.inr (Or.inl howned)),
    (habsent _).mpr (Or.inr (Or.inr ⟨_, howned, rfl⟩))⟩

end PokemonServer
