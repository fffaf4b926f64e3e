import PokemonServer.SnapshotPages

/-!
# Room snapshots written and read back

SetRoomData sends the key with its length. GetAllRoomSnapshots gets the key back from
SCAN with its length, passes it over when it ends in `:command`, and otherwise sends it
to GET as a C string.
-/

namespace PokemonServer
open Interleaving RedisClient

def writeRooms : List (String × String) → Client Unit
  | [] => return ()
  | (roomId, data) :: writes => do
    let _ ← setRoomData roomId data
    writeRooms writes

def writeAndRead (writes : List (String × String)) (fuel : ℕ) :
    Client (Option (List (String × String))) := do
  let _ ← writeRooms writes
  getAllRoomSnapshots fuel

def lastWritten (writes : List (String × String)) (roomId : String) : Option String :=
  writes.reverse.lookup roomId

def written (writes : List (String × String)) (s : Store) : Store :=
  writes.foldl (fun s write => s.insert (roomKey write.1) (.string write.2)) s

/-- SCAN comes to the end and returns every key that matches once. -/
structure ScanPages.ReturnsOnce (pages : ScanPages) (s : Store) (last : ℕ) : Prop
    extends pages.EndsAt last where
  perm : (pages.keys (last + 1)).Perm (s.keys.filter isRoomKey)

/-- What is read back are the ids written, with the data written last. -/
def RoundTrips (pages : ScanPages) (s : Store) (writes : List (String × String)) (fuel : ℕ) :
    Prop :=
  ∃ pairs, ((writeAndRead writes fuel).run (Store.paged pages).exec (s, 0)).1 = some pairs ∧
    pairs.Nodup ∧ ∀ key value, (key, value) ∈ pairs ↔
      ∃ r, key = roomKey r ∧ lastWritten writes r = some value

variable {pages : ScanPages} {last : ℕ} {s : Store} {writes : List (String × String)}

theorem writeRooms_run (writes : List (String × String)) (s : Store) (n : ℕ) :
    (writeRooms writes).run (Store.paged pages).exec (s, n) = ((), (written writes s, n)) := by
  induction writes generalizing s with
  | nil => rfl
  | cons write writes ih => exact ih (s.insert (roomKey write.1) (.string write.2))

theorem lastWritten_append (writes : List (String × String)) (roomId data r : String) :
    lastWritten (writes ++ [(roomId, data)]) r =
      if r = roomId then some data else lastWritten writes r := by
  rw [lastWritten, List.reverse_append, List.reverse_singleton, List.singleton_append,
    List.lookup_cons]
  by_cases hr : r = roomId
  · simp [hr]
  · simp [hr, beq_eq_false_iff_ne.mpr hr, lastWritten]

theorem lookup_written (writes : List (String × String)) (s : Store) (r : String) :
    (written writes s).lookup (roomKey r) =
      ((lastWritten writes r).map RedisValue.string).or (s.lookup (roomKey r)) := by
  induction writes using List.reverseRecOn with
  | nil => rfl
  | append_singleton writes write ih =>
    obtain ⟨roomId, data⟩ := write
    rw [written, List.foldl_append, lastWritten_append]
    by_cases hr : r = roomId
    · subst hr
      rw [if_pos rfl]
      exact AList.lookup_insert _
    · have hne : roomKey r ≠ roomKey roomId := fun heq => hr (roomKey_injective heq)
      rw [if_neg hr, ← ih]
      exact AList.lookup_insert_ne hne

section written
variable (hs : ∀ key ∈ s, isRoomKey key = false)
include hs

theorem lookup_written_of_no_rooms (r : String) :
    (written writes s).lookup (roomKey r) = (lastWritten writes r).map RedisValue.string := by
  have hnone : s.lookup (roomKey r) = none := by
    refine AList.lookup_eq_none.mpr fun hmem => ?_
    have hkey := hs _ hmem
    rw [isRoomKey_iff.mpr ⟨r, rfl⟩] at hkey
    cases hkey
  rw [lookup_written, hnone, Option.or_none]

theorem snapshotOf_written {r value : String} :
    snapshotOf (written writes s) (roomKey r) = some (roomKey r, value) ↔
      isCommandKey (roomKey r) = false ∧ lastWritten writes (cstr r) = some value := by
  have hcut : cstr (roomKey r) = roomKey (cstr r) := cstr_append (by decide)
  rw [snapshotOf_eq_some_iff, hcut, lookup_written_of_no_rooms hs]
  cases lastWritten writes (cstr r) with
  | none => simp
  | some data => simp

variable (hscan : pages.ReturnsOnce (written writes s) last)
include hscan

theorem mem_keys_iff_written {r : String} :
    roomKey r ∈ pages.keys (last + 1) ↔ (lastWritten writes r).isSome = true := by
  rw [hscan.perm.mem_iff, List.mem_filter, AList.mem_keys.symm.eq, ← AList.lookup_isSome,
    lookup_written_of_no_rooms hs, Option.isSome_map]
  exact and_iff_left (isRoomKey_iff.mpr ⟨r, rfl⟩)

end written

/-- The round trip is exact precisely when no id written makes a command key, and each
id cut at its first NUL was last written with the same data as the id itself. -/
theorem roundTrips_iff (hs : ∀ key ∈ s, isRoomKey key = false)
    (hscan : pages.ReturnsOnce (written writes s) last) {fuel : ℕ} (hfuel : last < fuel) :
    RoundTrips pages s writes fuel ↔ ∀ r d, lastWritten writes r = some d →
      isCommandKey (roomKey r) = false ∧ lastWritten writes (cstr r) = some d := by
  have hrun : ((writeAndRead writes fuel).run (Store.paged pages).exec (s, 0)).1 =
      some ((pages.keys (last + 1)).filterMap (snapshotOf (written writes s))) := by
    rw [writeAndRead, Prog.run_bind, writeRooms_run,
      getAllRoomSnapshots_paged hscan.toEndsAt (written writes s) hfuel]
  constructor
  · rintro ⟨pairs, hpairs, -, hmem⟩ r d hlast
    rw [hrun] at hpairs
    cases hpairs
    obtain ⟨key, -, hkey⟩ := List.mem_filterMap.mp ((hmem (roomKey r) d).mpr ⟨r, rfl, hlast⟩)
    obtain rfl : roomKey r = key := snapshotOf_fst hkey
    exact (snapshotOf_written hs).mp hkey
  · intro h
    refine ⟨_, hrun, ?_, fun key value => ?_⟩
    · have hnodup : (pages.keys (last + 1)).Nodup :=
        hscan.perm.nodup_iff.mpr ((written writes s).keys_nodup.filter _)
      rw [nodup_snapshots_iff]
      intro key _
      exact List.nodup_iff_count_le_one.mp hnodup key
    · rw [List.mem_filterMap]
      constructor
      · rintro ⟨key', hpage, hkey'⟩
        obtain rfl : key = key' := snapshotOf_fst hkey'
        obtain ⟨r, rfl⟩ := isRoomKey_iff.mp (ScanPages.isRoomKey_of_mem_keys hpage)
        obtain ⟨d, hd⟩ := Option.isSome_iff_exists.mp ((mem_keys_iff_written hs hscan).mp hpage)
        have hvalue := ((snapshotOf_written hs).mp hkey').2
        rw [(h r d hd).2] at hvalue
        exact ⟨r, rfl, hd.trans hvalue⟩
      · rintro ⟨r, rfl, hlast⟩
        refine ⟨roomKey r, ?_, (snapshotOf_written hs).mpr (h r value hlast)⟩
        exact (mem_keys_iff_written hs hscan).mpr (by rw [hlast]; rfl)

namespace Sample

def onePage (ids : List String) : ScanPages := fun _ _ => (ids.map roomKey, 0)

theorem onePage_returnsOnce {ids : List String} {s : Store}
    (h : ((ids.map roomKey).filter isRoomKey).Perm (s.keys.filter isRoomKey)) :
    (onePage ids).ReturnsOnce s 0 where
  ends := rfl
  goes k hk := absurd hk (Nat.not_lt_zero k)
  perm := by
    rw [ScanPages.keys_succ]
    exact h

end Sample

open Sample in
theorem written_rooms_not_read :
    ((onePage ["r:command"]).ReturnsOnce (written [("r:command", "d")] ∅) 0 ∧
        ¬ RoundTrips (onePage ["r:command"]) ∅ [("r:command", "d")] 1) ∧
      (onePage ["r\x00s"]).ReturnsOnce (written [("r\x00s", "d")] ∅) 0 ∧
        ¬ RoundTrips (onePage ["r\x00s"]) ∅ [("r\x00s", "d")] 1 := by
  have hlost : ∀ r, ((writeAndRead [(r, "d")] 1).run (Store.paged (onePage [r])).exec (∅, 0)).1 =
      some [] → ¬ RoundTrips (onePage [r]) ∅ [(r, "d")] 1 := by
    rintro r hrun ⟨pairs, hpairs, -, hmem⟩
    rw [hrun] at hpairs
    cases hpairs
    have hwritten : lastWritten [(r, "d")] r = some "d" := by simp [lastWritten]
    cases (hmem (roomKey r) "d").mpr ⟨r, rfl, hwritten⟩
  refine ⟨⟨onePage_returnsOnce (.refl _), hlost _ ?_⟩, onePage_returnsOnce (.refl _), hlost _ ?_⟩
  · decide +kernel
  · decide +kernel

open Sample in
theorem rooms_read_back :
    RoundTrips (onePage ["s", "r"]) ∅ [("r", "d"), ("s", "e"), ("r", "f")] 1 := by
  have hscan : (onePage ["s", "r"]).ReturnsOnce
      (written [("r", "d"), ("s", "e"), ("r", "f")] ∅) 0 :=
    onePage_returnsOnce (by decide +kernel)
  refine (roundTrips_iff (fun key hkey => absurd hkey (AList.notMem_empty key)) hscan
    Nat.zero_lt_one).mpr ?_
  intro r d hlast
  have hid : r = "r" ∨ r = "s" := by
    by_contra hne
    rw [not_or] at hne
    simp [lastWritten, List.lookup, beq_eq_false_iff_ne.mpr hne.1,
      beq_eq_false_iff_ne.mpr hne.2] at hlast
  rcases hid with rfl | rfl
  · exact ⟨by decide, hlast⟩
  · exact ⟨by decide, hlast⟩

end PokemonServer
