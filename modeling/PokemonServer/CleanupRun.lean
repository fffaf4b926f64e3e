import PokemonServer.SnapshotScan

/-!
# DeleteRoomsForServer executed alone

The cleanup changes the key space that its own SCAN iterates over, but only by
deletions. Redis's guarantee for such an iteration is that it ends and returns every
key that is there from its start to its end. A room's key is then gone exactly when
its value is owned and some scanned key reads as it.
-/

namespace PokemonServer
open Interleaving RedisClient

def ownedValue (text : JsonText) (podIp value : String) : Bool :=
  match text.parse value with
  | .ok j => ownedBy podIp j
  | .error _ => false

theorem cstr_commandKey (key : String) :
    cstr (commandKey key) = cstr key ∨ cstr (commandKey key) = cstr key ++ ":command" := by
  by_cases hkey : '\x00' ∈ key.toList
  · left
    have htake : ∀ l m : List Char, '\x00' ∈ l →
        (l ++ m).takeWhile (· ≠ '\x00') = l.takeWhile (· ≠ '\x00') := by
      intro l m hl
      rw [List.takeWhile_append, if_neg]
      intro hlength
      have hall := List.takeWhile_eq_self_iff.mp
        ((List.takeWhile_prefix _).eq_of_length hlength) _ hl
      simp at hall
    rw [cstr, commandKey, String.toList_append, htake _ _ hkey, cstr]
  · right
    rw [commandKey, cstr_append hkey, cstr_of_noNul hkey]
    congr 1

abbrev visitOwned (text : JsonText) (podIp key value : String) (anyDeleted : Bool) : Client Bool :=
  match text.parse value with
  | .ok j =>
    if ownedBy podIp j then do
      let _ ← redisCommand (.del [cstr key, cstr (commandKey key)])
      return true
    else return anyDeleted
  | .error _ => return anyDeleted

variable {text : JsonText} {podIp : String} {scanPage : ScanPolicy}

def cleanKey (text : JsonText) (podIp : String) (st : Bool × Store) (key : String) : Bool × Store :=
  if isCommandKey key then st
  else
    match st.2.lookup (cstr key) with
    | some (.string value) =>
      if ownedValue text podIp value then
        (true, (Store.delKeys [cstr key, cstr (commandKey key)] st.2).2)
      else st
    | _ => st

theorem visitOwned_run (key value : String) (b : Bool) (s : Store) :
    (visitOwned text podIp key value b).run (Store.backend scanPage).exec s =
      if ownedValue text podIp value then
        (true, (Store.delKeys [cstr key, cstr (commandKey key)] s).2)
      else (b, s) := by
  unfold visitOwned ownedValue
  split
  · split
    · rename_i howned
      rfl
    · rfl
  · rfl

theorem cleanKey_of_none {st : Bool × Store} {key : String} (h : snapshotOf st.2 key = none) :
    cleanKey text podIp st key = st := by
  unfold cleanKey
  split
  · rfl
  · rename_i hcommand
    split
    · rename_i value hlookup
      rw [snapshotOf, if_neg hcommand, hlookup] at h
      cases h
    · rfl

theorem cleanKey_of_some {st : Bool × Store} {key value : String}
    (h : snapshotOf st.2 key = some (key, value)) :
    cleanKey text podIp st key =
      if ownedValue text podIp value then
        (true, (Store.delKeys [cstr key, cstr (commandKey key)] st.2).2)
      else st := by
  obtain ⟨hcommand, hlookup⟩ := snapshotOf_eq_some_iff.mp h
  rw [cleanKey, if_neg (Bool.eq_false_iff.mp hcommand), hlookup]

theorem cleanKey_cases (text : JsonText) (podIp : String) (st : Bool × Store) (key : String) :
    (cleanKey text podIp st key = st ∧
        ∀ value, snapshotOf st.2 key = some (key, value) → ownedValue text podIp value = false) ∨
      ∃ value, snapshotOf st.2 key = some (key, value) ∧ ownedValue text podIp value = true ∧
        cleanKey text podIp st key =
          (true, (Store.delKeys [cstr key, cstr (commandKey key)] st.2).2) := by
  cases hkey : snapshotOf st.2 key with
  | none =>
    refine Or.inl ⟨cleanKey_of_none hkey, ?_⟩
    intro value hsome
    cases hsome
  | some pair =>
    obtain ⟨key', value⟩ := pair
    obtain rfl : key' = key := snapshotOf_fst hkey
    rw [cleanKey_of_some hkey]
    by_cases howned : ownedValue text podIp value = true
    · exact Or.inr ⟨value, rfl, howned, if_pos howned⟩
    · refine Or.inl ⟨if_neg howned, ?_⟩
      intro value' hsome
      cases hsome
      exact Bool.eq_false_iff.mpr howned

theorem visitOwned_keys_run (keys : List String) (b : Bool) (s : Store) :
    (visitKeys (visitOwned text podIp) (keys.map .string) b).run (Store.backend scanPage).exec s =
      keys.foldl (cleanKey text podIp) (b, s) := by
  induction keys generalizing b s with
  | nil => rfl
  | cons key keys ih =>
    rw [List.map_cons, List.foldl_cons]
    cases hkey : snapshotOf s key with
    | none =>
      rw [visitKeys_cons_of_none _ _ _ hkey, cleanKey_of_none hkey]
      exact ih b s
    | some pair =>
      obtain ⟨key', value⟩ := pair
      obtain rfl : key' = key := snapshotOf_fst hkey
      rw [visitKeys_cons_of_some _ _ _ hkey, cleanKey_of_some hkey, Prog.run_bind, visitOwned_run]
      exact ih _ _

def roomPage (scanPage : ScanPolicy) (s : Store) (cursor : ℕ) : List String :=
  (scanPage s cursor).1.filter isRoomKey

/-- The SCAN loop of the cleanup; none when it is cut off. -/
def sweep (text : JsonText) (podIp : String) (scanPage : ScanPolicy) :
    ℕ → ℕ → Bool × Store → Option (Bool × Store)
  | 0, _, _ => none
  | fuel + 1, cursor, st =>
    let swept := (roomPage scanPage st.2 cursor).foldl (cleanKey text podIp) st
    if (scanPage st.2 cursor).2 = 0 then some swept
    else sweep text podIp scanPage fuel (scanPage st.2 cursor).2 swept

theorem scanRooms_run_of_sweep {fuel cursor : ℕ} {st st' : Bool × Store}
    (h : sweep text podIp scanPage fuel cursor st = some st') :
    (scanRooms (visitOwned text podIp) fuel cursor st.1).run (Store.backend scanPage).exec st.2 =
      (some st'.1, st'.2) := by
  induction fuel generalizing cursor st with
  | zero => cases h
  | succ fuel ih =>
    rw [scanRooms_turn _ _ _ (Store.backend_scan cursor st.2), visitOwned_keys_run]
    simp only [sweep] at h
    by_cases hzero : (scanPage st.2 cursor).2 = 0
    · rw [if_pos hzero] at h
      cases h
      simp only [if_pos hzero]
      rfl
    · rw [if_neg hzero] at h
      simp only [if_neg hzero]
      exact ih h

def sweepState (text : JsonText) (podIp : String) (scanPage : ScanPolicy) (s : Store) :
    ℕ → (Bool × Store) × ℕ
  | 0 => ((false, s), 0)
  | n + 1 =>
    let st := sweepState text podIp scanPage s n
    ((roomPage scanPage st.1.2 st.2).foldl (cleanKey text podIp) st.1, (scanPage st.1.2 st.2).2)

theorem sweep_of_sweepState {s : Store} {n : ℕ}
    (hend : (sweepState text podIp scanPage s (n + 1)).2 = 0)
    (hgoes : ∀ k < n, (sweepState text podIp scanPage s (k + 1)).2 ≠ 0) (more : ℕ) {d : ℕ}
    (hd : d ≤ n) :
    sweep text podIp scanPage (more + d + 1) (sweepState text podIp scanPage s (n - d)).2
        (sweepState text podIp scanPage s (n - d)).1 =
      some (sweepState text podIp scanPage s (n + 1)).1 := by
  induction d with
  | zero =>
    rw [sweep]
    exact if_pos hend
  | succ d ih =>
    have hstep : n - d = n - (d + 1) + 1 := by omega
    have hnext := ih (by omega)
    rw [hstep] at hnext
    rw [sweep]
    exact (if_neg (hgoes (n - (d + 1)) (by omega))).trans hnext

section lookup
variable (text podIp) (k : String)

theorem lookup_cleanKey (st : Bool × Store) (key : String) :
    (cleanKey text podIp st key).2.lookup k = none ∨
      (cleanKey text podIp st key).2.lookup k = st.2.lookup k := by
  rcases cleanKey_cases text podIp st key with ⟨hsame, -⟩ | ⟨value, -, -, hdeleted⟩
  · exact Or.inr (by rw [hsame])
  · rw [hdeleted, Store.lookup_delKeys]
    split
    · exact Or.inl rfl
    · exact Or.inr rfl

theorem lookup_cleanKeys (st : Bool × Store) (keys : List String) :
    (keys.foldl (cleanKey text podIp) st).2.lookup k = none ∨
      (keys.foldl (cleanKey text podIp) st).2.lookup k = st.2.lookup k := by
  induction keys generalizing st with
  | nil => exact Or.inr rfl
  | cons key keys ih =>
    rw [List.foldl_cons]
    rcases ih (cleanKey text podIp st key) with h | h
    · exact Or.inl h
    · rcases lookup_cleanKey text podIp k st key with h' | h'
      · exact Or.inl (h.trans h')
      · exact Or.inr (h.trans h')

end lookup

theorem lookup_cleanKeys_of_nul (keys : List String) (st : Bool × Store) {k : String}
    (hk : '\x00' ∈ k.toList) :
    (keys.foldl (cleanKey text podIp) st).2.lookup k = st.2.lookup k := by
  have hne : ∀ key, k ≠ cstr key := fun key h => not_mem_cstr key (h ▸ hk)
  induction keys generalizing st with
  | nil => rfl
  | cons key keys ih =>
    rw [List.foldl_cons, ih]
    rcases cleanKey_cases text podIp st key with ⟨hsame, -⟩ | ⟨value, -, -, hdeleted⟩
    · rw [hsame]
    · rw [hdeleted, Store.lookup_delKeys, if_neg (by simp [hne])]

theorem eq_of_command_eq {r key : String} (hr : PlainId r) (hkey : isRoomKey key = true)
    (h : cstr (commandKey key) = roomKey r) : cstr key = roomKey r := by
  rcases cstr_commandKey key with heq | heq
  · exact heq ▸ h
  · exfalso
    obtain ⟨r', rfl⟩ := isRoomKey_iff.mp hkey
    have hcut : cstr (roomKey r') = roomKey (cstr r') := cstr_append (by decide)
    rw [heq, hcut, roomKey, String.append_assoc] at h
    obtain rfl : cstr r' ++ ":command" = r := roomKey_injective h
    have hcommand : isCommandKey (cstr r' ++ ":command") = true := isCommandKey_commandKey _
    rw [hr.2] at hcommand
    cases hcommand

/-- The key is visited as the key of room `r`. -/
def ReadsAs (r key : String) : Prop :=
  isRoomKey key = true ∧ isCommandKey key = false ∧ cstr key = roomKey r

theorem lookup_cleanKey_of_readsAs (st : Bool × Store) {r key value : String}
    (hkey : ReadsAs r key) (howned : ownedValue text podIp value = true)
    (h : st.2.lookup (roomKey r) = some (.string value)) :
    (cleanKey text podIp st key).2.lookup (roomKey r) = none := by
  have hvalue : snapshotOf st.2 key = some (key, value) :=
    snapshotOf_eq_some_iff.mpr ⟨hkey.2.1, hkey.2.2 ▸ h⟩
  rw [cleanKey_of_some hvalue, if_pos howned, Store.lookup_delKeys, hkey.2.2]
  exact if_pos List.mem_cons_self

theorem readsAs_of_cleanKey (st : Bool × Store) {r key : String} (hr : PlainId r)
    (hkey : isRoomKey key = true)
    (h : (cleanKey text podIp st key).2.lookup (roomKey r) ≠ st.2.lookup (roomKey r)) :
    ReadsAs r key ∧ ∃ value, st.2.lookup (roomKey r) = some (.string value) ∧
      ownedValue text podIp value = true := by
  rcases cleanKey_cases text podIp st key with ⟨hsame, -⟩ | ⟨value, hvalue, howned, hdeleted⟩
  · exact absurd (by rw [hsame]) h
  · obtain ⟨hcommand, hlookup⟩ := snapshotOf_eq_some_iff.mp hvalue
    rw [hdeleted, Store.lookup_delKeys] at h
    split at h
    · rename_i hmem
      rw [List.mem_cons, List.mem_singleton] at hmem
      have hreads : cstr key = roomKey r := by
        rcases hmem with heq | heq
        · exact heq.symm
        · exact eq_of_command_eq hr hkey heq.symm
      exact ⟨⟨hkey, hcommand, hreads⟩, value, hreads ▸ hlookup, howned⟩
    · exact absurd rfl h

theorem readsAs_of_cleanKeys {r : String} (hr : PlainId r) (keys : List String)
    (st : Bool × Store) (hkeys : ∀ key ∈ keys, isRoomKey key = true)
    (h : (keys.foldl (cleanKey text podIp) st).2.lookup (roomKey r) ≠ st.2.lookup (roomKey r)) :
    ∃ key ∈ keys, ReadsAs r key ∧ ∃ value, st.2.lookup (roomKey r) = some (.string value) ∧
      ownedValue text podIp value = true := by
  induction keys generalizing st with
  | nil => exact absurd rfl h
  | cons key keys ih =>
    by_cases hfirst : (cleanKey text podIp st key).2.lookup (roomKey r) = st.2.lookup (roomKey r)
    · rw [List.foldl_cons, ← hfirst] at h
      obtain ⟨key', hmem, hreads, value, hlookup, howned⟩ :=
        ih _ (fun key hkey => hkeys key (List.mem_cons_of_mem _ hkey)) h
      exact ⟨key', List.mem_cons_of_mem _ hmem, hreads, value, hfirst ▸ hlookup, howned⟩
    · exact ⟨key, List.mem_cons_self,
        readsAs_of_cleanKey st hr (hkeys key List.mem_cons_self) hfirst⟩

theorem lookup_cleanKeys_of_readsAs {r key value : String} (keys : List String)
    (st : Bool × Store) (hmem : key ∈ keys) (hkey : ReadsAs r key)
    (howned : ownedValue text podIp value = true)
    (h : st.2.lookup (roomKey r) = none ∨ st.2.lookup (roomKey r) = some (.string value)) :
    (keys.foldl (cleanKey text podIp) st).2.lookup (roomKey r) = none := by
  have hnone : ∀ (keys : List String) (st : Bool × Store), st.2.lookup (roomKey r) = none →
      (keys.foldl (cleanKey text podIp) st).2.lookup (roomKey r) = none := by
    intro keys st hst
    rcases lookup_cleanKeys text podIp (roomKey r) st keys with h | h
    · exact h
    · exact h.trans hst
  obtain ⟨before, after, rfl⟩ := List.append_of_mem hmem
  rw [List.foldl_append, List.foldl_cons]
  refine hnone _ _ ?_
  have hbefore : (before.foldl (cleanKey text podIp) st).2.lookup (roomKey r) = none ∨
      (before.foldl (cleanKey text podIp) st).2.lookup (roomKey r) = some (.string value) := by
    rcases lookup_cleanKeys text podIp (roomKey r) st before with h' | h'
    · exact Or.inl h'
    · rwa [h']
  rcases hbefore with hb | hb
  · exact hnone [key] _ hb
  · exact lookup_cleanKey_of_readsAs _ hkey howned hb

/-- SCAN while keys are only deleted: the iteration ends, returns no key that was not
there when it started, and returns every key that was there throughout. -/
def ScansShrinking (scanPage : ScanPolicy) : Prop :=
  ∀ (stores : ℕ → Store) (cursors : ℕ → ℕ), cursors 0 = 0 →
    (∀ n, cursors (n + 1) = (scanPage (stores n) (cursors n)).2) →
    (∀ n key, key ∈ stores (n + 1) → key ∈ stores n) →
    ∃ n, cursors (n + 1) = 0 ∧ (∀ k < n, cursors (k + 1) ≠ 0) ∧
      (∀ k ≤ n, ∀ key ∈ (scanPage (stores k) (cursors k)).1, key ∈ stores 0) ∧
      ∀ key, (∀ k ≤ n, key ∈ stores k) → ∃ k ≤ n, key ∈ (scanPage (stores k) (cursors k)).1

/-- The stored value of room `r` is owned, and some stored key reads as its key. -/
def Swept (text : JsonText) (podIp : String) (s : Store) (r : String) : Prop :=
  ∃ value key, s.lookup (roomKey r) = some (.string value) ∧
    ownedValue text podIp value = true ∧ key ∈ s ∧ ReadsAs r key

section states
variable (text podIp scanPage) (s : Store)

theorem mem_sweepState {n : ℕ} {key : String}
    (h : key ∈ (sweepState text podIp scanPage s (n + 1)).1.2) :
    key ∈ (sweepState text podIp scanPage s n).1.2 := by
  have hkept := lookup_cleanKeys text podIp key (sweepState text podIp scanPage s n).1
    (roomPage scanPage (sweepState text podIp scanPage s n).1.2
      (sweepState text podIp scanPage s n).2)
  exact (Store.mem_congr (Store.lookup_of_kept hkept h)).mp h

theorem lookup_sweepState (k : String) {n m : ℕ} (hnm : n ≤ m) :
    (sweepState text podIp scanPage s m).1.2.lookup k = none ∨
      (sweepState text podIp scanPage s m).1.2.lookup k =
        (sweepState text podIp scanPage s n).1.2.lookup k := by
  induction m, hnm using Nat.le_induction with
  | base => exact Or.inr rfl
  | succ m hnm ih =>
    rcases lookup_cleanKeys text podIp k (sweepState text podIp scanPage s m).1
      (roomPage scanPage (sweepState text podIp scanPage s m).1.2
        (sweepState text podIp scanPage s m).2) with hnone | hsame
    · exact Or.inl hnone
    · rw [sweepState, hsame]
      exact ih

theorem mem_sweepState_of_nul {key : String} (hnul : '\x00' ∈ key.toList) (hkey : key ∈ s)
    (n : ℕ) : key ∈ (sweepState text podIp scanPage s n).1.2 := by
  induction n with
  | zero => exact hkey
  | succ n ih =>
    exact (Store.mem_congr (lookup_cleanKeys_of_nul _ _ hnul)).mpr ih

end states

variable {s : Store} {r : String}

theorem swept_of_sweepState (hr : PlainId r) {n : ℕ}
    (hpages : ∀ k < n, ∀ key ∈ (scanPage (sweepState text podIp scanPage s k).1.2
      (sweepState text podIp scanPage s k).2).1, key ∈ s)
    (h : (sweepState text podIp scanPage s n).1.2.lookup (roomKey r) ≠ s.lookup (roomKey r)) :
    Swept text podIp s r := by
  induction n with
  | zero => exact absurd rfl h
  | succ n ih =>
    by_cases hsame :
        (sweepState text podIp scanPage s n).1.2.lookup (roomKey r) = s.lookup (roomKey r)
    · rw [← hsame] at h
      obtain ⟨key, hmem, hreads, value, hlookup, howned⟩ :=
        readsAs_of_cleanKeys hr _ _ (fun key hkey => (List.mem_filter.mp hkey).2) h
      exact ⟨value, key, hsame ▸ hlookup, howned,
        hpages n n.lt_succ_self key (List.mem_filter.mp hmem).1, hreads⟩
    · exact ih (fun k hk => hpages k (hk.trans n.lt_succ_self)) hsame

theorem mem_sweepState_of_readsAs {key : String} (hkey : key ∈ s) (hreads : ReadsAs r key) {n : ℕ}
    (h : roomKey r ∈ (sweepState text podIp scanPage s n).1.2) {k : ℕ} (hk : k ≤ n) :
    key ∈ (sweepState text podIp scanPage s k).1.2 := by
  by_cases hnul : '\x00' ∈ key.toList
  · exact mem_sweepState_of_nul text podIp scanPage s hnul hkey k
  · have hplain : key = roomKey r := (cstr_of_noNul hnul).symm.trans hreads.2.2
    subst hplain
    induction n, hk using Nat.le_induction with
    | base => exact h
    | succ n _ ih => exact ih (mem_sweepState text podIp scanPage s h)

/-- Executed alone, the cleanup comes to its end, and the rooms it removes are the
swept ones. -/
theorem deleteRoomsForServer_run (hscan : ScansShrinking scanPage) (text : JsonText)
    (podIp : String) (s : Store) :
    ∃ fuel₀, ∀ fuel ≥ fuel₀, ∃ anyDeleted s',
      (deleteRoomsForServer text podIp fuel).run (Store.backend scanPage).exec s =
        (some anyDeleted, s') ∧
      ∀ r, PlainId r → (roomKey r ∈ s' ↔ roomKey r ∈ s ∧ ¬ Swept text podIp s r) := by
  obtain ⟨n, hend, hgoes, hpages, hall⟩ :=
    hscan (fun n => (sweepState text podIp scanPage s n).1.2)
      (fun n => (sweepState text podIp scanPage s n).2) rfl (fun _ => rfl)
      (fun n key h => mem_sweepState text podIp scanPage s h)
  refine ⟨n + 1, fun fuel hfuel => ?_⟩
  obtain ⟨more, rfl⟩ := Nat.exists_eq_add_of_le hfuel
  have hswept := sweep_of_sweepState hend hgoes more n.le_refl
  rw [Nat.sub_self, show more + n + 1 = n + 1 + more by omega] at hswept
  refine ⟨_, _, scanRooms_run_of_sweep hswept, fun r hr => ⟨fun hmem => ?_, ?_⟩⟩
  · refine ⟨?_, ?_⟩
    · have hkept := lookup_sweepState text podIp scanPage s (roomKey r) (Nat.zero_le (n + 1))
      exact (Store.mem_congr (Store.lookup_of_kept hkept hmem)).mp hmem
    · rintro ⟨value, key, hlookup, howned, hkey, hreads⟩
      obtain ⟨k, hk, hpage⟩ := hall key fun k hk =>
        mem_sweepState_of_readsAs hkey hreads hmem (hk.trans n.le_succ)
      have hgone : (sweepState text podIp scanPage s (k + 1)).1.2.lookup (roomKey r) = none := by
        refine lookup_cleanKeys_of_readsAs _ _ (List.mem_filter.mpr ⟨hpage, hreads.1⟩) hreads
          howned ?_
        rw [← hlookup]
        exact lookup_sweepState text podIp scanPage s (roomKey r) (Nat.zero_le k)
      have hkept := lookup_sweepState text podIp scanPage s (roomKey r) (Nat.succ_le_succ hk)
      have hnone := (Store.lookup_of_kept hkept hmem).trans hgone
      exact AList.lookup_eq_none.mp hnone hmem
  · rintro ⟨hmem, hkept⟩
    have hsame : (sweepState text podIp scanPage s (n + 1)).1.2.lookup (roomKey r) =
        s.lookup (roomKey r) := by
      by_contra hne
      exact hkept (swept_of_sweepState hr (fun k hk => hpages k (Nat.lt_succ_iff.mp hk)) hne)
    exact (Store.mem_congr hsame).mpr hmem

end PokemonServer
