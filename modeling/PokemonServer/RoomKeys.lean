import PokemonServer.RedisClient

/-!
# The Redis keys of rooms

A room's snapshot is stored under `pokemon:room:<id>`. The methods of RedisClient
write such a key with its length, read and delete it as a C string, and take every
key that ends in `:command` for something else.
-/

namespace PokemonServer
open RedisClient

/-- A room id that a C string carries whole and that is not taken for a command key. -/
def PlainId (r : String) : Prop := '\x00' ∉ r.toList ∧ isCommandKey r = false

instance (r : String) : Decidable (PlainId r) := inferInstanceAs (Decidable (_ ∧ _))

theorem cstr_append {p s : String} (hp : '\x00' ∉ p.toList) : cstr (p ++ s) = p ++ cstr s := by
  have htake : ∀ l m : List Char, '\x00' ∉ l →
      (l ++ m).takeWhile (· ≠ '\x00') = l ++ m.takeWhile (· ≠ '\x00') := by
    intro l m hl
    refine List.takeWhile_append_of_pos fun c hc => ?_
    simp only [ne_eq, decide_eq_true_eq]
    rintro rfl
    exact hl hc
  rw [cstr, String.toList_append, htake _ _ hp, String.ofList_append, String.ofList_toList, cstr]

theorem not_mem_cstr (s : String) : '\x00' ∉ (cstr s).toList := by
  rw [cstr, String.toList_ofList]
  intro hmem
  simpa using List.mem_takeWhile_imp hmem

def deletedKeys (roomId : String) : List String :=
  [cstr (roomKey roomId), cstr (commandKey (roomKey roomId))]

theorem deletedKeys_of_plain {r : String} (hr : PlainId r) :
    deletedKeys r = [roomKey r, commandKey (roomKey r)] := by
  have hroom : '\x00' ∉ (roomKey r).toList := by
    simp [roomKey, hr.1]
  have hcommand : '\x00' ∉ (commandKey (roomKey r)).toList := by
    simp [commandKey, roomKey, hr.1]
  rw [deletedKeys, cstr_of_noNul hroom, cstr_of_noNul hcommand]

theorem isCommandKey_commandKey (key : String) : isCommandKey (commandKey key) = true := by
  rw [isCommandKey, List.isSuffixOf_iff_suffix, commandKey, String.toList_append]
  exact List.suffix_append _ _

theorem roomKey_mem_deletedKeys {r r' : String} (hr : PlainId r) (hr' : PlainId r') :
    roomKey r ∈ deletedKeys r' ↔ r = r' := by
  rw [deletedKeys_of_plain hr', List.mem_cons, List.mem_singleton, roomKey_injective.eq_iff]
  refine or_iff_left fun h => ?_
  have happ : r = r' ++ ":command" := by
    rw [commandKey, roomKey, roomKey, String.append_assoc] at h
    exact (String.append_right_inj _).mp h
  have hcommand : isCommandKey r = true := happ ▸ isCommandKey_commandKey r'
  rw [hr.2] at hcommand
  cases hcommand

theorem heartbeatKey_ne_roomKey (podIp r : String) : heartbeatKey podIp ≠ roomKey r := by
  intro h
  have hlists := congrArg String.toList h
  rw [heartbeatKey, cstr_append (by decide), roomKey, String.toList_append,
    String.toList_append] at hlists
  simp [nodeHeartbeatPrefix] at hlists

theorem heartbeatKey_ne_nodesSetKey (podIp : String) : heartbeatKey podIp ≠ nodesSetKey := by
  intro h
  have hlists := congrArg String.toList h
  rw [heartbeatKey, cstr_append (by decide), String.toList_append] at hlists
  simp [nodeHeartbeatPrefix, nodesSetKey] at hlists

theorem roomKey_ne_nodesSetKey (roomId : String) : roomKey roomId ≠ nodesSetKey := by
  intro h
  have hlists := congrArg String.toList h
  simp [roomKey, nodesSetKey] at hlists

theorem isCommandKey_roomKey {r : String} (hr : isCommandKey r = false) :
    isCommandKey (roomKey r) = true ↔ r = "command" := by
  have htails : ∀ l ∈ ":command".toList.tails,
      ":command".toList.isSuffixOf ("pokemon:room:".toList ++ l) = true →
        ":command".toList.isSuffixOf l = false → l = "command".toList := by decide
  constructor
  · intro hkey
    rw [isCommandKey, roomKey, String.toList_append] at hkey
    have hsuffix := List.isSuffixOf_iff_suffix.mp hkey
    rcases le_total ":command".toList.length r.toList.length with hle | hle
    · have hcommand := List.suffix_of_suffix_length_le hsuffix (List.suffix_append _ _) hle
      rw [isCommandKey, List.isSuffixOf_iff_suffix.mpr hcommand] at hr
      cases hr
    · have htail := List.suffix_of_suffix_length_le (List.suffix_append _ _) hsuffix hle
      exact String.toList_inj.mp (htails _ ((List.mem_tails _ _).mpr htail) hkey hr)
  · rintro rfl
    decide

def isRoomKey (key : String) : Bool := matchesPattern "pokemon:room:*" key

theorem isRoomKey_iff {key : String} :
    isRoomKey key = true ↔ ∃ r, key = roomKey r := by
  have hpattern : "pokemon:room:*".toList = "pokemon:room:".toList ++ ['*'] := by decide
  rw [isRoomKey, matchesPattern, hpattern, glob_prefix _ (by decide)]
  constructor
  · rintro ⟨rest, hrest⟩
    refine ⟨String.ofList rest, String.toList_inj.mp ?_⟩
    rw [roomKey, String.toList_append, ← hrest]
    simp only [String.toList_ofList]
  · rintro ⟨r, rfl⟩
    rw [roomKey, String.toList_append]
    exact List.prefix_append _ _

theorem isRoomKey_heartbeatKey (podIp : String) : isRoomKey (heartbeatKey podIp) = false := by
  rw [Bool.eq_false_iff, Ne, isRoomKey_iff]
  rintro ⟨r, hr⟩
  exact heartbeatKey_ne_roomKey podIp r hr

namespace Store

theorem mem_delKeys {keys : List String} {s : Store} {k : String} :
    k ∈ (delKeys keys s).2 ↔ k ∉ keys ∧ k ∈ s := by
  rw [← AList.lookup_isSome, ← AList.lookup_isSome, lookup_delKeys]
  by_cases hk : k ∈ keys <;> simp [hk]

end Store

end PokemonServer
