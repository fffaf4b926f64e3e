import PokemonServer.CleanupRun
import PokemonServer.Interleaving.Protocol

/-!
# DeleteRoomsForServer beside the writes of other pods

The cleanup reads a value with GET, finds it owned by its pod, and deletes the key and
its command key with a later DEL. Other pods may write in between. What they wrote
stays stored as long as each DEL hits a key that has not been written since its GET,
and a command key that no pod uses as the key of a room.
-/

namespace PokemonServer
open Interleaving RedisClient

def foreignTo (text : JsonText) (podIp data : String) : Bool :=
  match text.parse data with
  | .ok j =>
    match j.field? "server_id" with
    | some (.string serverId) => serverId != podIp
    | _ => false
  | .error _ => false

theorem ownedValue_of_foreignTo {text : JsonText} {podIp data : String}
    (h : foreignTo text podIp data = true) : ownedValue text podIp data = false := by
  unfold foreignTo at h
  unfold ownedValue ownedBy
  cases hparse : text.parse data with
  | error exn => rfl
  | ok j =>
    simp only [hparse] at h ⊢
    split at h
    · rename_i serverId hfield
      simpa [hfield] using h
    · cases h

structure ForeignWrite (text : JsonText) (podIp : String) where
  roomId : String
  data : String
  foreign : foreignTo text podIp data = true

inductive CleanupRequest (text : JsonText) (podIp : String) where
  | deleteRoomsForServer (fuel : ℕ)
  | setRoomData (write : ForeignWrite text podIp)

inductive CleanupPhase where
  | scanning
  | deleting (key : String)
  deriving DecidableEq

abbrev RedisLog := List (Event RedisOp RedisOp.Res)

namespace Cleanup
variable {text : JsonText} {podIp : String} {scanPage : ScanPolicy}

def code : CleanupRequest text podIp → Client (Option Bool)
  | .deleteRoomsForServer fuel => RedisClient.deleteRoomsForServer text podIp fuel
  | .setRoomData write => do return some (← RedisClient.setRoomData write.roomId write.data)

def system (text : JsonText) (podIp : String) (scanPage : ScanPolicy) :
    System Store (CleanupRequest text podIp) RedisOp RedisOp.Res (Option Bool) where
  code := code
  exec := (Store.backend scanPage).exec

def next : CleanupRequest text podIp → CleanupPhase → (op : RedisOp) → op.Res → Option CleanupPhase
  | _, .scanning, .isConnected, _ => some .scanning
  | .setRoomData write, .scanning, .command (.set key data _), _ =>
    if key = roomKey write.roomId ∧ data = write.data then some .scanning else none
  | .deleteRoomsForServer _, .scanning, .command (.scan _ _ _), _ => some .scanning
  | .deleteRoomsForServer _, .scanning, .command (.get key), some (.string value) =>
    some (if ownedValue text podIp value then .deleting key else .scanning)
  | .deleteRoomsForServer _, .scanning, .command (.get _), _ => some .scanning
  | .deleteRoomsForServer _, .deleting key, .command (.del keys), _ =>
    if keys = [key, key] ∨ keys = [key, key ++ ":command"] then some .scanning else none
  | _, _, _, _ => none

end Cleanup

def cleanupProtocol (text : JsonText) (podIp : String) :
    Protocol (CleanupRequest text podIp) RedisOp RedisOp.Res CleanupPhase where
  start _ := .scanning
  next := Cleanup.next
  final φ := φ = .scanning

namespace Cleanup
variable {text : JsonText} {podIp : String} {scanPage : ScanPolicy}

abbrev AnyResult (op : RedisOp) (_ : op.Res) : Prop := True

theorem follows_setRoomData (write : ForeignWrite text podIp) :
    (cleanupProtocol text podIp).Follows AnyResult (.setRoomData write) .scanning
      (code (.setRoomData write)) := by
  intro connected _
  refine ⟨.scanning, rfl, ?_⟩
  cases connected with
  | false => exact rfl
  | true =>
    intro reply _
    refine ⟨.scanning, by simp [cleanupProtocol, next], ?_⟩
    cases reply <;> exact rfl

variable {fuel₀ : ℕ}

theorem follows_visit {rest : Bool → Client (Option Bool)}
    (hrest : ∀ b, (cleanupProtocol text podIp).Follows AnyResult (.deleteRoomsForServer fuel₀)
      .scanning (rest b)) (key value : String) (anyDeleted : Bool) :
    (cleanupProtocol text podIp).Follows AnyResult (.deleteRoomsForServer fuel₀)
      (if ownedValue text podIp value then .deleting (cstr key) else .scanning)
      (visitOwned text podIp key value anyDeleted >>= rest) := by
  unfold visitOwned ownedValue
  split
  · split
    · intro reply _
      refine ⟨.scanning, ?_, hrest true⟩
      rcases cstr_commandKey key with h | h <;> simp [cleanupProtocol, next, h]
    · exact hrest anyDeleted
  · exact hrest anyDeleted

theorem follows_visitKeys (keys : List Reply) {rest : Bool → Client (Option Bool)}
    (hrest : ∀ b, (cleanupProtocol text podIp).Follows AnyResult (.deleteRoomsForServer fuel₀)
      .scanning (rest b)) (anyDeleted : Bool) :
    (cleanupProtocol text podIp).Follows AnyResult (.deleteRoomsForServer fuel₀) .scanning
      (visitKeys (visitOwned text podIp) keys anyDeleted >>= rest) := by
  induction keys generalizing anyDeleted with
  | nil => exact hrest anyDeleted
  | cons reply keys ih =>
    cases reply with
    | string key =>
      rw [visitKeys]
      split
      · exact ih anyDeleted
      · intro got _
        cases got with
        | none => exact ⟨.scanning, rfl, ih anyDeleted⟩
        | some got =>
          cases got with
          | string value =>
            have hvisit := follows_visit (fun b => ih b) key value anyDeleted
            rw [← Prog.bind_assoc] at hvisit
            exact ⟨_, rfl, hvisit⟩
          | status _ | error _ | integer _ | nil | array _ =>
            exact ⟨.scanning, rfl, ih anyDeleted⟩
    | status _ | error _ | integer _ | nil | array _ => exact ih anyDeleted

theorem follows_scanRooms (fuel cursor : ℕ) (anyDeleted : Bool) :
    (cleanupProtocol text podIp).Follows AnyResult (.deleteRoomsForServer fuel₀) .scanning
      (scanRooms (visitOwned text podIp) fuel cursor anyDeleted) := by
  induction fuel generalizing cursor anyDeleted with
  | zero => exact rfl
  | succ fuel ih =>
    have hnext : ∀ (cursor : ℕ) (anyDeleted : Bool), (cleanupProtocol text podIp).Follows AnyResult
        (.deleteRoomsForServer fuel₀) .scanning
        (if cursor ≠ 0 then scanRooms (visitOwned text podIp) fuel cursor anyDeleted
          else return some anyDeleted : Client (Option Bool)) := by
      intro cursor anyDeleted
      split
      · exact ih cursor anyDeleted
      · exact rfl
    intro reply _
    refine ⟨.scanning, rfl, ?_⟩
    match reply with
    | some (.array (_ :: .array keys :: _)) =>
      exact follows_visitKeys keys (fun b => hnext _ b) anyDeleted
    | some (.array (_ :: .status _ :: _)) | some (.array (_ :: .error _ :: _))
    | some (.array (_ :: .integer _ :: _)) | some (.array (_ :: .string _ :: _))
    | some (.array (_ :: .nil :: _)) => exact hnext _ anyDeleted
    | some (.array []) | some (.array [_]) | none | some (.status _) | some (.error _)
    | some (.integer _) | some (.string _) | some .nil => exact rfl

theorem follows_code (req : CleanupRequest text podIp) :
    (cleanupProtocol text podIp).Follows AnyResult req ((cleanupProtocol text podIp).start req)
      (code req) := by
  cases req with
  | setRoomData write => exact follows_setRoomData write
  | deleteRoomsForServer fuel =>
    intro connected _
    refine ⟨.scanning, rfl, ?_⟩
    cases connected with
    | false => exact rfl
    | true => exact follows_scanRooms fuel 0 false

end Cleanup

section history
variable (text : JsonText) (podIp : String)

/-- The last data written under the key by another pod, in the run or before it. -/
def foreignValue (s₀ : Store) (key : String) : RedisLog → Option String
  | [] =>
    match s₀.lookup key with
    | some (.string data) => if foreignTo text podIp data then some data else none
    | _ => none
  | ⟨_, .command (.set k data _), _⟩ :: es => if k = key then some data else foreignValue s₀ key es
  | _ :: es => foreignValue s₀ key es

def writtenSince (t : ℕ) (key : String) : RedisLog → Bool
  | [] => false
  | ⟨u, .command (.set k _ _), _⟩ :: es => u != t && (k == key || writtenSince t key es)
  | ⟨u, _, _⟩ :: es => u != t && writtenSince t key es

variable {text podIp} {s₀ : Store} {key : String} {t u : ℕ} {log : RedisLog}

def RedisOp.IsSet : RedisOp → Prop
  | .command (.set _ _ _) => True
  | _ => False

theorem foreignValue_cons {op : RedisOp} (h : ¬ op.IsSet) (res : op.Res) :
    foreignValue text podIp s₀ key (⟨t, op, res⟩ :: log) = foreignValue text podIp s₀ key log := by
  cases op with
  | isConnected => rfl
  | command cmd =>
    cases cmd with
    | set => exact absurd trivial h
    | _ => rfl

theorem writtenSince_cons (op : RedisOp) (res : op.Res) (hne : t ≠ u)
    (h : writtenSince u key log = true) : writtenSince u key (⟨t, op, res⟩ :: log) = true := by
  cases op with
  | isConnected => simp [writtenSince, hne, h]
  | command cmd => cases cmd <;> simp [writtenSince, hne, h]

theorem foreignValue_ne_none (h : writtenSince u key log = true) :
    foreignValue text podIp s₀ key log ≠ none := by
  induction log with
  | nil => cases h
  | cons e es ih =>
    obtain ⟨t, op, res⟩ := e
    cases op with
    | isConnected =>
      simp only [writtenSince, Bool.and_eq_true] at h
      exact ih h.2
    | command cmd =>
      cases cmd with
      | set k data ex =>
        simp only [writtenSince, Bool.and_eq_true, Bool.or_eq_true, beq_iff_eq] at h
        by_cases hk : k = key
        · simp [foreignValue, hk]
        · simpa [foreignValue, hk] using ih (h.2.resolve_left hk)
      | _ =>
        simp only [writtenSince, Bool.and_eq_true] at h
        exact ih h.2

end history

section life
variable {text : JsonText} {podIp : String} {scanPage : ScanPolicy} {s₀ : Store}

/-- A DEL is executed only while its key has not been written since the GET of that
key, and no other pod has written data under the command key. -/
def deletesFresh (text : JsonText) (podIp : String) (s₀ : Store)
    (v : View Store (CleanupRequest text podIp) RedisOp RedisOp.Res CleanupPhase) (t : ℕ)
    (_ : CleanupRequest text podIp) : RedisOp → Prop
  | .command (.del (key :: keys)) => writtenSince t key v.log = false ∧
    ∀ k ∈ keys, k = key ∨ foreignValue text podIp s₀ k v.log = none
  | _ => True

def ForeignDataKept (text : JsonText) (podIp : String) (s₀ store : Store) (log : RedisLog) : Prop :=
  ∀ key data, foreignValue text podIp s₀ key log = some data →
    store.lookup key = some (.string data)

structure CleanupLife (text : JsonText) (podIp : String) (s₀ store : Store)
    (phases : ℕ → Option (CleanupRequest text podIp × CleanupPhase)) (log : RedisLog) : Prop where
  kept : ForeignDataKept text podIp s₀ store log
  foreign : ∀ key data, foreignValue text podIp s₀ key log = some data →
    foreignTo text podIp data = true
  checked : ∀ t req key, phases t = some (req, .deleting key) →
    writtenSince t key log = true ∨ foreignValue text podIp s₀ key log = none

namespace CleanupLife
variable {store store' : Store} {log : RedisLog}
  {phases : ℕ → Option (CleanupRequest text podIp × CleanupPhase)} {t : ℕ}
  {req : CleanupRequest text podIp} {φ φ' : CleanupPhase}

theorem init : CleanupLife text podIp s₀ s₀ (fun _ => none) [] where
  kept key data h := by
    simp only [foreignValue] at h
    split at h
    · rename_i value hlookup
      split at h
      · cases h
        exact hlookup
      · cases h
    · cases h
  foreign key data h := by
    simp only [foreignValue] at h
    split at h
    · split at h
      · rename_i hforeign
        cases h
        exact hforeign
      · cases h
    · cases h
  checked t req key h := by cases h

theorem silent (h : CleanupLife text podIp s₀ store phases log) {op : RedisOp} (hop : ¬ op.IsSet)
    (res : op.Res) (hkept : ForeignDataKept text podIp s₀ store' log)
    (hchecked : ∀ key, φ' = .deleting key → foreignValue text podIp s₀ key log = none) :
    CleanupLife text podIp s₀ store' (Function.update phases t (some (req, φ')))
      (⟨t, op, res⟩ :: log) where
  kept key data hvalue := hkept key data (by rwa [foreignValue_cons hop] at hvalue)
  foreign key data hvalue := h.foreign key data (by rwa [foreignValue_cons hop] at hvalue)
  checked u req' key hu := by
    rw [foreignValue_cons hop]
    by_cases hut : u = t
    · rw [hut, Function.update_self, Option.some.injEq, Prod.mk.injEq] at hu
      exact Or.inr (hchecked key hu.2)
    · rw [Function.update_of_ne hut] at hu
      exact (h.checked u req' key hu).imp_left (writtenSince_cons op res (Ne.symm hut))

theorem write (h : CleanupLife text podIp s₀ store phases log) {key data : String} {ex : ℤ}
    (res : Option Reply) (hforeign : foreignTo text podIp data = true) :
    CleanupLife text podIp s₀ (store.insert key (.string data))
      (Function.update phases t (some (req, .scanning)))
      (⟨t, .command (.set key data ex), res⟩ :: log) where
  kept k value hvalue := by
    by_cases hk : k = key
    · subst hk
      simp only [foreignValue, if_true, Option.some.injEq] at hvalue
      rw [AList.lookup_insert, hvalue]
    · rw [AList.lookup_insert_ne hk]
      exact h.kept k value (by simpa [foreignValue, Ne.symm hk] using hvalue)
  foreign k value hvalue := by
    by_cases hk : k = key
    · subst hk
      simp only [foreignValue, if_true, Option.some.injEq] at hvalue
      exact hvalue ▸ hforeign
    · exact h.foreign k value (by simpa [foreignValue, Ne.symm hk] using hvalue)
  checked u req' k hu := by
    by_cases hut : u = t
    · rw [hut, Function.update_self] at hu
      cases hu
    · rw [Function.update_of_ne hut] at hu
      by_cases hk : k = key
      · left
        simp [writtenSince, Ne.symm hut, hk]
      · refine (h.checked u req' k hu).imp (writtenSince_cons (.command (.set key data ex)) res
          (Ne.symm hut)) fun hnone => ?_
        simpa [foreignValue, Ne.symm hk] using hnone

theorem kept_delete (h : CleanupLife text podIp s₀ store phases log) (keys : List String) :
    ForeignDataKept text podIp s₀ (Store.delKeys keys store).2 log ↔
      ∀ key ∈ keys, foreignValue text podIp s₀ key log = none := by
  constructor
  · intro hkept key hkey
    cases hvalue : foreignValue text podIp s₀ key log with
    | none => rfl
    | some data =>
      have hlookup := hkept key data hvalue
      rw [Store.lookup_delKeys, if_pos hkey] at hlookup
      cases hlookup
  · intro hnone key data hvalue
    rw [Store.lookup_delKeys, if_neg]
    · exact h.kept key data hvalue
    · intro hkey
      rw [hnone key hkey] at hvalue
      cases hvalue

theorem deletesFresh_iff (h : CleanupLife text podIp s₀ store phases log) {key : String}
    (ht : phases t = some (req, .deleting key)) (keys : List String) :
    deletesFresh text podIp s₀ ⟨store, phases, log⟩ t req (.command (.del (key :: keys))) ↔
      ∀ k ∈ key :: keys, foreignValue text podIp s₀ k log = none := by
  have hchecked := h.checked t req key ht
  constructor
  · rintro ⟨hfresh, hrest⟩
    have hkey : foreignValue text podIp s₀ key log = none :=
      hchecked.resolve_left (by simp [hfresh])
    intro k hk
    rcases List.mem_cons.mp hk with rfl | hk
    · exact hkey
    · rcases hrest k hk with rfl | hnone
      · exact hkey
      · exact hnone
  · intro hnone
    refine ⟨?_, fun k hk => Or.inr (hnone k (List.mem_cons_of_mem _ hk))⟩
    rw [← Bool.not_eq_true]
    exact fun hwritten => foreignValue_ne_none hwritten (hnone key List.mem_cons_self)

theorem foreignValue_of_owned (h : CleanupLife text podIp s₀ store phases log) {key value : String}
    (hlookup : store.lookup key = some (.string value)) (key' : String)
    (howned : (if ownedValue text podIp value then CleanupPhase.deleting key else .scanning) =
      .deleting key') : foreignValue text podIp s₀ key' log = none := by
  split at howned
  · rename_i hvalue
    cases howned
    cases hforeign : foreignValue text podIp s₀ key log with
    | none => rfl
    | some data =>
      have hstored := h.kept key data hforeign
      rw [hlookup, Option.some.injEq, RedisValue.string.injEq] at hstored
      rw [hstored, ownedValue_of_foreignTo (h.foreign key data hforeign)] at hvalue
      cases hvalue
  · cases howned

theorem step (h : CleanupLife text podIp s₀ store phases log) (ht : phases t = some (req, φ))
    {op : RedisOp}
    (hnext : Cleanup.next req φ op ((Store.backend scanPage).exec op store).1 = some φ')
    (hkept : ∀ keys, op = .command (.del keys) →
      ForeignDataKept text podIp s₀ (Store.delKeys keys store).2 log) :
    CleanupLife text podIp s₀ ((Store.backend scanPage).exec op store).2
      (Function.update phases t (some (req, φ')))
      (⟨t, op, ((Store.backend scanPage).exec op store).1⟩ :: log) := by
  cases op with
  | isConnected =>
    cases φ with
    | scanning =>
      cases hnext
      exact h.silent id _ h.kept fun key hkey => by cases hkey
    | deleting key => cases req <;> cases hnext
  | command cmd =>
  cases req with
  | setRoomData write =>
    cases φ with
    | deleting key => cases hnext
    | scanning =>
    cases cmd with
    | set key data ex =>
      simp only [Cleanup.next, Option.ite_none_right_eq_some, Option.some.injEq] at hnext
      obtain ⟨⟨rfl, rfl⟩, rfl⟩ := hnext
      exact h.write _ write.foreign
    | _ => cases hnext
  | deleteRoomsForServer fuel =>
  cases φ with
  | scanning =>
    cases cmd with
    | scan cursor pattern count =>
      cases hnext
      exact h.silent id _ h.kept fun key hkey => by cases hkey
    | get key =>
      simp only [Store.backend, RedisBackend.exec, Store.exec] at hnext ⊢
      cases hlookup : store.lookup key with
      | none =>
        simp only [hlookup] at hnext ⊢
        cases hnext
        exact h.silent id _ h.kept fun key hkey => by cases hkey
      | some value =>
      cases value with
      | set members =>
        simp only [hlookup] at hnext ⊢
        cases hnext
        exact h.silent id _ h.kept fun key hkey => by cases hkey
      | string value =>
        simp only [hlookup] at hnext ⊢
        cases hnext
        refine h.silent id _ h.kept fun key' hkey => ?_
        exact h.foreignValue_of_owned hlookup key' hkey
    | _ => cases hnext
  | deleting key =>
    cases cmd with
    | del keys =>
      simp only [Cleanup.next, Option.ite_none_right_eq_some, Option.some.injEq] at hnext
      obtain ⟨-, rfl⟩ := hnext
      exact h.silent id _ (hkept keys rfl) fun key hkey => by cases hkey
    | _ => cases hnext

theorem start (h : CleanupLife text podIp s₀ store phases log) {n : ℕ} :
    CleanupLife text podIp s₀ store (Function.update phases n (some (req, .scanning))) log where
  kept := h.kept
  foreign := h.foreign
  checked u req' key hu := by
    by_cases hun : u = n
    · rw [hun, Function.update_self] at hu
      cases hu
    · rw [Function.update_of_ne hun] at hu
      exact h.checked u req' key hu

end CleanupLife

theorem Cleanup.next_del {req : CleanupRequest text podIp} {φ φ' : CleanupPhase}
    {keys : List String} {reply : Option Reply}
    (h : Cleanup.next req φ (.command (.del keys)) reply = some φ') :
    ∃ key rest, φ = .deleting key ∧ keys = key :: rest := by
  cases req with
  | setRoomData write => cases φ <;> cases h
  | deleteRoomsForServer fuel =>
  cases φ with
  | scanning => cases h
  | deleting key =>
    simp only [Cleanup.next, Option.ite_none_right_eq_some] at h
    rcases h.1 with rfl | rfl
    · exact ⟨key, _, rfl, rfl⟩
    · exact ⟨key, _, rfl, rfl⟩

theorem deletesFresh_iff_kept {v : View Store (CleanupRequest text podIp) RedisOp RedisOp.Res
      CleanupPhase} (h : CleanupLife text podIp s₀ v.shared v.phases v.log) {t : ℕ}
    {req : CleanupRequest text podIp} {φ φ' : CleanupPhase} {op : RedisOp}
    (ht : v.phases t = some (req, φ)) {res : op.Res} (hnext : Cleanup.next req φ op res = some φ') :
    deletesFresh text podIp s₀ v t req op ↔ ∀ keys, op = .command (.del keys) →
      ForeignDataKept text podIp s₀ (Store.delKeys keys v.shared).2 v.log := by
  cases op with
  | isConnected => simp [deletesFresh]
  | command cmd =>
    cases cmd with
    | del keys =>
      obtain ⟨key, rest, rfl, rfl⟩ := Cleanup.next_del hnext
      rw [h.deletesFresh_iff ht rest]
      constructor
      · rintro hnone keys hkeys
        cases hkeys
        exact (h.kept_delete _).mpr hnone
      · intro hkept
        exact (h.kept_delete _).mp (hkept _ rfl)
    | _ => simp [deletesFresh]

theorem cleanupLife_of_viewReachable
    {v : View Store (CleanupRequest text podIp) RedisOp RedisOp.Res CleanupPhase}
    (h : (cleanupProtocol text podIp).ViewReachable (Cleanup.system text podIp scanPage)
      (fun _ => True) (deletesFresh text podIp s₀) s₀ v) :
    CleanupLife text podIp s₀ v.shared v.phases v.log := by
  induction h with
  | init => exact .init
  | start _ _ _ ih => exact ih.start
  | op _ ht _ hguard hnext ih =>
    exact ih.step ht hnext ((deletesFresh_iff_kept ih ht hnext).mp hguard)

/-- In every run whose DELs are fresh, what other pods wrote last is stored in every
state, and the first step whose DEL is not fresh loses some of it. -/
theorem foreignDataKept_iff (text : JsonText) (podIp : String) (scanPage : ScanPolicy) (s₀ : Store)
    {c : Config Store (CleanupRequest text podIp) RedisOp RedisOp.Res (Option Bool)}
    (h : (Cleanup.system text podIp scanPage).Reachable
      ((cleanupProtocol text podIp).guarded (fun _ => True) (deletesFresh text podIp s₀)) s₀ c) :
    ForeignDataKept text podIp s₀ c.shared c.log ∧
      ∀ a c', (Cleanup.system text podIp scanPage).fire c a = some c' →
        (ForeignDataKept text podIp s₀ c'.shared c'.log ↔
          (cleanupProtocol text podIp).guarded (fun _ => True) (deletesFresh text podIp s₀) c a) := by
  obtain ⟨htracks, hview⟩ := Protocol.tracks_of_reachable (fun _ _ => trivial)
    (fun req _ => Cleanup.follows_code req) h
  have hlife := cleanupLife_of_viewReachable hview
  refine ⟨hlife.kept, fun a c' hfire => ?_⟩
  cases a with
  | start req =>
    cases hfire
    exact iff_of_true hlife.kept trivial
  | run t =>
    obtain ⟨req, op, next, hpool, -, rfl⟩ := System.fire_run hfire
    obtain ⟨φ, φ', hφ, hnext, -, -⟩ :=
      htracks.run (S := Cleanup.system text podIp scanPage) (fun _ _ => trivial) hpool
    have hguard : (cleanupProtocol text podIp).guarded (fun _ => True) (deletesFresh text podIp s₀)
        c (.run t) ↔ deletesFresh text podIp s₀ ((cleanupProtocol text podIp).view c) t req op := by
      constructor
      · exact fun hg => hg req op ⟨next, hpool⟩
      · rintro hg req' op' ⟨next', hpool'⟩
        rw [hpool] at hpool'
        cases hpool'
        exact hg
    rw [hguard, deletesFresh_iff_kept hlife hφ hnext]
    constructor
    · rintro hkept keys rfl
      intro key data hvalue
      exact hkept key data (by rwa [foreignValue_cons id])
    · intro hkept
      exact (hlife.step hφ hnext hkept).kept

end life

namespace Sample

def ownerJson (serverId : String) : Json := .object [("server_id", .string serverId)]

def ownerText (serverId : String) : String := "\x7b\"server_id\":\"" ++ serverId ++ "\"\x7d"

def serverText : JsonText where
  parse s :=
    if s = ownerText "10.0.0.1" then .ok (ownerJson "10.0.0.1")
    else if s = ownerText "10.0.0.2" then .ok (ownerJson "10.0.0.2")
    else .error ⟨"parse error"⟩
  dump j :=
    match j.field? "server_id" with
    | some (.string serverId) => ownerText serverId
    | _ => emptyText

def foreignWrite (roomId : String) : ForeignWrite serverText "10.0.0.1" :=
  ⟨roomId, ownerText "10.0.0.2", by decide +kernel⟩

def ownedRoom : Store := (∅ : Store).insert (roomKey "r") (.string (ownerText "10.0.0.1"))

def writeBetweenGetAndDel : List (Action (CleanupRequest serverText "10.0.0.1")) :=
  [.start (.deleteRoomsForServer 1), .start (.setRoomData (foreignWrite "r")), .run 0, .run 0,
    .run 0, .run 1, .run 1, .run 0]

def writeBesideCleanup : List (Action (CleanupRequest serverText "10.0.0.1")) :=
  [.start (.deleteRoomsForServer 1), .start (.setRoomData (foreignWrite "s")), .run 0, .run 0,
    .run 0, .run 1, .run 1, .run 0]

end Sample

open Sample in
theorem cleanup_deletes_foreign_data :
    ∃ c, (Cleanup.system serverText "10.0.0.1" scanAll).Reachable (fun _ _ => True) ownedRoom c ∧
      ¬ ForeignDataKept serverText "10.0.0.1" ownedRoom c.shared c.log := by
  obtain ⟨c, hreach, hcheck⟩ := System.exists_reachable_of_schedule
    (S := Cleanup.system serverText "10.0.0.1" scanAll) (s := ownedRoom) writeBetweenGetAndDel
    (fun c => decide (foreignValue serverText "10.0.0.1" ownedRoom (roomKey "r") c.log =
      some (ownerText "10.0.0.2")) && decide (c.shared.lookup (roomKey "r") = none))
    (by decide +kernel)
  simp only [Bool.and_eq_true, decide_eq_true_eq] at hcheck
  refine ⟨c, hreach, fun hkept => ?_⟩
  rw [hkept _ _ hcheck.1] at hcheck
  cases hcheck.2

def deletesFreshTest (text : JsonText) (podIp : String) (s₀ : Store)
    (c : Config Store (CleanupRequest text podIp) RedisOp RedisOp.Res (Option Bool)) (t : ℕ)
    (_ : CleanupRequest text podIp) : RedisOp → Bool
  | .command (.del (key :: keys)) => !writtenSince t key c.log &&
    keys.all fun k => k == key || (foreignValue text podIp s₀ k c.log).isNone
  | _ => true

theorem deletesFresh_of_test {text : JsonText} {podIp : String} {s₀ : Store}
    {c : Config Store (CleanupRequest text podIp) RedisOp RedisOp.Res (Option Bool)} {t : ℕ}
    {req : CleanupRequest text podIp} {op : RedisOp}
    (h : deletesFreshTest text podIp s₀ c t req op = true) :
    deletesFresh text podIp s₀ ((cleanupProtocol text podIp).view c) t req op := by
  cases op with
  | isConnected => trivial
  | command cmd =>
    cases cmd with
    | del keys =>
      cases keys with
      | nil => trivial
      | cons key keys =>
        simp only [deletesFreshTest, Bool.and_eq_true, Bool.not_eq_true', List.all_eq_true,
          Bool.or_eq_true, beq_iff_eq, Option.isNone_iff_eq_none] at h
        exact h
    | _ => trivial

open Sample in
theorem foreignDataKept_beside_cleanup :
    ∃ c, (Cleanup.system serverText "10.0.0.1" scanAll).Reachable
        ((cleanupProtocol serverText "10.0.0.1").guarded (fun _ => True)
          (deletesFresh serverText "10.0.0.1" ownedRoom)) ownedRoom c ∧
      c.shared.lookup (roomKey "r") = none ∧ c.isQuiescent = true ∧
      ForeignDataKept serverText "10.0.0.1" ownedRoom c.shared c.log := by
  obtain ⟨c, hreach, hcheck⟩ := Protocol.exists_guarded_of_replay
    (S := Cleanup.system serverText "10.0.0.1" scanAll) (s := ownedRoom)
    (P := cleanupProtocol serverText "10.0.0.1") (fun _ => true)
    (deletesFreshTest serverText "10.0.0.1" ownedRoom) (fun _ _ => trivial)
    (fun _ _ _ _ => deletesFresh_of_test) writeBesideCleanup
    (fun c => decide (c.shared.lookup (roomKey "r") = none) && c.isQuiescent) (by decide +kernel)
  simp only [Bool.and_eq_true, decide_eq_true_eq] at hcheck
  exact ⟨c, hreach, hcheck.1, hcheck.2,
    (foreignDataKept_iff serverText "10.0.0.1" scanAll ownedRoom hreach).1⟩

end PokemonServer
