import PokemonServer.PodProtocol
import PokemonServer.RoomLedger

/-!
# GracefulShutdown leaves no room behind

The flag is set before the snapshot of the rooms is taken, and the snapshot is taken
under the lock. A creation that has passed its test for maintenance holds the lock until
it has added its room, so it comes before the snapshot; one that comes after finds the
flag set. From the snapshot on rooms are only erased, by the closing loop or by handlers.
-/

namespace PokemonServer
open Interleaving

theorem mem_inOrder {keys : Finset String} {k : String} : k ∈ inOrder keys ↔ k ∈ keys := by
  obtain ⟨⟨l⟩, hl⟩ := keys
  exact (List.perm_insertionSort _ l).mem_iff

def LockPhase.Adding : LockPhase → Prop
  | .roomy | .free _ | .inserted => True
  | _ => False

namespace DrainPhase

def Knows (m : RoomManager) : DrainPhase → Prop
  | .serving => True
  | .maintaining => m.isMaintaining = true
  | .closing rest => m.isMaintaining = true ∧ ∀ r ∈ m.rooms.keys, r ∈ rest
  | .done => m.isMaintaining = true ∧ m.rooms.keys = ∅ ∧ m.roomCount = 0

def Sealed : DrainPhase → Prop
  | .closing _ | .done => True
  | _ => False

inductive DrainStep (s : LockedRooms) : DrainPhase → RoomOp → DrainPhase → Prop
  | same {d : DrainPhase} {op : RoomOp} : DrainStep s d op d
  | maintain (b : Bool) : DrainStep s .serving (.setMaintaining b) .maintaining
  | snapshot : DrainStep s .maintaining .copyRooms (.closing (inOrder s.manager.rooms.keys))
  | absent {roomId : String} {rest : List String} : roomId ∉ s.manager.rooms →
      DrainStep s (.closing (roomId :: rest)) (.find roomId) (.closing rest)
  | erase {roomId : String} {rest : List String} :
      DrainStep s (.closing (roomId :: rest)) (.erase roomId) (.closing rest)
  | unlock : DrainStep s (.closing []) .unlock .done
  | unlockShared : DrainStep s (.closing []) .unlockShared .done

theorem drainStep_after (s : LockedRooms) (d : DrainPhase) (op : RoomOp) :
    DrainStep s d op (d.after op (RoomLock.exec op s).1) := by
  cases d with
  | serving =>
    cases op with
    | setMaintaining b => exact .maintain b
    | _ => exact .same
  | maintaining =>
    cases op with
    | copyRooms => exact .snapshot
    | _ => exact .same
  | closing rest =>
    cases rest with
    | nil =>
      cases op with
      | unlock => exact .unlock
      | unlockShared => exact .unlockShared
      | _ => exact .same
    | cons roomId rest =>
      cases op with
      | find key =>
        by_cases hmem : key ∈ s.manager.rooms
        · obtain ⟨room, hroom⟩ := Finmap.mem_iff.mp hmem
          simp only [RoomLock.exec, hroom, after]
          exact .same
        · simp only [RoomLock.exec, Finmap.lookup_eq_none.mpr hmem, after]
          by_cases hkey : key = roomId
          · rw [if_pos hkey, ← hkey]
            exact .absent hmem
          · rw [if_neg hkey]
            exact .same
      | erase key =>
        by_cases hkey : key = roomId
        · rw [after, if_pos hkey, ← hkey]
          exact .erase
        · rw [after, if_neg hkey]
          exact .same
      | _ => exact .same
  | done => cases op <;> exact .same

theorem Knows.shrink {d : DrainPhase} {m m' : RoomManager} (h : d.Knows m)
    (hmaintaining : m.isMaintaining = true → m'.isMaintaining = true)
    (hrooms : d.Sealed → (∀ r ∈ m'.rooms.keys, r ∈ m.rooms.keys) ∧ m'.roomCount ≤ m.roomCount)
    (hnonneg : 0 ≤ m'.roomCount) : d.Knows m' := by
  cases d with
  | serving => trivial
  | maintaining => exact hmaintaining h
  | closing rest => exact ⟨hmaintaining h.1, fun r hr => h.2 r ((hrooms trivial).1 r hr)⟩
  | done =>
    obtain ⟨hm, hkeys, hcount⟩ := h
    obtain ⟨hsub, hle⟩ := hrooms trivial
    refine ⟨hmaintaining hm, Finset.eq_empty_of_forall_notMem fun r hr => ?_, by omega⟩
    have hr' := hsub r hr
    rw [hkeys] at hr'
    exact Finset.notMem_empty r hr'

theorem Knows.done {m : RoomManager} (h : (closing []).Knows m)
    (hcount : m.roomCount = m.rooms.keys.card) : DrainPhase.done.Knows m := by
  have hempty : m.rooms.keys = ∅ :=
    Finset.eq_empty_of_forall_notMem fun r hr => List.not_mem_nil (h.2 r hr)
  refine ⟨h.1, hempty, ?_⟩
  rw [hcount, hempty]
  rfl

theorem DrainStep.copies {s : LockedRooms} {d d' : DrainPhase} {op : RoomOp}
    (h : DrainStep s d op d') (hd : ¬ d.Sealed) (hd' : d'.Sealed) : op = .copyRooms := by
  cases h with
  | snapshot => rfl
  | same => exact absurd hd' hd
  | maintain b => exact hd'.elim
  | _ => exact absurd trivial hd

theorem Knows.isMaintaining {d : DrainPhase} {m : RoomManager} (h : d.Knows m) (hd : d.Sealed) :
    m.isMaintaining = true := by
  cases d with
  | closing _ | done => exact h.1
  | _ => exact absurd hd id

end DrainPhase

namespace RoomLock.Effect
variable {s s' : LockedRooms} {φ φ' : LockPhase} {op : RoomOp}

theorem shrinks (h : Effect s φ op φ' s') (hφ : ¬ φ.Adding) :
    (∀ r ∈ s'.manager.rooms.keys, r ∈ s.manager.rooms.keys) ∧
      s'.manager.roomCount ≤ s.manager.roomCount := by
  cases h with
  | insert _ | fetchAdd => exact absurd trivial hφ
  | erase =>
    refine ⟨fun r hr => ?_, le_rfl⟩
    rw [Finmap.keys_erase] at hr
    exact Finset.mem_of_mem_erase hr
  | fetchSub => exact ⟨fun _ hr => hr, Int.sub_le_self _ (by omega)⟩
  | tick =>
    refine ⟨fun r hr => ?_, (RoomManager.tickRoom_roomCount _ _).le⟩
    rwa [RoomManager.tickRoom_keys] at hr
  | _ => exact ⟨fun _ hr => hr, le_rfl⟩

theorem isMaintaining (h : Effect s φ op φ' s') (hop : ∀ b, op = .setMaintaining b → b = true)
    (hs : s.manager.isMaintaining = true) : s'.manager.isMaintaining = true := by
  cases h with
  | setMaintaining b _ => exact hop b rfl
  | @tick roomId =>
    show (s.manager.tickRoom roomId).isMaintaining = true
    unfold RoomManager.tickRoom
    split <;> exact hs
  | _ => exact hs

end RoomLock.Effect

namespace RoomLock
variable {φ φ' : LockPhase}

theorem shared_of_copyRooms {res : Rooms} (h : next φ .copyRooms res = some φ') : φ = .shared := by
  cases φ with
  | shared => rfl
  | _ => cases h

theorem shared_of_unlockShared (h : next φ .unlockShared () = some φ') : φ = .shared := by
  cases φ with
  | shared => rfl
  | _ => cases h

theorem locked_of_unlock (h : next φ .unlock () = some φ') : φ = .locked := by
  cases φ with
  | locked => rfl
  | _ => cases h

end RoomLock

namespace StepPhase
variable {s : LockedRooms} {φ φ' : StepPhase} {op : RoomOp}

theorem next_room {res : op.Res} (h : φ.next (.room op) res = some φ') :
    φ.permits op = true ∧ RoomLock.next φ.lock op res = some φ'.lock ∧
      φ'.isOpen = φ.opened op res ∧ φ'.drain = φ.drain.after op res := by
  simp only [next, Option.ite_none_right_eq_some, Option.map_eq_some_iff] at h
  obtain ⟨hpermits, lock, hlock, rfl⟩ := h
  exact ⟨hpermits, hlock, rfl, rfl⟩

theorem opened_of_not_locked {res : op.Res} (hφ : φ.lock ≠ .locked)
    (h : φ.opened op res = true) : φ.isOpen = true := by
  cases op with
  | unlock => cases h
  | isMaintaining =>
    simp only [opened] at h
    exact h
  | _ => exact h

/-- The test for maintenance counts inside the section only, and comes before adding. -/
structure Valid (φ : StepPhase) : Prop where
  exclusive : φ.isOpen = true → φ.lock.Exclusive
  isOpen : φ.lock.Adding → φ.isOpen = true

theorem Valid.next (h : φ.Valid)
    (hnext : φ.next (.room op) (RoomLock.exec op s).1 = some φ') : φ'.Valid := by
  obtain ⟨hpermits, hlock, hopened, -⟩ := next_room hnext
  have heff := RoomLock.effect_of_next hlock
  obtain ⟨lock, isOpen, d⟩ := φ
  obtain ⟨lock', isOpen', d'⟩ := φ'
  obtain rfl : isOpen' = _ := hopened
  generalize (RoomLock.exec op s).2 = s' at heff
  generalize (RoomLock.exec op s).1 = res at hlock
  cases heff with
  | unlock => exact ⟨nofun, nofun⟩
  | readers n hφ hφ' =>
    refine ⟨fun ho => absurd (h.exclusive (opened_of_not_locked ?_ ho)) hφ, fun ha => ?_⟩
    · rintro rfl
      exact hφ trivial
    · cases lock' <;> first | exact absurd trivial hφ' | exact ha.elim
  | setMaintaining b hφ => exact ⟨fun ho => absurd (h.exclusive ho) hφ, fun ha => h.isOpen ha⟩
  | notFull _ => exact ⟨fun _ => trivial, fun _ => hpermits⟩
  | absent _ | generate | insert _ => exact ⟨fun _ => trivial, fun _ => h.isOpen trivial⟩
  | _ => exact ⟨fun _ => trivial, nofun⟩

end StepPhase

abbrev StepPhases (podIp : String) := ℕ → Option (PodRequest podIp × StepPhase)

def lockPhases {podIp : String} (phases : StepPhases podIp) : LockPhases := fun t =>
  (phases t).map fun thread => (.isInMaintenanceMode, thread.2.lock)

theorem lockPhases_of {podIp : String} {phases : StepPhases podIp} {t : ℕ}
    {req : PodRequest podIp} {φ : StepPhase} (h : phases t = some (req, φ)) :
    lockPhases phases t = some (.isInMaintenanceMode, φ.lock) := by
  rw [lockPhases, h]
  rfl

theorem lockPhases_update {podIp : String} (phases : StepPhases podIp) (t : ℕ)
    (req : PodRequest podIp) (φ : StepPhase) :
    lockPhases (Function.update phases t (some (req, φ))) =
      Function.update (lockPhases phases) t (some (.isInMaintenanceMode, φ.lock)) := by
  funext u
  by_cases hu : u = t
  · subst hu
    simp [lockPhases]
  · simp [lockPhases, hu]

/-- What a run keeps about maintenance: the thread of GracefulShutdown can rely on what it
knows, and once the snapshot is taken nobody is about to add a room. -/
structure DrainLife {podIp : String} (s : LockedRooms) (phases : StepPhases podIp) : Prop where
  valid : ∀ t req φ, phases t = some (req, φ) → φ.Valid
  knows : ∀ t req φ, phases t = some (req, φ) → φ.drain.Knows s.manager
  sealed : (Protocol.threads phases fun _ φ => φ.drain.Sealed).Nonempty →
    ∀ t req φ, phases t = some (req, φ) → φ.isOpen = false

namespace DrainLife
variable {podIp : String} {maxRooms : ℕ} {s : LockedRooms} {phases : StepPhases podIp} {t : ℕ}
  {req : PodRequest podIp} {φ φ' : StepPhase} {op : RoomOp}

theorem init (podIp : String) (s : LockedRooms) :
    DrainLife s (fun _ => none : StepPhases podIp) := by
  refine ⟨?_, ?_, ?_⟩
  · intro t req φ ht
    cases ht
  · intro t req φ ht
    cases ht
  · intro _ t req φ ht
    cases ht

theorem start (h : DrainLife s phases) (hfresh : phases t = none) (req : PodRequest podIp) :
    DrainLife s (Function.update phases t (some (req, .idle .serving))) := by
  refine ⟨Protocol.forall_update ⟨nofun, nofun⟩ fun u r ψ _ hu => h.valid u r ψ hu,
    Protocol.forall_update trivial fun u r ψ _ hu => h.knows u r ψ hu, fun hsealed => ?_⟩
  rw [Protocol.threads_start hfresh id] at hsealed
  exact Protocol.forall_update rfl fun u r ψ _ hu => h.sealed hsealed u r ψ hu

theorem closed_of_shared (h : DrainLife s phases) (hlife : LockLife maxRooms s (lockPhases phases))
    (hreaders : ReadersCounted s (lockPhases phases)) (ht : phases t = some (req, φ))
    (hshared : φ.lock = .shared) :
    ∀ u req' ψ, phases u = some (req', ψ) → ψ.isOpen = false := by
  have hfree : s.writer = false :=
    hreaders.free_of_shared (hshared ▸ lockPhases_of ht)
  intro u req' ψ hu
  rw [Bool.eq_false_iff]
  intro hopen
  have hwriter : u ∈ writers (lockPhases phases) :=
    (Protocol.mem_threads (lockPhases_of hu)).mpr ((h.valid u req' ψ hu).exclusive hopen)
  rw [hlife.writer_iff.mpr ⟨u, hwriter⟩] at hfree
  cases hfree

theorem knows_self (h : DrainLife s phases) (hlife : LockLife maxRooms s (lockPhases phases))
    (hreaders : ReadersCounted s (lockPhases phases)) (ht : phases t = some (req, φ))
    (hpermits : φ.permits op = true)
    (hlock : RoomLock.next φ.lock op (RoomLock.exec op s).1 = some φ'.lock)
    (hsame : φ.drain.Knows (RoomLock.exec op s).2.manager)
    (hstep : DrainPhase.DrainStep s φ.drain op φ'.drain) :
    φ'.drain.Knows (RoomLock.exec op s).2.manager := by
  have hknows := h.knows t req φ ht
  generalize φ.drain = d at hsame hstep hknows
  generalize φ'.drain = d' at hstep ⊢
  cases hstep with
  | same => exact hsame
  | maintain b => exact hpermits
  | snapshot => exact ⟨hknows, fun r hr => mem_inOrder.mpr hr⟩
  | @absent roomId rest hnot =>
    refine ⟨hknows.1, fun r hr => ?_⟩
    rcases List.mem_cons.mp (hknows.2 r hr) with rfl | hrest
    · exact absurd (Finmap.mem_keys.mp hr) hnot
    · exact hrest
  | @erase roomId rest =>
    refine ⟨hknows.1, fun r hr => ?_⟩
    have hmem : r ∈ (s.manager.rooms.erase roomId).keys := hr
    rw [Finmap.keys_erase, Finset.mem_erase] at hmem
    exact (List.mem_cons.mp (hknows.2 r hmem.2)).resolve_left hmem.1
  | unlock =>
    have hlocked := RoomLock.locked_of_unlock hlock
    have hcount := hlife.knows t _ _ (hlocked ▸ lockPhases_of ht)
    exact hknows.done hcount
  | unlockShared =>
    have hshared := RoomLock.shared_of_unlockShared hlock
    have hfree := hreaders.free_of_shared (hshared ▸ lockPhases_of ht)
    exact hknows.done (hlife.in_step hfree)

theorem kept (h : DrainLife s phases) (ht : phases t = some (req, φ))
    (hpermits : φ.permits op = true) {s' : LockedRooms}
    (heff : RoomLock.Effect s φ.lock op φ'.lock s') (hnonneg : 0 ≤ s'.manager.roomCount) :
    ∀ u req' ψ, phases u = some (req', ψ) → ψ.drain.Knows s'.manager := by
  intro u req' ψ hu
  refine (h.knows u req' ψ hu).shrink (heff.isMaintaining ?_) (fun hd => ?_) hnonneg
  · rintro b rfl
    exact hpermits
  · refine heff.shrinks fun hadding => ?_
    have hopen := (h.valid t req φ ht).isOpen hadding
    rw [h.sealed ⟨u, req', ψ, hu, hd⟩ t req φ ht] at hopen
    cases hopen

/-- After the snapshot nobody passes the test for maintenance. -/
theorem closed_of_sealed (h : DrainLife s phases) (ht : phases t = some (req, φ))
    (hsealed : (Protocol.threads phases fun _ φ => φ.drain.Sealed).Nonempty) :
    φ.opened op (RoomLock.exec op s).1 = false := by
  have hclosed := h.sealed hsealed t req φ ht
  obtain ⟨u, r, ψ, hu, hd⟩ := hsealed
  have hmaintaining := (h.knows u r ψ hu).isMaintaining hd
  cases op with
  | isMaintaining =>
    simp only [StepPhase.opened, RoomLock.exec, hmaintaining]
    split
    · rfl
    · exact hclosed
  | unlock => rfl
  | _ => exact hclosed

theorem step (h : DrainLife s phases) (hlife : LockLife maxRooms s (lockPhases phases))
    (hreaders : ReadersCounted s (lockPhases phases)) (ht : phases t = some (req, φ))
    (hnext : φ.next (.room op) (RoomLock.exec op s).1 = some φ')
    (hnonneg : 0 ≤ (RoomLock.exec op s).2.manager.roomCount) :
    DrainLife (RoomLock.exec op s).2 (Function.update phases t (some (req, φ'))) := by
  obtain ⟨hpermits, hlock, hopened, hdrain⟩ := StepPhase.next_room hnext
  have hstep : DrainPhase.DrainStep s φ.drain op φ'.drain :=
    hdrain ▸ DrainPhase.drainStep_after s φ.drain op
  have hkept := h.kept ht hpermits (RoomLock.effect_of_next hlock) hnonneg
  have hself := h.knows_self hlife hreaders ht hpermits hlock (hkept t req φ ht) hstep
  refine ⟨Protocol.forall_update ((h.valid t req φ ht).next hnext)
      fun u r ψ _ hu => h.valid u r ψ hu,
    Protocol.forall_update hself fun u r ψ _ hu => hkept u r ψ hu, fun hsealed => ?_⟩
  by_cases hbefore : (Protocol.threads phases fun _ φ => φ.drain.Sealed).Nonempty
  · refine Protocol.forall_update ?_ fun u r ψ _ hu => h.sealed hbefore u r ψ hu
    exact hopened.trans (h.closed_of_sealed ht hbefore)
  · -- the first snapshot is taken in this step, under the shared lock
    have hd : φ'.drain.Sealed := by
      obtain ⟨u, hu⟩ := hsealed
      rcases Protocol.mem_threads_update.mp hu with ⟨-, hd⟩ | ⟨-, hu⟩
      · exact hd
      · exact absurd ⟨u, hu⟩ hbefore
    obtain rfl := hstep.copies (fun hd => hbefore ⟨t, req, φ, ht, hd⟩) hd
    have hclosed := h.closed_of_shared hlife hreaders ht (RoomLock.shared_of_copyRooms hlock)
    refine Protocol.forall_update ?_ fun u r ψ _ hu => hclosed u r ψ hu
    rw [hopened]
    exact hclosed t req φ ht

end DrainLife

abbrev StepLog := List (Event StepOp StepOp.Res)

def tally : StepLog → Tally
  | [] => .empty
  | e :: es =>
    match e.op with
    | .room op => (tally es).after op
    | .pod _ => tally es

def EachDue : StepLog → Prop
  | [] => True
  | e :: es =>
    EachDue es ∧
      match e.op with
      | .room op => (tally es).Due op
      | .pod _ => True

namespace LockedPod
variable {sim : Simulator} {cfg : ServiceConfig} {scanPage : ScanPolicy} {maxRooms : ℕ}
  {redis : Store}

structure Life {podIp : String} (maxRooms : ℕ) (s : LockedPod sim) (phases : StepPhases podIp)
    (log : StepLog) : Prop where
  life : LockLife maxRooms s.rooms (lockPhases phases)
  readers : ReadersCounted s.rooms (lockPhases phases)
  tallied : LockTally (tally log) s.rooms (lockPhases phases)
  due : EachDue log
  drain : DrainLife s.rooms phases

theorem rooms_exec_pod {op : PodOp} (hop : op.callsRooms = false) (p : Pod sim) :
    (Pod.exec scanPage op p).2.server.rooms = p.server.rooms := by
  cases op with
  | server op =>
    cases op with
    | createSession _ _ | processTurn _ _ | getState _ | destroySession _ => rfl
    | redis op => cases op <;> rfl
    | _ => cases hop
  | setMaintenanceMode _ | getAllRooms => cases hop
  | _ => rfl

namespace Life
variable {podIp : String} {s : LockedPod sim} {phases : StepPhases podIp} {log : StepLog} {t : ℕ}
  {req : PodRequest podIp} {φ φ' : StepPhase}

theorem init : Life maxRooms (started (GameService.initState maxRooms redis) : LockedPod sim)
    (fun _ => none : StepPhases podIp) [] where
  life := .init maxRooms
  readers := .init maxRooms
  tallied := .init maxRooms
  due := trivial
  drain := .init podIp _

theorem start (h : Life maxRooms s phases log) (hfresh : phases t = none)
    (req : PodRequest podIp) :
    Life maxRooms s (Function.update phases t (some (req, .idle .serving))) log := by
  have hnone : lockPhases phases t = none := by
    rw [lockPhases, hfresh]
    rfl
  refine ⟨?_, ?_, ?_, h.due, h.drain.start hfresh req⟩
  · rw [lockPhases_update]
    exact h.life.start hnone _
  · rw [lockPhases_update]
    exact h.readers.start hnone _
  · rw [lockPhases_update]
    exact h.tallied.start _

theorem room (h : Life maxRooms s phases log) (ht : phases t = some (req, φ)) {op : RoomOp}
    (henabled : RoomLock.enabled op s.rooms = true)
    (hnext : φ.next (.room op) (RoomLock.exec op s.rooms).1 = some φ') :
    Life maxRooms (s.withRooms (RoomLock.exec op s.rooms).2)
      (Function.update phases t (some (req, φ')))
      (⟨t, .room op, (RoomLock.exec op s.rooms).1⟩ :: log) := by
  obtain ⟨hpermits, hlock, -, -⟩ := StepPhase.next_room hnext
  have heff := RoomLock.effect_of_next hlock
  have hat := lockPhases_of ht
  have hlife : LockLife maxRooms (RoomLock.exec op s.rooms).2
      (lockPhases (Function.update phases t (some (req, φ')))) := by
    rw [lockPhases_update]
    refine h.life.effect hat henabled heff ?_
    rintro newId rfl
    cases hpermits
  refine ⟨hlife, ?_, ?_, ⟨h.due, h.tallied.due h.life hat hlock⟩,
    h.drain.step h.life h.readers ht hnext hlife.bounded.count_nonneg⟩
  · rw [lockPhases_update]
    exact h.readers.effect hat henabled hlock
  · rw [lockPhases_update]
    exact h.tallied.effect h.life hat henabled hlock heff

theorem pod (h : Life maxRooms s phases log) (ht : phases t = some (req, φ)) {op : PodOp}
    (hnext : φ.next (.pod op) (Pod.exec scanPage op s.pod).1 = some φ') :
    Life maxRooms { s with pod := (Pod.exec scanPage op s.pod).2 }
      (Function.update phases t (some (req, φ')))
      (⟨t, .pod op, (Pod.exec scanPage op s.pod).1⟩ :: log) := by
  simp only [StepPhase.next, Option.ite_none_left_eq_some, Bool.not_eq_true, Option.some.injEq]
    at hnext
  obtain ⟨hcalls, rfl⟩ := hnext
  have hrooms : LockedPod.rooms { s with pod := (Pod.exec scanPage op s.pod).2 } = s.rooms :=
    congrArg (LockedRooms.mk · s.writer s.readers) (rooms_exec_pod hcalls s.pod)
  rw [Function.update_eq_self_iff.mpr ht.symm]
  refine ⟨?_, ?_, ?_, ⟨h.due, trivial⟩, ?_⟩
  · rw [hrooms]
    exact h.life
  · rw [hrooms]
    exact h.readers
  · rw [hrooms]
    exact h.tallied
  · rw [hrooms]
    exact h.drain

theorem of_viewReachable {v : View (LockedPod sim) (PodRequest cfg.podIp) StepOp StepOp.Res StepPhase}
    (h : (stepProtocol cfg.podIp).ViewReachable (system sim cfg scanPage) (fun _ => True)
      (fun _ _ _ _ => True) (started (GameService.initState maxRooms redis)) v) :
    Life maxRooms v.shared v.phases v.log := by
  induction h with
  | init => exact init
  | start _ hfresh _ ih => exact ih.start hfresh _
  | @op v t req φ φ' op _ ht henabled _ hnext ih =>
    cases op with
    | room op => exact ih.room ht henabled hnext
    | pod op => exact ih.pod ht hnext

end Life

end LockedPod
end PokemonServer
