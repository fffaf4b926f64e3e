import PokemonServer.SnapshotScan

/-!
# SCAN page by page

What a SCAN returns is free but for two things: a key that is returned has been there,
and when the cursor comes back to 0, every key that was there for all the SCANs of the
iteration has been returned. Keys may come in any order, on any page, any number of times.
-/

namespace PokemonServer
open Interleaving RedisClient

/-- What Redis answers to the n-th SCAN, for the cursor that is sent. -/
abbrev ScanPages := ℕ → ℕ → List String × ℕ

def Command.scans : Command → ℕ
  | .scan _ _ _ => 1
  | _ => 0

def Store.paged (pages : ScanPages) : RedisBackend (Store × ℕ) where
  isConnected _ := true
  command cmd st :=
    let r := Store.exec (fun _ => pages st.2) cmd st.1
    (some r.1, (r.2, st.2 + cmd.scans))

namespace ScanPages
variable (pages : ScanPages)

def cursor : ℕ → ℕ
  | 0 => 0
  | n + 1 => (pages n (cursor n)).2

def page (n : ℕ) : List String := (pages n (pages.cursor n)).1.filter isRoomKey

def keys (n : ℕ) : List String := (List.range n).flatMap pages.page

structure EndsAt (last : ℕ) : Prop where
  ends : pages.cursor (last + 1) = 0
  goes : ∀ k < last, pages.cursor (k + 1) ≠ 0

/-- Redis's guarantee, for the contents `stores k` at the k-th SCAN. -/
structure Allowed (stores : ℕ → Store) (last : ℕ) : Prop extends pages.EndsAt last where
  stored : ∀ k ≤ last, ∀ key ∈ pages.page k, ∃ j ≤ k, key ∈ stores j
  returned : ∀ key, isRoomKey key = true → (∀ k ≤ last, key ∈ stores k) →
    ∃ k ≤ last, key ∈ pages.page k

theorem keys_succ (n : ℕ) : pages.keys (n + 1) = pages.keys n ++ pages.page n := by
  rw [keys, List.range_succ, List.flatMap_append, List.flatMap_singleton, keys]

variable {pages}

theorem mem_keys {n : ℕ} {key : String} :
    key ∈ pages.keys (n + 1) ↔ ∃ k ≤ n, key ∈ pages.page k := by
  simp only [keys, List.mem_flatMap, List.mem_range, Nat.lt_succ_iff]

theorem isRoomKey_of_mem_keys {n : ℕ} {key : String} (h : key ∈ pages.keys n) :
    isRoomKey key = true := by
  obtain ⟨k, -, hkey⟩ := List.mem_flatMap.mp h
  exact (List.mem_filter.mp hkey).2

end ScanPages

/-- A stored room: its key is not taken for a command key, and its value is a string. -/
structure Listed (s : Store) (key value : String) : Prop where
  matched : isRoomKey key = true
  notCommand : isCommandKey key = false
  stored : s.lookup key = some (.string value)

theorem snapshotOf_eq_some {s : Store} {key value : String} (hroom : isRoomKey key = true)
    (hnul : '\x00' ∉ key.toList) :
    snapshotOf s key = some (key, value) ↔ Listed s key value := by
  rw [snapshotOf_eq_some_iff, cstr_of_noNul hnul]
  constructor
  · rintro ⟨hcommand, hlookup⟩
    exact ⟨hroom, hcommand, hlookup⟩
  · intro h
    exact ⟨h.notCommand, h.stored⟩

theorem listed_congr {s s' : Store} {key value : String} (h : s'.lookup key = s.lookup key) :
    Listed s' key value ↔ Listed s key value := by
  constructor
  · intro hlisted
    exact ⟨hlisted.matched, hlisted.notCommand, h ▸ hlisted.stored⟩
  · intro hlisted
    exact ⟨hlisted.matched, hlisted.notCommand, h ▸ hlisted.stored⟩

def RedisOp.NoScan : RedisOp → Prop
  | .command (.scan _ _ _) => False
  | _ => True

section run
variable {pages : ScanPages}

theorem exec_paged {op : RedisOp} (hop : op.NoScan) (s : Store) (n : ℕ) :
    (Store.paged pages).exec op (s, n) =
      (((Store.backend fun _ => pages n).exec op s).1,
        (((Store.backend fun _ => pages n).exec op s).2, n)) := by
  cases op with
  | isConnected => rfl
  | command cmd =>
    cases cmd with
    | scan cursor pattern count => exact hop.elim
    | _ => rfl

theorem run_paged {α : Type} {p : Client α} (hp : p.Issues RedisOp.NoScan) (s : Store) (n : ℕ) :
    p.run (Store.paged pages).exec (s, n) =
      ((p.run (Store.backend fun _ => pages n).exec s).1,
        ((p.run (Store.backend fun _ => pages n).exec s).2, n)) := by
  induction p generalizing s with
  | ret a => rfl
  | call op next ih =>
    rw [Prog.run_call, Prog.run_call, exec_paged hp.1]
    exact ih _ (hp.2 _) _

variable {β : Type} {visit : String → String → β → Client β}
  {visitPage : List String → β × Store → β × Store} {last : ℕ}

/-- What the SCAN loop has come to before each SCAN. -/
def afterPages (pages : ScanPages) (visitPage : List String → β × Store → β × Store)
    (st : β × Store) : ℕ → β × Store
  | 0 => st
  | n + 1 => visitPage (pages.page n) (afterPages pages visitPage st n)

structure Visits (visit : String → String → β → Client β)
    (visitPage : List String → β × Store → β × Store) : Prop where
  run : ∀ scanPage keys st, (visitKeys visit (keys.map .string) st.1).run
    (Store.backend scanPage).exec st.2 = visitPage keys st
  issues : ∀ key value acc, (visit key value acc).Issues RedisOp.NoScan

variable (hvisit : Visits visit visitPage)
include hvisit

theorem scanRooms_page (fuel n : ℕ) (st : β × Store) :
    (scanRooms visit (fuel + 1) (pages.cursor n) st.1).run (Store.paged pages).exec (st.2, n) =
      let st' := visitPage (pages.page n) st
      if pages.cursor (n + 1) = 0 then (some st'.1, (st'.2, n + 1))
      else (scanRooms visit fuel (pages.cursor (n + 1)) st'.1).run (Store.paged pages).exec
        (st'.2, n + 1) := by
  have hissues : (visitKeys visit ((pages.page n).map .string) st.1).Issues RedisOp.NoScan :=
    visitKeys_issues (fun _ => trivial) hvisit.issues _ _
  have hscan : (Store.paged pages).exec
        (.command (.scan (pages.cursor n) "pokemon:room:*" 128)) (st.2, n) =
      (some (.array [.string (toString (pages.cursor (n + 1))),
        .array ((pages.page n).map .string)]), (st.2, n + 1)) := rfl
  rw [scanRooms_turn _ _ _ hscan, run_paged hissues, hvisit.run]

theorem scanRooms_cutOff (hgoes : ∀ k < last, pages.cursor (k + 1) ≠ 0) (st : β × Store)
    (fuel n : ℕ) (hfuel : n + fuel ≤ last) :
    (scanRooms visit fuel (pages.cursor n) (afterPages pages visitPage st n).1).run
        (Store.paged pages).exec ((afterPages pages visitPage st n).2, n) =
      (none, ((afterPages pages visitPage st (n + fuel)).2, n + fuel)) := by
  induction fuel generalizing n with
  | zero => rfl
  | succ fuel ih =>
    have hnext := ih (n + 1) (by omega)
    rw [Nat.add_right_comm] at hnext
    rw [scanRooms_page hvisit]
    simp only [if_neg (hgoes n (by omega))]
    exact hnext

theorem scanRooms_ends (hscan : pages.EndsAt last) (st : β × Store) (left n fuel : ℕ)
    (hleft : n + left = last) (hfuel : left < fuel) :
    (scanRooms visit fuel (pages.cursor n) (afterPages pages visitPage st n).1).run
        (Store.paged pages).exec ((afterPages pages visitPage st n).2, n) =
      (some (afterPages pages visitPage st (last + 1)).1,
        ((afterPages pages visitPage st (last + 1)).2, last + 1)) := by
  induction left generalizing n fuel with
  | zero =>
    obtain rfl : n = last := by omega
    obtain ⟨fuel, rfl⟩ := Nat.exists_eq_add_of_lt hfuel
    rw [Nat.zero_add, scanRooms_page hvisit]
    simp only [if_pos hscan.ends]
    rfl
  | succ left ih =>
    obtain ⟨fuel, rfl⟩ : ∃ more, fuel = more + 1 := ⟨fuel - 1, by omega⟩
    rw [scanRooms_page hvisit]
    simp only [if_neg (hscan.goes n (by omega))]
    exact ih (n + 1) fuel (by omega) (by omega)

end run
end PokemonServer
