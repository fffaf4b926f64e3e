import Mathlib

/-!
# The part of a Redis server that the repository uses

Commands, replies and the effect of each command on the key space. A command
executes at once and nothing expires. SCAN is the one command whose reply is
not determined by the contents: which keys a page returns and which cursor comes
next is the parameter `ScanPolicy`.
-/

namespace PokemonServer

inductive Command where
  | set (key value : String) (ex : ℤ)
  | get (key : String)
  | del (keys : List String)
  | sadd (key member : String)
  | keys (pattern : String)
  | scan (cursor : ℕ) (pattern : String) (count : ℕ)
  deriving DecidableEq

/-- The keys whose values the command can change. -/
def Command.writes : Command → List String
  | .set key _ _ | .sadd key _ => [key]
  | .del deleted => deleted
  | .get _ | .keys _ | .scan _ _ _ => []

theorem Command.cases_of_writes {cmd : Command} {key : String} (h : key ∈ cmd.writes) :
    (∃ value ex, cmd = .set key value ex) ∨ (∃ member, cmd = .sadd key member) ∨
      ∃ keys, cmd = .del keys ∧ key ∈ keys := by
  cases cmd with
  | set k value ex =>
    obtain rfl : key = k := List.mem_singleton.mp h
    exact Or.inl ⟨value, ex, rfl⟩
  | sadd k member =>
    obtain rfl : key = k := List.mem_singleton.mp h
    exact Or.inr (Or.inl ⟨member, rfl⟩)
  | del keys => exact Or.inr (Or.inr ⟨keys, rfl, h⟩)
  | get _ | keys _ | scan _ _ _ => cases h

/-- A command of another client that does not write `key`. -/
structure ForeignCommand (key : String) where
  cmd : Command
  spares : key ∉ cmd.writes

inductive Reply where
  | status (str : String)
  | error (str : String)
  | integer (n : ℤ)
  | string (str : String)
  | nil
  | array (elements : List Reply)

namespace Reply

def isStatusOk : Reply → Bool
  | .status str => str == "OK"
  | _ => false

def isInteger : Reply → Bool
  | .integer _ => true
  | _ => false

def isNonnegInteger : Reply → Bool
  | .integer n => 0 ≤ n
  | _ => false

def str : Reply → String
  | .status s | .error s | .string s => s
  | _ => ""

end Reply

inductive RedisValue where
  | string (value : String)
  | set (members : Finset String)
  deriving DecidableEq

abbrev Store := AList (fun _ : String => RedisValue)

abbrev ScanPolicy := Store → ℕ → List String × ℕ

/-- The glob patterns of KEYS and MATCH, for literal characters and `*`. -/
def glob : List Char → List Char → Bool
  | [], s => s.isEmpty
  | '*' :: ps, s => s.tails.any (glob ps)
  | p :: ps, s =>
    match s with
    | [] => false
    | c :: cs => p == c && glob ps cs

def matchesPattern (pattern key : String) : Bool := glob pattern.toList key.toList

theorem glob_star (s : List Char) : glob ['*'] s = true := by
  have hnil : ([] : List Char) ∈ s.tails := by simp
  simp only [glob, List.any_eq_true]
  exact ⟨[], hnil, rfl⟩

theorem glob_prefix (p : List Char) (hp : '*' ∉ p) (s : List Char) :
    glob (p ++ ['*']) s = true ↔ p <+: s := by
  induction p generalizing s with
  | nil => simp [glob_star]
  | cons a p ih =>
    have ha : a ≠ '*' := fun h => hp (h ▸ List.mem_cons_self)
    have hp' : '*' ∉ p := fun h => hp (List.mem_cons_of_mem _ h)
    cases s with
    | nil =>
      have : glob (a :: (p ++ ['*'])) [] = false := by
        unfold glob
        split <;> simp_all
      simp [this]
    | cons c cs =>
      have : glob (a :: (p ++ ['*'])) (c :: cs) = (a == c && glob (p ++ ['*']) cs) := by
        conv_lhs => unfold glob
        split <;> simp_all
      simp [this, ih hp', List.cons_prefix_cons]

def wrongType : Reply :=
  .error "WRONGTYPE Operation against a key holding the wrong kind of value"

namespace Store

/-- DEL: erases the keys in turn, counting those that were there. -/
def delKeys : List String → Store → ℤ × Store
  | [], s => (0, s)
  | key :: keys, s =>
    let rest := delKeys keys (s.erase key)
    (rest.1 + (if key ∈ s then 1 else 0), rest.2)

def exec (scanPage : ScanPolicy) : Command → Store → Reply × Store
  | .set key value _, s => (.status "OK", s.insert key (.string value))
  | .get key, s =>
    match s.lookup key with
    | some (.string value) => (.string value, s)
    | some (.set _) => (wrongType, s)
    | none => (.nil, s)
  | .del keys, s => (.integer (delKeys keys s).1, (delKeys keys s).2)
  | .sadd key member, s =>
    match s.lookup key with
    | some (.set members) =>
      (.integer (if member ∈ members then 0 else 1), s.insert key (.set (insert member members)))
    | some (.string _) => (wrongType, s)
    | none => (.integer 1, s.insert key (.set {member}))
  | .keys pattern, s =>
    (.array ((s.keys.filter (matchesPattern pattern)).map .string), s)
  | .scan cursor pattern _, s =>
    (.array [.string (toString (scanPage s cursor).2),
      .array (((scanPage s cursor).1.filter (matchesPattern pattern)).map .string)], s)

theorem mem_of_lookup {s : Store} {key : String} {value : RedisValue}
    (h : s.lookup key = some value) : key ∈ s := by
  rw [← AList.lookup_isSome, h]
  rfl

theorem mem_congr {s s' : Store} {key : String} (h : s'.lookup key = s.lookup key) :
    key ∈ s' ↔ key ∈ s := by
  rw [← AList.lookup_isSome, ← AList.lookup_isSome, h]

theorem lookup_of_kept {s s' : Store} {key : String}
    (h : s'.lookup key = none ∨ s'.lookup key = s.lookup key) (hkey : key ∈ s') :
    s'.lookup key = s.lookup key := by
  rcases h with hnone | hsame
  · exact absurd hkey (AList.lookup_eq_none.mp hnone)
  · exact hsame

theorem lookup_delKeys (keys : List String) (s : Store) (k : String) :
    (delKeys keys s).2.lookup k = if k ∈ keys then none else s.lookup k := by
  induction keys generalizing s with
  | nil => simp [delKeys]
  | cons key keys ih =>
    simp only [delKeys, ih, List.mem_cons]
    by_cases hk : k = key
    · subst hk
      simp
    · simp [hk, AList.lookup_erase_ne hk]

theorem lookup_exec_of_not_writes (scanPage : ScanPolicy) {cmd : Command} {k : String}
    (hk : k ∉ cmd.writes) (s : Store) : (exec scanPage cmd s).2.lookup k = s.lookup k := by
  cases cmd with
  | set key value ex =>
    have hne : k ≠ key := by simpa [Command.writes] using hk
    exact AList.lookup_insert_ne hne
  | get key =>
    simp only [exec]
    split <;> rfl
  | del keys => exact (lookup_delKeys keys s k).trans (if_neg hk)
  | sadd key member =>
    have hne : k ≠ key := by simpa [Command.writes] using hk
    simp only [exec]
    split
    · exact AList.lookup_insert_ne hne
    · rfl
    · exact AList.lookup_insert_ne hne
  | keys pattern | scan cursor pattern count => rfl

end Store
end PokemonServer
