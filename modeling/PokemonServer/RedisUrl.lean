import PokemonServer.Json

/-!
# The parsing of REDIS_URL

Start cuts the URL at its first colon and reads the port with std::stoi. README gives
the format as `host:port`. std::stoi takes more than port numbers: white space and a
sign in front, any text behind, and every number that fits an int.
-/

namespace PokemonServer

def isSpace (c : Char) : Bool := [' ', '\t', '\n', '\x0b', '\x0c', '\r'].contains c

def splitSign : List Char → Bool × List Char
  | '-' :: cs => (true, cs)
  | '+' :: cs => (false, cs)
  | cs => (false, cs)

/-- The sign and the digits that std::strtol takes of a text in base ten. -/
def leadingInt (s : String) : Bool × List Char :=
  let signed := splitSign (s.toList.dropWhile isSpace)
  (signed.1, signed.2.takeWhile Char.isDigit)

def intValue (negative : Bool) (digits : List Char) : ℤ :=
  if negative then -(Nat.ofDigitChars 10 digits 0) else Nat.ofDigitChars 10 digits 0

/-- std::stoi. It throws invalid_argument without digits and out_of_range for a number
that does not fit an int. -/
def stoi (s : String) : Except Exn ℤ :=
  let n := intValue (leadingInt s).1 (leadingInt s).2
  if (leadingInt s).2 = [] then .error ⟨"stoi"⟩
  else if -2 ^ 31 ≤ n ∧ n < 2 ^ 31 then .ok n
  else .error ⟨"stoi"⟩

/-- std::string::find, none for npos. -/
def find (s : String) (c : Char) : Option ℕ :=
  if c ∈ s.toList then some (s.toList.idxOf c) else none

/-- The first part of Start; none is its "Invalid Redis URL format". -/
def parseRedisUrl (redisUrl : String) : Option (String × ℤ) :=
  match find redisUrl ':' with
  | some colonPos =>
    let redisHost := String.ofList (redisUrl.toList.take colonPos)
    match stoi (String.ofList (redisUrl.toList.drop (colonPos + 1))) with
    | .ok redisPort => some (redisHost, redisPort)
    | .error _ => none
  | none => some (redisUrl, 6379)

/-- A text that denotes a port: decimal digits, of a number between 1 and 65535. -/
structure IsPort (q : String) (port : ℤ) : Prop where
  nonempty : q.toList ≠ []
  digits : ∀ c ∈ q.toList, c.isDigit = true
  value : port = Nat.ofDigitChars 10 q.toList 0
  pos : 1 ≤ port
  le : port ≤ 65535

/-- The documented format, with the default port when there is no colon. -/
def RedisUrlFormat (url host : String) (port : ℤ) : Prop :=
  ':' ∉ url.toList ∧ host = url ∧ port = 6379 ∨
    ∃ q, url = host ++ ":" ++ q ∧ ':' ∉ host.toList ∧ IsPort q port

/-- The text begins, after white space and a sign, with the digits of a number that
fits an int. -/
structure StartsWithInt (q : String) (n : ℤ) : Prop where
  digits : (leadingInt q).2 ≠ []
  value : n = intValue (leadingInt q).1 (leadingInt q).2
  fits : -2 ^ 31 ≤ n ∧ n < 2 ^ 31

theorem stoi_eq_ok {s : String} {n : ℤ} : stoi s = .ok n ↔ StartsWithInt s n := by
  constructor
  · intro h
    rw [stoi] at h
    by_cases hdigits : (leadingInt s).2 = []
    · rw [if_pos hdigits] at h
      cases h
    · rw [if_neg hdigits] at h
      split at h
      · rename_i hfits
        cases h
        exact ⟨hdigits, rfl, hfits⟩
      · cases h
  · intro h
    obtain ⟨hdigits, hvalue, hfits⟩ := h
    subst hvalue
    rw [stoi, if_neg hdigits, if_pos hfits]

theorem splitSign_of_digit {c : Char} (hc : c.isDigit = true) (cs : List Char) :
    splitSign (c :: cs) = (false, c :: cs) := by
  unfold splitSign
  split
  · rename_i heq
    cases heq
    cases hc
  · rename_i heq
    cases heq
    cases hc
  · rfl

theorem isSpace_of_digit {c : Char} (hc : c.isDigit = true) : isSpace c = false := by
  rw [Bool.eq_false_iff]
  intro hspace
  have hmem : c ∈ [' ', '\t', '\n', '\x0b', '\x0c', '\r'] := List.contains_iff_mem.mp hspace
  simp only [List.mem_cons, List.not_mem_nil, or_false] at hmem
  rcases hmem with rfl | rfl | rfl | rfl | rfl | rfl <;> cases hc

theorem leadingInt_of_digits {q : String} (h : ∀ c ∈ q.toList, c.isDigit = true) :
    leadingInt q = (false, q.toList) := by
  have hall : q.toList.takeWhile Char.isDigit = q.toList := List.takeWhile_eq_self_iff.mpr h
  unfold leadingInt
  cases hq : q.toList with
  | nil => rfl
  | cons c cs =>
    rw [hq] at h hall
    have hc := h c List.mem_cons_self
    rw [List.dropWhile_cons_of_neg (by simp [isSpace_of_digit hc]), splitSign_of_digit hc]
    exact Prod.ext rfl hall

theorem IsPort.startsWithInt {q : String} {port : ℤ} (h : IsPort q port) : StartsWithInt q port := by
  have hread := leadingInt_of_digits h.digits
  have hpos := h.pos
  have hle := h.le
  refine ⟨?_, ?_, by omega⟩
  · rw [hread]
    exact h.nonempty
  · rw [hread]
    exact h.value

theorem parseRedisUrl_of_colon {host : String} (hhost : ':' ∉ host.toList) (q : String) :
    parseRedisUrl (host ++ ":" ++ q) =
      match stoi q with
      | .ok port => some (host, port)
      | .error _ => none := by
  have hlist : (host ++ ":" ++ q).toList = host.toList ++ ':' :: q.toList := by
    simp [String.toList_append]
  have hindex : (host.toList ++ ':' :: q.toList).idxOf ':' = host.toList.length := by
    rw [List.idxOf_append_of_notMem hhost, List.idxOf_cons_self, Nat.add_zero]
  have hfind : find (host ++ ":" ++ q) ':' = some host.toList.length := by
    rw [find, hlist, if_pos (by simp), hindex]
  rw [parseRedisUrl, hfind, hlist]
  simp only [List.take_left', List.drop_length_add_append, String.ofList_toList, List.drop_succ_cons,
    List.drop_zero]

theorem parseRedisUrl_of_no_colon {url : String} (h : ':' ∉ url.toList) :
    parseRedisUrl url = some (url, 6379) := by
  rw [parseRedisUrl, find, if_neg h]

def ParsesExactly (url : String) : Prop :=
  ∀ host port, parseRedisUrl url = some (host, port) ↔ RedisUrlFormat url host port

theorem parsesExactly_of_no_colon {url : String} (h : ':' ∉ url.toList) : ParsesExactly url := by
  intro host port
  rw [parseRedisUrl_of_no_colon h, Option.some.injEq, Prod.mk.injEq]
  constructor
  · intro heq
    exact Or.inl ⟨h, heq.1.symm, heq.2.symm⟩
  · intro hformat
    rcases hformat with ⟨-, hhost, hport⟩ | ⟨q, rfl, -⟩
    · exact ⟨hhost.symm, hport.symm⟩
    · simp [String.toList_append] at h

theorem split_unique {host host' q q' : String} (hhost : ':' ∉ host.toList)
    (hhost' : ':' ∉ host'.toList) (h : host ++ ":" ++ q = host' ++ ":" ++ q') :
    host = host' ∧ q = q' := by
  have htake : ∀ l m : List Char, ':' ∉ l → (l ++ ':' :: m).takeWhile (· ≠ ':') = l := by
    intro l m hl
    rw [List.takeWhile_append_of_pos]
    · simp
    · intro c hc
      simp only [ne_eq, decide_eq_true_eq]
      rintro rfl
      exact hl hc
  have hlists := congrArg String.toList h
  simp only [String.toList_append, String.reduceToList, List.append_assoc, List.cons_append,
    List.nil_append] at hlists
  have hsame := congrArg (List.takeWhile (· ≠ ':')) hlists
  rw [htake _ _ hhost, htake _ _ hhost'] at hsame
  rw [hsame] at hlists
  have htail := List.append_cancel_left hlists
  exact ⟨String.toList_inj.mp hsame, String.toList_inj.mp (List.cons.inj htail).2⟩

theorem redisUrlFormat_of_colon {host : String} (hhost : ':' ∉ host.toList) (q host' : String)
    (port : ℤ) :
    RedisUrlFormat (host ++ ":" ++ q) host' port ↔ host' = host ∧ IsPort q port := by
  constructor
  · intro h
    rcases h with ⟨hno, -⟩ | ⟨q', heq, hhost', hport⟩
    · simp [String.toList_append] at hno
    · obtain ⟨rfl, rfl⟩ := split_unique hhost hhost' heq
      exact ⟨rfl, hport⟩
  · intro h
    obtain ⟨rfl, hport⟩ := h
    exact Or.inr ⟨q, rfl, hhost, hport⟩

theorem parsesExactly_of_colon {host : String} (hhost : ':' ∉ host.toList) (q : String) :
    ParsesExactly (host ++ ":" ++ q) ↔ (∃ port, IsPort q port) ∨ ¬ ∃ n, StartsWithInt q n := by
  constructor
  · intro h
    by_cases hread : ∃ n, StartsWithInt q n
    · obtain ⟨n, hn⟩ := hread
      have hparse : parseRedisUrl (host ++ ":" ++ q) = some (host, n) := by
        rw [parseRedisUrl_of_colon hhost, stoi_eq_ok.mpr hn]
      have hformat := (h host n).mp hparse
      exact Or.inl ⟨n, ((redisUrlFormat_of_colon hhost q host n).mp hformat).2⟩
    · exact Or.inr hread
  · intro h host' port
    rw [redisUrlFormat_of_colon hhost, parseRedisUrl_of_colon hhost]
    rcases h with ⟨p, hp⟩ | hno
    · rw [stoi_eq_ok.mpr hp.startsWithInt]
      simp only [Option.some.injEq, Prod.mk.injEq]
      constructor
      · intro heq
        exact ⟨heq.1.symm, heq.2 ▸ hp⟩
      · intro hport
        exact ⟨hport.1.symm, hp.value.trans hport.2.value.symm⟩
    · constructor
      · intro hparse
        cases hstoi : stoi q with
        | ok n => exact absurd ⟨n, stoi_eq_ok.mp hstoi⟩ hno
        | error exn =>
          rw [hstoi] at hparse
          cases hparse
      · intro hport
        exact absurd ⟨port, hport.2.startsWithInt⟩ hno

/-- The parser accepts exactly the format on the URLs without a colon and on those whose
text after the first colon is a port or does not start with an int at all. -/
theorem parsesExactly_iff (url : String) :
    ParsesExactly url ↔ ∀ host q, url = host ++ ":" ++ q → ':' ∉ host.toList →
      (∃ port, IsPort q port) ∨ ¬ ∃ n, StartsWithInt q n := by
  by_cases hcolon : ':' ∈ url.toList
  · obtain ⟨before, after, hsplit, hbefore⟩ := List.eq_append_cons_of_mem hcolon
    have hurl : url = String.ofList before ++ ":" ++ String.ofList after := by
      rw [← String.toList_inj, hsplit]
      simp [String.toList_append]
    have hhost : ':' ∉ (String.ofList before).toList := by
      rwa [String.toList_ofList]
    rw [hurl, parsesExactly_of_colon hhost]
    constructor
    · intro h host q heq hhost'
      obtain ⟨-, rfl⟩ := split_unique hhost hhost' heq
      exact h
    · intro h
      exact h _ _ rfl hhost
  · refine iff_of_true (parsesExactly_of_no_colon hcolon) ?_
    rintro host q rfl
    simp [String.toList_append] at hcolon

theorem mistyped_port_accepted : ¬ ParsesExactly "redis:6379x" := by
  intro h
  have hparse : parseRedisUrl "redis:6379x" = some ("redis", 6379) := by decide +kernel
  have hformat := (h "redis" 6379).mp hparse
  have hhost : ':' ∉ "redis".toList := by decide
  have hport := (redisUrlFormat_of_colon hhost "6379x" "redis" 6379).mp hformat
  have hdigit := hport.2.digits 'x' (by decide)
  cases hdigit

end PokemonServer
