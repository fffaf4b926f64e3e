import Mathlib

/-!
# JSON values and the accessors of nlohmann::json that the server uses

An object is its list of fields in key order, as in the std::map underneath.
Strings are valid Unicode, so serialisation is total. The text format itself is
a parameter (`JsonText`): the library that parses and dumps is not part of the
repository.
-/

namespace PokemonServer

inductive Json where
  | null
  | bool (b : Bool)
  | int (n : ℤ)
  | float (q : ℚ)
  | string (s : String)
  | array (elems : List Json)
  | object (fields : List (String × Json))

/-- A C++ exception, by the text of its `what()`. -/
structure Exn where
  what : String
  deriving DecidableEq

structure JsonText where
  parse : String → Except Exn Json
  dump : Json → String

namespace Json

def typeName : Json → String
  | .null => "null"
  | .bool _ => "boolean"
  | .int _ | .float _ => "number"
  | .string _ => "string"
  | .array _ => "array"
  | .object _ => "object"

def typeError302 (expected : String) (j : Json) : Exn :=
  ⟨"[json.exception.type_error.302] type must be " ++ expected ++ ", but is " ++ j.typeName⟩

def typeError306 (j : Json) : Exn :=
  ⟨"[json.exception.type_error.306] cannot use value() with " ++ j.typeName⟩

def field? (j : Json) (key : String) : Option Json :=
  match j with
  | .object fields => fields.lookup key
  | _ => none

def contains (j : Json) (key : String) : Bool := (j.field? key).isSome

def index (j : Json) (key : String) : Json := (j.field? key).getD .null

def getBool : Json → Except Exn Bool
  | .bool b => .ok b
  | j => .error (typeError302 "boolean" j)

def getString : Json → Except Exn String
  | .string s => .ok s
  | j => .error (typeError302 "string" j)

/-- get<int>(): static_cast to a 32-bit int from any number or boolean. A
fraction is cut off; what does not fit wraps. -/
def getInt : Json → Except Exn ℤ
  | .bool b => .ok (if b then 1 else 0)
  | .int n => .ok (n.bmod (2 ^ 32))
  | .float q => .ok ((q.num.tdiv q.den).bmod (2 ^ 32))
  | j => .error (typeError302 "number" j)

def valueBool (j : Json) (key : String) (default : Bool) : Except Exn Bool :=
  match j with
  | .object fields =>
    match fields.lookup key with
    | some v => v.getBool
    | none => .ok default
  | j => .error (typeError306 j)

def insertField (key : String) (v : Json) : List (String × Json) → List (String × Json)
  | [] => [(key, v)]
  | (k, w) :: rest =>
    if key < k then (key, v) :: (k, w) :: rest
    else if key = k then (key, v) :: rest
    else (k, w) :: insertField key v rest

/-- operator[](key) = v on an object (or on null, which becomes an object). -/
def setField (j : Json) (key : String) (v : Json) : Json :=
  match j with
  | .object fields => .object (insertField key v fields)
  | _ => .object [(key, v)]

theorem lookup_cons_eq_ite (key : String) (v : Json) (fields : List (String × Json)) (k : String) :
    ((key, v) :: fields).lookup k = if k = key then some v else fields.lookup k := by
  rw [List.lookup_cons]
  by_cases hk : k = key
  · simp [hk]
  · simp [hk, beq_eq_false_iff_ne.mpr hk]

theorem lookup_insertField (key : String) (v : Json) (fields : List (String × Json)) (k : String) :
    (insertField key v fields).lookup k = if k = key then some v else fields.lookup k := by
  induction fields with
  | nil => exact lookup_cons_eq_ite key v [] k
  | cons field rest ih =>
    obtain ⟨k', w⟩ := field
    rw [insertField]
    split
    · exact lookup_cons_eq_ite key v _ k
    · split
      · rename_i heq
        subst heq
        rw [lookup_cons_eq_ite, lookup_cons_eq_ite]
        split <;> rfl
      · rename_i hne
        rw [lookup_cons_eq_ite, lookup_cons_eq_ite, ih]
        by_cases hk : k = key
        · rw [if_pos hk, if_pos hk, if_neg fun hk' => hne (hk.symm.trans hk')]
        · rw [if_neg hk, if_neg hk]

theorem field?_setField (j : Json) (key : String) (v : Json) (k : String) :
    (j.setField key v).field? k = if k = key then some v else j.field? k := by
  cases j with
  | object fields => exact lookup_insertField key v fields k
  | _ => exact lookup_cons_eq_ite key v [] k

end Json
end PokemonServer
