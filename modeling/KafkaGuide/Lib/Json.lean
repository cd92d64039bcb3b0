import Mathlib.Data.Rat.Defs
import KafkaGuide.Lib.Dict
/-!
# Json — JSON values as the language's own objects

A decoded JSON text: numbers are exact, an object is its list of members.  `get` is the lookup with a default,
`truthy` the truth value, and `key?` the value as a dictionary key: a list or an object is unhashable, and `true` is
the key `1`.
-/

inductive Json where
  | null
  | bool (b : Bool)
  | num (q : ℚ)
  | str (s : String)
  | arr (xs : List Json)
  | obj (members : List (String × Json))
deriving Inhabited

namespace Json

/-- A hashable JSON value: equal numbers are one key. -/
inductive Key where
  | null
  | num (q : ℚ)
  | str (s : String)
deriving DecidableEq

def key? : Json → Option Key
  | .null => some .null
  | .bool b => some (.num (if b then 1 else 0))
  | .num q => some (.num q)
  | .str s => some (.str s)
  | .arr _ => none
  | .obj _ => none

/-- `bool(v)`. -/
def truthy : Json → Bool
  | .null => false
  | .bool b => b
  | .num q => decide (q ≠ 0)
  | .str s => decide (s ≠ "")
  | .arr xs => !xs.isEmpty
  | .obj ms => !ms.isEmpty

/-- Equal keys have one truth value. -/
def Key.truthy : Key → Bool
  | .null => false
  | .num q => decide (q ≠ 0)
  | .str s => decide (s ≠ "")

theorem truthy_of_key? {v : Json} {k : Key} (h : v.key? = some k) : v.truthy = k.truthy := by
  cases v with
  | bool b =>
    cases h
    cases b <;> simp [truthy, Key.truthy]
  | null | num | str =>
    cases h
    rfl
  | arr | obj => cases h

/-- `v == s`, for a string literal `s`. -/
def isStr : Json → String → Bool
  | .str t, s => decide (t = s)
  | _, _ => false

@[simp] theorem isStr_str (t s : String) : isStr (.str t) s = decide (t = s) := rfl

theorem isStr_iff {v : Json} {s : String} : v.isStr s = true ↔ v = .str s := by
  cases v <;> simp [isStr]

/-- `v == n`, for an integer literal `n`. -/
def isNum : Json → Int → Bool
  | .num q, n => decide (q = n)
  | .bool b, n => decide ((if b then 1 else 0) = n)
  | _, _ => false

@[simp] theorem key?_str (s : String) : key? (.str s) = some (.str s) := rfl

theorem eq_str_of_key? {v : Json} {s : String} (h : v.key? = some (.str s)) : v = .str s := by
  cases v with
  | str t =>
    cases h
    rfl
  | _ => simp [key?] at h

@[simp] theorem truthy_str (s : String) : truthy (.str s) = decide (s ≠ "") := rfl

/-- The members of an object, as a decoder returns them. -/
abbrev Members := List (String × Json)

/-- `d.get(k, default)`. -/
def get (d : Members) (k : String) (default : Json := .null) : Json := (Dict.find k d).getD default

/-- `json.loads(b.decode("utf-8"))`, `loads` being the decoder of texts: `none` where either raises. -/
def ofBytes (loads : String → Option Json) (b : ByteArray) : Option Json := (String.fromUTF8? b).bind loads

/-- `k.encode("utf-8") if k else None`: a truthy value that is no string has no `encode`. -/
def encodeKey : Json → Option (Option String)
  | .str s => some (if s = "" then none else some s)
  | v => if v.truthy then none else some none

end Json

/-- A UUID, by its canonical text of 36 characters. -/
@[ext] structure Uuid where
  str : String
  length_eq : str.length = 36
deriving DecidableEq

theorem Uuid.str_ne_empty (u : Uuid) : u.str ≠ "" := by
  intro h
  have := u.length_eq
  rw [h] at this
  cases this

/-- The UUID of a canonical text. -/
def Uuid.ofText (text : String) : Option Uuid := if h : text.length = 36 then some ⟨text, h⟩ else none
