import DltxtBridge.Strings
import Mathlib.Data.List.Basic
import Mathlib.Data.Rat.Defs

namespace DltxtBridge.Protocol

inductive Json
  | null
  | boolean (value : Bool)
  | integer (value : Int64)
  | unsigned (value : UInt64)
  | float (value : ℚ)
  | string (value : Bytes)
  | array (elements : List Json)
  | object (members : List (Bytes × Json))

namespace Json

def emptyObject : Json := .object []

def ofString (s : String) : Json := .string (ascii s)

def isNull : Json → Bool
  | .null => true
  | _ => false

def isObject : Json → Bool
  | .object _ => true
  | _ => false

def member? (json : Json) (key : Bytes) : Option Json :=
  match json with
  | .object members => members.lookup key
  | _ => none

def contains (json : Json) (key : Bytes) : Bool := (json.member? key).isSome

/-- `operator[]`, which the source only calls on a member it has found. -/
def member (json : Json) (key : Bytes) : Json := (json.member? key).getD .null

def elements : Json → List Json
  | .array elements => elements
  | _ => []

/-- `json == "..."`. -/
def equalsString (json : Json) (s : Bytes) : Bool :=
  match json with
  | .string value => value = s
  | _ => false

/-- `get<std::string>()`. -/
def getString : Json → Option Bytes
  | .string value => some value
  | _ => none

/-- `get<int>()`: every number and every Boolean is cast. -/
def getInt : Json → Option ℤ
  | .boolean value => some (if value then 1 else 0)
  | .integer value => some (Int.bmod value.toInt (2 ^ 32))
  | .unsigned value => some (Int.bmod value.toNat (2 ^ 32))
  | .float value => some (Int.bmod (value.num.tdiv value.den) (2 ^ 32))
  | _ => none

/-- `get<std::size_t>()`: every number is cast. -/
def getSize : Json → Option ℕ
  | .integer value => some (value.toInt % 2 ^ 64).toNat
  | .unsigned value => some value.toNat
  | .float value => some (value.num.tdiv value.den % 2 ^ 64).toNat
  | _ => none

/-- `value(key, default)`: throws on anything but an object, and on a member of another type. -/
def value {α : Type} (json : Json) (get : Json → Option α) (key : Bytes) (default : α) : Option α :=
  match json with
  | .object members =>
    match members.lookup key with
    | some found => get found
    | none => some default
  | _ => none

def insertMember (key : Bytes) (value : Json) : List (Bytes × Json) → List (Bytes × Json)
  | [] => [(key, value)]
  | (k, v) :: members =>
    if key = k then (key, value) :: members
    else if key < k then (key, value) :: (k, v) :: members
    else (k, v) :: insertMember key value members

/-- `json[key] = value`: null becomes an object, and every other type throws. -/
def assign (json : Json) (key : Bytes) (value : Json) : Option Json :=
  match json with
  | .object members => some (.object (insertMember key value members))
  | .null => some (.object [(key, value)])
  | _ => none

/-- How many continuation bytes follow a lead byte, and the range of the first. -/
def utf8Lead (ch : UInt8) : Option (ℕ × UInt8 × UInt8) :=
  if ch < 0x80 then some (0, 0x80, 0xBF)
  else if 0xC2 ≤ ch ∧ ch ≤ 0xDF then some (1, 0x80, 0xBF)
  else if ch = 0xE0 then some (2, 0xA0, 0xBF)
  else if ch = 0xED then some (2, 0x80, 0x9F)
  else if 0xE1 ≤ ch ∧ ch ≤ 0xEF then some (2, 0x80, 0xBF)
  else if ch = 0xF0 then some (3, 0x90, 0xBF)
  else if 0xF1 ≤ ch ∧ ch ≤ 0xF3 then some (3, 0x80, 0xBF)
  else if ch = 0xF4 then some (3, 0x80, 0x8F)
  else none

def isUtf8From : ℕ × UInt8 × UInt8 → Bytes → Bool
  | (pending, _, _), [] => pending = 0
  | (0, _, _), ch :: rest =>
    match utf8Lead ch with
    | some lead => isUtf8From lead rest
    | none => false
  | (pending + 1, low, high), ch :: rest => low ≤ ch && ch ≤ high && isUtf8From (pending, 0x80, 0xBF) rest

def isUtf8 (text : Bytes) : Bool := isUtf8From (0, 0x80, 0xBF) text

lemma isUtf8_of_ascii {text : Bytes} (h : text.all (· < 0x80)) : isUtf8 text := by
  induction text with
  | nil => rfl
  | cons ch text ih =>
    rw [List.all_cons, Bool.and_eq_true, decide_eq_true_iff] at h
    have hlead : utf8Lead ch = some (0, 0x80, 0xBF) := if_pos h.1
    simp only [isUtf8, isUtf8From, hlead]
    exact ih h.2

mutual

/-- `dump()` throws on a string that is not UTF-8. -/
def isDumpable : Json → Bool
  | .string value => isUtf8 value
  | .array elements => elementsDumpable elements
  | .object members => membersDumpable members
  | _ => true

def elementsDumpable : List Json → Bool
  | [] => true
  | json :: elements => json.isDumpable && elementsDumpable elements

def membersDumpable : List (Bytes × Json) → Bool
  | [] => true
  | (key, json) :: members => isUtf8 key && json.isDumpable && membersDumpable members

end

lemma lookup_cons_if (k key : Bytes) (value : Json) (members : List (Bytes × Json)) :
    ((key, value) :: members).lookup k = if k = key then some value else members.lookup k := by
  by_cases hk : k = key
  · simp [hk]
  · rw [List.lookup_cons, beq_eq_false_iff_ne.mpr hk, if_neg hk]

lemma lookup_insertMember (key : Bytes) (value : Json) (members : List (Bytes × Json)) (k : Bytes) :
    (insertMember key value members).lookup k = if k = key then some value else members.lookup k := by
  induction members with
  | nil => exact lookup_cons_if k key value []
  | cons entry members ih =>
    obtain ⟨key', value'⟩ := entry
    by_cases hsame : key = key'
    · rw [insertMember, if_pos hsame, lookup_cons_if, lookup_cons_if, hsame]
      split_ifs <;> rfl
    by_cases hless : key < key'
    · rw [insertMember, if_neg hsame, if_pos hless, lookup_cons_if]
    · rw [insertMember, if_neg hsame, if_neg hless, lookup_cons_if, lookup_cons_if, ih]
      by_cases hk : k = key
      · rw [if_neg (hk ▸ hsame), if_pos hk, if_pos hk]
      · rw [if_neg hk, if_neg hk]

lemma member?_assign {json assigned : Json} {key : Bytes} {value : Json}
    (h : json.assign key value = some assigned) (k : Bytes) :
    assigned.member? k = if k = key then some value else json.member? k := by
  cases json with
  | object members =>
    cases h
    exact lookup_insertMember key value members k
  | null =>
    cases h
    exact lookup_cons_if k key value []
  | _ => cases h

lemma assign_isObject {json : Json} (h : json.isObject) (key : Bytes) (value : Json) :
    ∃ assigned, json.assign key value = some assigned := by
  cases json with
  | object members => exact ⟨_, rfl⟩
  | _ => cases h

lemma isDumpable_of_lookup {members : List (Bytes × Json)} {key : Bytes} {json : Json}
    (h : membersDumpable members) (hlookup : members.lookup key = some json) : json.isDumpable := by
  induction members with
  | nil => cases hlookup
  | cons entry members ih =>
    obtain ⟨key', json'⟩ := entry
    simp only [membersDumpable, Bool.and_eq_true] at h
    rw [lookup_cons_if] at hlookup
    split_ifs at hlookup
    · cases hlookup
      exact h.1.2
    · exact ih h.2 hlookup

lemma isDumpable_member {json : Json} (h : json.isDumpable) (key : Bytes) : (json.member key).isDumpable := by
  rw [member]
  cases hmember : json.member? key with
  | none => rfl
  | some found =>
    cases json with
    | object members =>
      rw [isDumpable] at h
      exact isDumpable_of_lookup h hmember
    | _ => cases hmember

end Json

end DltxtBridge.Protocol
