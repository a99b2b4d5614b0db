import DltxtBridge.Protocol.JsonRpc

namespace DltxtBridge.Protocol

namespace Json

def number? : Json → Option ℚ
  | .integer value => some value.toInt
  | .unsigned value => some value.toNat
  | .float value => some value
  | _ => none

/-- Equal, or numbers of the same value. -/
def SameValue (json other : Json) : Prop :=
  json = other ∨ ∃ number, json.number? = some number ∧ other.number? = some number

lemma SameValue.refl (json : Json) : SameValue json json := .inl rfl

lemma SameValue.symm {json other : Json} (h : SameValue json other) : SameValue other json := by
  rcases h with rfl | ⟨number, hjson, hother⟩
  · exact .inl rfl
  · exact .inr ⟨number, hother, hjson⟩

lemma SameValue.trans {json other third : Json} (h : SameValue json other) (h' : SameValue other third) :
    SameValue json third := by
  rcases h with rfl | ⟨number, hjson, hother⟩
  · exact h'
  · rcases h' with rfl | ⟨number', hother', hthird⟩
    · exact .inr ⟨number, hjson, hother⟩
    · obtain rfl : number = number' := Option.some.inj (hother.symm.trans hother')
      exact .inr ⟨number, hjson, hthird⟩

end Json

namespace Jsonrpc

open Json

def Overflows : Json → Prop
  | .unsigned value => 2 ^ 63 ≤ value.toNat
  | _ => False

def RoundTrips (json : Json) : Prop :=
  (∀ id, requestIdFromJson json = some id → SameValue (requestIdToJson id) json) ∧
  (∀ number : ℤ, json.number? = some (number : ℚ) → ¬ (-2 ^ 63 ≤ number ∧ number < 2 ^ 63) →
    requestIdFromJson json = none)

lemma toInt_toInt64 (value : UInt64) :
    value.toInt64.toInt = if value.toNat < 2 ^ 63 then (value.toNat : ℤ) else value.toNat - 2 ^ 64 := by
  have h := BitVec.toInt_eq_toNat_cond value.toBitVec
  change value.toInt64.toInt = if 2 * value.toNat < 2 ^ 64 then (value.toNat : ℤ) else value.toNat - 2 ^ 64 at h
  rw [h]
  split_ifs <;> omega

lemma sameValue_unsigned_iff (value : UInt64) :
    SameValue (.integer value.toInt64) (.unsigned value) ↔ value.toNat < 2 ^ 63 := by
  have hnumber : (Json.integer value.toInt64).number? = (Json.unsigned value).number? ↔ value.toNat < 2 ^ 63 := by
    rw [number?, number?, Option.some.injEq, ← Int.cast_natCast, Int.cast_inj, toInt_toInt64]
    split_ifs with hlt
    · exact iff_of_true rfl hlt
    · exact iff_of_false (by omega) hlt
  rw [← hnumber]
  constructor
  · rintro (heq | ⟨number, hinteger, hunsigned⟩)
    · cases heq
    · exact hinteger.trans hunsigned.symm
  · intro heq
    exact .inr ⟨value.toNat, heq, rfl⟩

lemma sameValue_of_not_overflows {json : Json} {id : RequestId} (hid : requestIdFromJson json = some id)
    (h : ¬ Overflows json) : SameValue (requestIdToJson id) json := by
  cases json with
  | null =>
    cases hid
    exact .refl _
  | string value =>
    cases hid
    exact .refl _
  | integer value =>
    cases hid
    exact .refl _
  | unsigned value =>
    cases hid
    exact (sameValue_unsigned_iff value).mpr (not_le.mp h)
  | _ => cases hid

lemma number?_lt_of_not_overflows {json : Json} {id : RequestId} {number : ℚ}
    (hid : requestIdFromJson json = some id)
    (h : ¬ Overflows json) (hnumber : json.number? = some number) : -2 ^ 63 ≤ number ∧ number < 2 ^ 63 := by
  cases json with
  | integer value =>
    cases hnumber
    have hle := value.le_toInt
    have hlt := value.toInt_lt
    exact ⟨by exact_mod_cast hle, by exact_mod_cast hlt⟩
  | unsigned value =>
    cases hnumber
    have hlt : value.toNat < 2 ^ 63 := not_le.mp h
    refine ⟨?_, by exact_mod_cast hlt⟩
    have hzero : (0 : ℚ) ≤ value.toNat := Nat.cast_nonneg _
    linarith
  | null => cases hnumber
  | string value => cases hnumber
  | _ => cases hid

lemma idRoundTrips_iff (json : Json) : RoundTrips json ↔ ¬ Overflows json := by
  constructor
  · rintro ⟨hsame, -⟩ hoverflows
    cases json with
    | unsigned value => exact absurd ((sameValue_unsigned_iff value).mp (hsame _ rfl)) (not_lt.mpr hoverflows)
    | _ => exact hoverflows
  · intro h
    refine ⟨fun id hid => sameValue_of_not_overflows hid h, fun number hnumber hrange => ?_⟩
    rw [Option.eq_none_iff_forall_ne_some]
    intro id hid
    obtain ⟨hle, hlt⟩ := number?_lt_of_not_overflows hid h hnumber
    exact hrange ⟨by exact_mod_cast hle, by exact_mod_cast hlt⟩

lemma overflows_of_sameValue {json other : Json} {id : RequestId} (hid : requestIdFromJson other = some id)
    (hsame : SameValue json other) (h : Overflows json) : Overflows other := by
  rcases hsame with rfl | ⟨number, hjson, hother⟩
  · exact h
  by_contra hnot
  obtain ⟨-, hlt⟩ := number?_lt_of_not_overflows hid hnot hother
  cases json with
  | unsigned value =>
    cases hjson
    have hge : 2 ^ 63 ≤ value.toNat := h
    exact absurd (by exact_mod_cast hlt : value.toNat < 2 ^ 63) (not_lt.mpr hge)
  | _ => exact h

theorem requestId_roundTrips_iff (json : Json) :
    (RoundTrips json ↔ ¬ Overflows json) ∧
    ∀ other id, requestIdFromJson json = some id → requestIdFromJson other = some id →
      (SameValue json other ↔ (Overflows json ↔ Overflows other)) := by
  refine ⟨idRoundTrips_iff json, fun other id hjson hother => ?_⟩
  constructor
  · intro hsame
    exact ⟨overflows_of_sameValue hother hsame, overflows_of_sameValue hjson hsame.symm⟩
  · intro hiff
    by_cases hoverflows : Overflows json
    · have hoverflows' := hiff.mp hoverflows
      cases json with
      | unsigned value =>
        cases other with
        | unsigned value' =>
          have heq := RequestId.integer.inj (Option.some.inj (hjson.trans hother.symm))
          have hvalue : value = value' := congrArg Int64.toUInt64 heq
          rw [hvalue]
          exact .refl _
        | _ => exact False.elim hoverflows'
      | _ => exact False.elim hoverflows
    · have hback := sameValue_of_not_overflows hjson hoverflows
      exact hback.symm.trans (sameValue_of_not_overflows hother (mt hiff.mpr hoverflows))

theorem unsigned_id_wraps :
    requestIdFromJson (.unsigned 18446744073709551615) = some (.integer (-1)) ∧
      ¬ RoundTrips (.unsigned 18446744073709551615) := by
  refine ⟨by decide, fun h => ?_⟩
  exact (idRoundTrips_iff _).mp h (show 2 ^ 63 ≤ (18446744073709551615 : UInt64).toNat by decide)

end Jsonrpc

end DltxtBridge.Protocol
