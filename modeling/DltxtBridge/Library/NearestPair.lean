import Mathlib.Order.Basic
import Mathlib.Tactic

namespace NearestPair

variable {opens closes : ℕ → Prop} {i j k n : ℕ}

structure Nearest (opens closes : ℕ → Prop) (i j : ℕ) : Prop where
  opening : opens i
  lt : i < j
  closing : closes j
  last : ∀ k, i < k → k ≤ j → ¬ opens k
  first : ∀ k, i < k → k < j → ¬ closes k

structure Waits (opens closes : ℕ → Prop) (i n : ℕ) : Prop where
  opening : opens i
  lt : i < n
  last : ∀ k, i < k → k < n → ¬ opens k
  first : ∀ k, i < k → k < n → ¬ closes k

lemma not_waits_zero (i : ℕ) : ¬ Waits opens closes i 0 := fun h => absurd h.lt (Nat.not_lt_zero i)

lemma Waits.unique (h : Waits opens closes i n) (h' : Waits opens closes k n) : i = k := by
  rcases lt_trichotomy i k with hlt | heq | hlt
  · exact absurd h'.opening (h.last k hlt h'.lt)
  · exact heq
  · exact absurd h.opening (h'.last i hlt h.lt)

lemma nearest_iff_waits : Nearest opens closes i j ↔ Waits opens closes i j ∧ closes j ∧ ¬ opens j := by
  constructor
  · intro h
    exact ⟨⟨h.opening, h.lt, fun k hlt hle => h.last k hlt hle.le, h.first⟩, h.closing, h.last j h.lt le_rfl⟩
  · rintro ⟨h, hclosing, hopen⟩
    refine ⟨h.opening, h.lt, hclosing, fun k hlt hle => ?_, h.first⟩
    rcases hle.lt_or_eq with hk | rfl
    · exact h.last k hlt hk
    · exact hopen

lemma waits_succ_iff :
    Waits opens closes i (n + 1) ↔ i = n ∧ opens n ∨ Waits opens closes i n ∧ ¬ opens n ∧ ¬ closes n := by
  constructor
  · intro h
    rcases (Nat.le_of_lt_succ h.lt).lt_or_eq with hlt | rfl
    · refine .inr ⟨⟨h.opening, hlt, ?_, ?_⟩, h.last n hlt n.lt_succ_self, h.first n hlt n.lt_succ_self⟩
      · exact fun k hk hn => h.last k hk (hn.trans n.lt_succ_self)
      · exact fun k hk hn => h.first k hk (hn.trans n.lt_succ_self)
    · exact .inl ⟨rfl, h.opening⟩
  · rintro (⟨rfl, hopen⟩ | ⟨h, hopen, hclose⟩)
    · exact ⟨hopen, i.lt_succ_self, fun k hk hn => absurd hn (by omega), fun k hk hn => absurd hn (by omega)⟩
    · refine ⟨h.opening, h.lt.trans n.lt_succ_self, fun k hk hn => ?_, fun k hk hn => ?_⟩
      · rcases (Nat.le_of_lt_succ hn).lt_or_eq with hlt | rfl
        · exact h.last k hk hlt
        · exact hopen
      · rcases (Nat.le_of_lt_succ hn).lt_or_eq with hlt | rfl
        · exact h.first k hk hlt
        · exact hclose

lemma Nearest.lt_of_lt {i' j' : ℕ} (h : Nearest opens closes i j) (h' : Nearest opens closes i' j') (hlt : j < j') :
    j < i' := by
  by_contra hle
  rcases (not_lt.mp hle).lt_or_eq with hbefore | rfl
  · exact h'.first j hbefore hlt h.closing
  · exact h.last i' h.lt le_rfl h'.opening

end NearestPair
