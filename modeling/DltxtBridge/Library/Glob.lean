import Mathlib.Computability.Language
import Mathlib.Tactic

namespace Glob

variable {α : Type}

inductive Token (α : Type)
  | literal (a : α)
  | one
  | star
  | doubleStar

section Language

variable (separator : α)

def Token.language : Token α → Language α
  | .literal a => {w | w = [a]}
  | .one => {w | ∃ a, a ≠ separator ∧ w = [a]}
  | .star => {w | separator ∉ w}
  | .doubleStar => ⊤

def language (tokens : List (Token α)) : Language α := (tokens.map (Token.language separator)).prod

end Language

variable {separator : α} {tokens : List (Token α)} {w : List α}

lemma mem_language_nil : w ∈ language separator [] ↔ w = [] := Language.mem_one w

lemma mem_language_cons {token : Token α} :
    w ∈ language separator (token :: tokens) ↔
      ∃ u ∈ token.language separator, ∃ v ∈ language separator tokens, u ++ v = w := by
  rw [language, List.map_cons, List.prod_cons, Language.mem_mul]
  rfl

lemma mem_language_literal {a : α} :
    w ∈ language separator (.literal a :: tokens) ↔ ∃ v ∈ language separator tokens, w = a :: v := by
  rw [mem_language_cons]
  constructor
  · rintro ⟨u, rfl, v, hv, rfl⟩
    exact ⟨v, hv, rfl⟩
  · rintro ⟨v, hv, rfl⟩
    exact ⟨[a], rfl, v, hv, rfl⟩

lemma mem_language_one :
    w ∈ language separator (.one :: tokens) ↔
      ∃ a v, a ≠ separator ∧ v ∈ language separator tokens ∧ w = a :: v := by
  rw [mem_language_cons]
  constructor
  · rintro ⟨u, ⟨a, ha, rfl⟩, v, hv, rfl⟩
    exact ⟨a, v, ha, hv, rfl⟩
  · rintro ⟨a, v, ha, hv, rfl⟩
    exact ⟨[a], ⟨a, ha, rfl⟩, v, hv, rfl⟩

lemma mem_language_star :
    w ∈ language separator (.star :: tokens) ↔
      ∃ u v, separator ∉ u ∧ v ∈ language separator tokens ∧ u ++ v = w := by
  rw [mem_language_cons]
  exact ⟨fun ⟨u, hu, v, hv, h⟩ => ⟨u, v, hu, hv, h⟩, fun ⟨u, v, hu, hv, h⟩ => ⟨u, hu, v, hv, h⟩⟩

lemma mem_language_doubleStar :
    w ∈ language separator (.doubleStar :: tokens) ↔ ∃ v ∈ language separator tokens, v <:+ w := by
  rw [mem_language_cons]
  constructor
  · rintro ⟨u, -, v, hv, rfl⟩
    exact ⟨v, hv, List.suffix_append u v⟩
  · rintro ⟨v, hv, u, rfl⟩
    exact ⟨u, trivial, v, hv, rfl⟩

end Glob
