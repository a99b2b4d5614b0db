import Mathlib.Data.List.Basic
import Mathlib.Data.List.Count
import Mathlib.Data.List.Infix
import Mathlib.Tactic

namespace Brackets

variable {α : Type}

section Structure

variable (opening closing : α)

inductive Balanced : List α → Prop
  | nil : Balanced []
  | other {xs : List α} {x : α} : Balanced xs → x ≠ opening → x ≠ closing → Balanced (xs ++ [x])
  | pair {xs inner : List α} : Balanced xs → Balanced inner → Balanced (xs ++ opening :: (inner ++ [closing]))

def Matched (xs : List α) (i j : ℕ) : Prop :=
  ∃ before inner after, xs = before ++ opening :: (inner ++ closing :: after) ∧ before.length = i ∧
    before.length + 1 + inner.length = j ∧ Balanced opening closing inner

def Drained (xs : List α) : Prop :=
  ∀ before inner, xs = before ++ opening :: inner → ¬ Balanced opening closing inner

/-- The stack holds the positions of the open brackets, the last one first. -/
inductive Pending : List α → List ℕ → Prop
  | drained {xs : List α} : Drained opening closing xs → Pending xs []
  | opened {xs inner : List α} {stack : List ℕ} : Pending xs stack → Balanced opening closing inner →
      Pending (xs ++ opening :: inner) (xs.length :: stack)

end Structure

variable {opening closing : α} {xs ys inner : List α} {stack : List ℕ}

section Structural

lemma Balanced.append (hxs : Balanced opening closing xs) (hys : Balanced opening closing ys) :
    Balanced opening closing (xs ++ ys) := by
  induction hys with
  | nil => rwa [List.append_nil]
  | other _ hopening hclosing ih =>
    rw [← List.append_assoc]
    exact ih.other hopening hclosing
  | pair _ hinner ih _ =>
    rw [← List.append_assoc]
    exact ih.pair hinner

lemma Balanced.concat_cases {x : α} (h : Balanced opening closing (xs ++ [x])) :
    (x ≠ opening ∧ x ≠ closing ∧ Balanced opening closing xs) ∨
      (x = closing ∧ ∃ before inner, xs = before ++ opening :: inner ∧ Balanced opening closing before ∧
        Balanced opening closing inner) := by
  generalize hsplit : xs ++ [x] = whole at h
  cases h with
  | nil => simp at hsplit
  | other hbalanced hopening hclosing =>
    obtain ⟨rfl, hx⟩ := List.append_inj' hsplit rfl
    obtain rfl := List.singleton_injective hx
    exact Or.inl ⟨hopening, hclosing, hbalanced⟩
  | @pair before inner hbefore hinner =>
    rw [← List.cons_append, ← List.append_assoc] at hsplit
    obtain ⟨rfl, hx⟩ := List.append_inj' hsplit rfl
    exact Or.inr ⟨List.singleton_injective hx, before, inner, rfl, hbefore, hinner⟩

lemma drained_nil : Drained opening closing [] := by
  intro before inner hsplit
  exact absurd hsplit.symm (List.append_ne_nil_of_right_ne_nil before (List.cons_ne_nil _ _))

lemma split_concat {x : α} {before : List α} (hx : x ≠ opening) (h : xs ++ [x] = before ++ opening :: inner) :
    ∃ inner', inner = inner' ++ [x] ∧ xs = before ++ opening :: inner' := by
  rcases List.eq_nil_or_concat' inner with rfl | ⟨inner', y, rfl⟩
  · exact absurd (List.singleton_injective (List.append_inj' h rfl).2) hx
  · rw [← List.cons_append, ← List.append_assoc] at h
    obtain ⟨hxs, hy⟩ := List.append_inj' h rfl
    rw [List.singleton_injective hy]
    exact ⟨inner', rfl, hxs⟩

lemma Drained.concat {x : α} (h : Drained opening closing xs) (hx : x ≠ opening) :
    Drained opening closing (xs ++ [x]) := by
  intro before inner hsplit hinner
  obtain ⟨inner', rfl, hxs⟩ := split_concat hx hsplit
  rcases hinner.concat_cases with ⟨-, -, hinner'⟩ | ⟨-, front, back, rfl, -, hback⟩
  · exact h before inner' hxs hinner'
  · refine h (before ++ opening :: front) back ?_ hback
    rw [hxs, List.append_assoc]
    rfl

lemma Matched.append {i j : ℕ} (h : Matched opening closing xs i j) (ys : List α) :
    Matched opening closing (xs ++ ys) i j := by
  obtain ⟨before, inner, after, rfl, hi, hj, hinner⟩ := h
  exact ⟨before, inner, after ++ ys, by simp, hi, hj, hinner⟩

lemma Matched.getElem?_opening {i j : ℕ} (h : Matched opening closing xs i j) : xs[i]? = some opening := by
  obtain ⟨before, inner, after, rfl, rfl, -, -⟩ := h
  rw [List.getElem?_append_right (le_refl _), Nat.sub_self]
  rfl

lemma Matched.getElem?_closing {i j : ℕ} (h : Matched opening closing xs i j) : xs[j]? = some closing := by
  obtain ⟨before, inner, after, rfl, rfl, rfl, -⟩ := h
  rw [← List.cons_append, ← List.append_assoc, List.getElem?_append_right]
  all_goals simp only [List.length_append, List.length_cons]
  · rw [show before.length + 1 + inner.length - (before.length + (inner.length + 1)) = 0 by omega]
    rfl
  · omega

lemma Pending.lt_of_mem {i : ℕ} (h : Pending opening closing xs stack) (hi : i ∈ stack) : i < xs.length := by
  induction h with
  | drained => cases hi
  | opened _ _ ih =>
    rw [List.length_append, List.length_cons]
    rcases List.mem_cons.mp hi with rfl | hi
    · omega
    · have := ih hi
      omega

lemma Pending.pairwise (h : Pending opening closing xs stack) : stack.Pairwise (· > ·) := by
  induction h with
  | drained => exact .nil
  | opened hxs _ ih => exact List.pairwise_cons.mpr ⟨fun i hi => hxs.lt_of_mem hi, ih⟩

lemma Pending.top {start : ℕ} (h : Pending opening closing xs (start :: stack)) :
    Matched opening closing (xs ++ [closing]) start xs.length := by
  cases h with
  | @opened before inner _ _ hinner =>
    exact ⟨before, inner, [], by simp, rfl, by simp only [List.length_append, List.length_cons]; omega, hinner⟩

end Structural

variable [DecidableEq α]

section Scan

variable (opening closing)

def push (stack : List ℕ) (index : ℕ) (x : α) : List ℕ :=
  if x = opening then index :: stack else if x = closing then stack.tail else stack

def scanFrom : List ℕ → ℕ → List α → List ℕ
  | stack, _, [] => stack
  | stack, index, x :: xs => scanFrom (push opening closing stack index x) (index + 1) xs

def scan (xs : List α) : List ℕ := scanFrom opening closing [] 0 xs

def Rising (xs : List α) : Prop :=
  ∀ front back, xs = front ++ back → front.count closing ≤ front.count opening

end Scan

lemma scanFrom_append (stack : List ℕ) (index : ℕ) (xs ys : List α) :
    scanFrom opening closing stack index (xs ++ ys) =
      scanFrom opening closing (scanFrom opening closing stack index xs) (index + xs.length) ys := by
  induction xs generalizing stack index with
  | nil => rfl
  | cons x xs ih =>
    rw [List.cons_append, scanFrom, ih, List.length_cons, Nat.add_right_comm, Nat.add_assoc]
    rfl

lemma scan_concat (xs : List α) (x : α) :
    scan opening closing (xs ++ [x]) = push opening closing (scan opening closing xs) xs.length x := by
  rw [scan, scanFrom_append, Nat.zero_add]
  rfl

section Counts

lemma Rising.append (hxs : Rising opening closing xs) (hys : Rising opening closing ys) :
    Rising opening closing (xs ++ ys) := by
  intro front back hsplit
  rcases List.append_eq_append_iff.mp hsplit with ⟨rest, rfl, hrest⟩ | ⟨rest, hrest, -⟩
  · rw [List.count_append, List.count_append]
    exact Nat.add_le_add (hxs xs [] (List.append_nil xs).symm) (hys rest back hrest)
  · exact hxs front rest hrest

lemma rising_nil : Rising opening closing [] := by
  intro front back hsplit
  rw [(List.append_eq_nil_iff.mp hsplit.symm).1]
  exact le_refl _

lemma rising_singleton {x : α} (hx : x ≠ closing) : Rising opening closing [x] := by
  intro front back hsplit
  rcases List.append_eq_singleton_iff.mp hsplit.symm with ⟨rfl, -⟩ | ⟨rfl, -⟩
  · exact le_refl _
  · rw [List.count_singleton, if_neg (by simpa using hx)]
    exact Nat.zero_le _

lemma Rising.concat_closing (hxs : Rising opening closing xs)
    (hopen : xs.count closing < xs.count opening) : Rising opening closing (xs ++ [closing]) := by
  intro front back hsplit
  rcases List.append_eq_append_iff.mp hsplit with ⟨rest, rfl, hrest⟩ | ⟨rest, hrest, -⟩
  · rcases List.append_eq_singleton_iff.mp hrest.symm with ⟨rfl, -⟩ | ⟨rfl, -⟩
    · rw [List.append_nil]
      exact hopen.le
    · rw [List.count_append, List.count_append, List.count_singleton_self]
      omega
  · exact hxs front rest hrest

variable (hne : opening ≠ closing)

include hne

lemma Balanced.count_eq (h : Balanced opening closing xs) : xs.count closing = xs.count opening := by
  induction h with
  | nil => rfl
  | other _ hopening hclosing ih =>
    rw [List.count_append, List.count_append, ih, List.count_singleton, List.count_singleton,
      if_neg (by simpa using hclosing), if_neg (by simpa using hopening)]
  | pair _ _ ihxs ihinner =>
    simp only [List.count_append, List.count_cons, ihxs, ihinner, List.count_nil]
    simp [hne, hne.symm]

lemma Balanced.rising (h : Balanced opening closing xs) : Rising opening closing xs := by
  induction h with
  | nil => exact rising_nil
  | other _ _ hclosing ih => exact ih.append (rising_singleton hclosing)
  | @pair xs inner _ hinner ihxs ihinner =>
    refine ihxs.append ?_
    rw [← List.cons_append]
    refine Rising.concat_closing ((rising_singleton hne).append ihinner) ?_
    rw [List.count_cons_of_ne hne, List.count_cons_self, hinner.count_eq hne]
    exact Nat.lt_succ_self _

lemma Rising.not_closed (h : Rising opening closing xs) (hinner : Balanced opening closing inner)
    (after : List α) : xs ≠ inner ++ closing :: after := by
  intro hsplit
  have hfront := h (inner ++ [closing]) after (by rw [hsplit, List.append_assoc]; rfl)
  rw [List.count_append, List.count_append, List.count_singleton_self,
    List.count_singleton, if_neg (by simpa using hne.symm), hinner.count_eq hne] at hfront
  omega

lemma Balanced.drained (h : Balanced opening closing xs) : Drained opening closing xs := by
  intro before inner hsplit hinner
  have hbefore := h.rising hne before _ hsplit
  have hcount := h.count_eq hne
  rw [hsplit, List.count_append, List.count_append, List.count_cons_self, List.count_cons_of_ne hne,
    hinner.count_eq hne] at hcount
  omega

lemma opening_unique {before before' inner' : List α} (hinner : Balanced opening closing inner)
    (hinner' : Balanced opening closing inner')
    (h : before ++ opening :: inner = before' ++ opening :: inner') : before = before' := by
  rcases List.append_eq_append_iff.mp h with ⟨rest, hbefore, hrest⟩ | ⟨rest, hbefore, hrest⟩
  · cases rest with
    | nil => rw [hbefore, List.append_nil]
    | cons x rest => exact absurd hinner' (hinner.drained hne rest inner' (List.cons.inj hrest).2)
  · cases rest with
    | nil => rw [hbefore, List.append_nil]
    | cons x rest => exact absurd hinner (hinner'.drained hne rest inner (List.cons.inj hrest).2)

end Counts

section Stack

variable (hne : opening ≠ closing)

include hne

lemma Drained.append_balanced (h : Drained opening closing xs) (hys : Balanced opening closing ys) :
    Drained opening closing (xs ++ ys) := by
  induction hys with
  | nil => rwa [List.append_nil]
  | other _ hopening _ ih =>
    rw [← List.append_assoc]
    exact ih.concat hopening
  | @pair ys inner _ hinner ih _ =>
    intro before inner' hsplit hinner'
    rw [← List.cons_append, ← List.append_assoc, ← List.append_assoc] at hsplit
    obtain ⟨rest, rfl, hrest⟩ := split_concat hne.symm hsplit
    rcases hinner'.concat_cases with ⟨-, hclosing, -⟩ | ⟨-, front, back, rfl, hfront, hback⟩
    · exact hclosing rfl
    · rw [← List.cons_append, ← List.append_assoc] at hrest
      exact ih before front (opening_unique hne hinner hback hrest) hfront

lemma Pending.append_balanced (h : Pending opening closing xs stack) (hys : Balanced opening closing ys) :
    Pending opening closing (xs ++ ys) stack := by
  cases h with
  | drained hdrained => exact .drained (hdrained.append_balanced hne hys)
  | @opened xs inner stack hxs hinner =>
    rw [List.append_assoc, List.cons_append]
    exact hxs.opened (hinner.append hys)

lemma Pending.push (h : Pending opening closing xs stack) (x : α) :
    Pending opening closing (xs ++ [x]) (push opening closing stack xs.length x) := by
  rw [Brackets.push]
  split_ifs with hopening hclosing
  · rw [hopening]
    exact h.opened .nil
  · rw [hclosing]
    cases h with
    | drained hdrained => exact .drained (hdrained.concat hne.symm)
    | @opened xs inner stack hxs hinner =>
      rw [List.append_assoc, List.cons_append]
      exact hxs.append_balanced hne (Balanced.nil.pair hinner)
  · exact h.append_balanced hne (Balanced.nil.other hopening hclosing)

lemma pending_scan (xs : List α) : Pending opening closing xs (scan opening closing xs) := by
  induction xs using List.reverseRecOn with
  | nil => exact .drained drained_nil
  | append_singleton xs x ih =>
    rw [scan_concat]
    exact ih.push hne x

end Stack

section Partners

variable (hne : opening ≠ closing)

include hne

lemma Pending.rising {i : ℕ} (h : Pending opening closing xs stack) (hi : i ∈ stack) :
    ∃ before rest, xs = before ++ opening :: rest ∧ before.length = i ∧ Rising opening closing rest := by
  induction h with
  | drained => cases hi
  | @opened xs inner stack _ hinner ih =>
    rcases List.mem_cons.mp hi with rfl | hi
    · exact ⟨xs, inner, rfl, rfl, hinner.rising hne⟩
    · obtain ⟨before, rest, rfl, hbefore, hrest⟩ := ih hi
      refine ⟨before, rest ++ opening :: inner, by simp, hbefore, hrest.append ?_⟩
      exact (rising_singleton hne).append (hinner.rising hne)

lemma mem_scan_iff {i : ℕ} : i ∈ scan opening closing xs ↔
    xs[i]? = some opening ∧ ∀ j, ¬ Matched opening closing xs i j := by
  constructor
  · intro hi
    obtain ⟨before, rest, hxs, rfl, hrest⟩ := (pending_scan hne xs).rising hne hi
    refine ⟨by simp [hxs], ?_⟩
    rintro j ⟨before', inner, after, hsplit, hlength, -, hinner⟩
    rw [hxs] at hsplit
    have htail := List.append_inj_right hsplit hlength.symm
    exact hrest.not_closed hne hinner after (List.cons.inj htail).2
  · rintro ⟨hopening, hunmatched⟩
    induction xs using List.reverseRecOn with
    | nil => cases hopening
    | append_singleton xs x ih =>
      have hlt : i < (xs ++ [x]).length := (List.getElem?_eq_some_iff.mp hopening).1
      rw [List.length_append, List.length_singleton, Nat.lt_succ_iff_lt_or_eq] at hlt
      rw [scan_concat, push]
      rcases hlt with hlt | rfl
      · rw [List.getElem?_append_left hlt] at hopening
        have hmem := ih hopening fun j hj => hunmatched j (hj.append [x])
        split_ifs with hx hx'
        · exact List.mem_cons_of_mem _ hmem
        · cases hstack : scan opening closing xs with
          | nil =>
            rw [hstack] at hmem
            cases hmem
          | cons start stack =>
            rw [hstack] at hmem
            rcases List.mem_cons.mp hmem with rfl | hmem
            · have hpending := pending_scan hne xs
              rw [hstack] at hpending
              exact absurd (hx' ▸ hpending.top) (hunmatched xs.length)
            · exact hmem
        · exact hmem
      · rw [List.getElem?_concat_length, Option.some.injEq] at hopening
        rw [if_pos hopening]
        exact List.mem_cons_self

lemma matched_concat_iff {i : ℕ} : Matched opening closing (xs ++ [closing]) i xs.length ↔
    (scan opening closing xs).head? = some i := by
  have hpending := pending_scan hne xs
  constructor
  · rintro ⟨before, inner, after, hsplit, rfl, hlength, hinner⟩
    have hxs : xs = before ++ opening :: inner := by
      rw [← List.cons_append, ← List.append_assoc] at hsplit
      refine List.append_inj_left hsplit ?_
      simp only [List.length_append, List.length_cons]
      omega
    cases hstack : scan opening closing xs with
    | nil =>
      rw [hstack] at hpending
      cases hpending with
      | drained hdrained => exact absurd hinner (hdrained before inner hxs)
    | cons start stack =>
      rw [hstack] at hpending
      cases hpending with
      | @opened before' inner' _ _ hinner' => rw [List.head?_cons, opening_unique hne hinner' hinner hxs]
  · intro hhead
    obtain ⟨stack, hstack⟩ := List.head?_eq_some_iff.mp hhead
    rw [hstack] at hpending
    exact hpending.top

lemma getLast?_scan_iff : (scan opening closing xs).getLast? = some 0 ↔ 0 ∈ scan opening closing xs := by
  have hpairwise := (pending_scan hne xs).pairwise
  refine ⟨List.mem_of_getLast?, fun hmem => ?_⟩
  rcases List.eq_nil_or_concat' (scan opening closing xs) with hnil | ⟨init, last, hsplit⟩
  · rw [hnil] at hmem
    cases hmem
  · rw [hsplit] at hmem hpairwise ⊢
    rw [List.getLast?_concat]
    rcases List.mem_append.mp hmem with hmem | hmem
    · have hlt := (List.pairwise_append.mp hpairwise).2.2 0 hmem last (List.mem_singleton_self last)
      omega
    · rw [List.mem_singleton.mp hmem]

end Partners

end Brackets
