import DltxtBridge.Library.AscendingList
import DltxtBridge.Library.FiniteMap

structure InvertedIndex (T D : Type) where
  documentFrequency : FiniteMap T ℕ := ∅
  postings : FiniteMap T (List D) := ∅

namespace InvertedIndex

open AscendingList

variable {T D : Type} [DecidableEq T] [LinearOrder D]

def insertPosting (posting : List D) (d : D) : List D :=
  if posting.getLast?.all (· < d) then posting ++ [d]
  else if posting[lowerBound posting d]? = some d then posting
  else posting.insertIdx (lowerBound posting d) d

def erasePosting (posting : List D) (d : D) : List D :=
  if posting[lowerBound posting d]? = some d then posting.eraseIdx (lowerBound posting d)
  else posting

def add (ix : InvertedIndex T D) (t : T) (d : D) : InvertedIndex T D where
  documentFrequency :=
    ix.documentFrequency.insert t ((ix.documentFrequency.lookup t).getD 0 + 1)
  postings := ix.postings.insert t (insertPosting ((ix.postings.lookup t).getD []) d)

def removePosting (postings : FiniteMap T (List D)) (t : T) (d : D) : FiniteMap T (List D) :=
  match postings.lookup t with
  | none => postings
  | some posting =>
    if (erasePosting posting d).isEmpty then postings.erase t
    else postings.insert t (erasePosting posting d)

def decrement (frequency : FiniteMap T ℕ) (t : T) : FiniteMap T ℕ :=
  match frequency.lookup t with
  | none => frequency
  | some n => if n - 1 = 0 then frequency.erase t else frequency.insert t (n - 1)

def remove (ix : InvertedIndex T D) (t : T) (d : D) : InvertedIndex T D where
  documentFrequency := decrement ix.documentFrequency t
  postings := removePosting ix.postings t d

lemma remove_add (ix : InvertedIndex T D) {t : T} {d : D}
    (hf : ix.documentFrequency.lookup t = none) (hp : ix.postings.lookup t = none) :
    (ix.add t d).remove t d = ix := by
  have hinsert : insertPosting [] d = [d] := rfl
  have herase : erasePosting [d] d = [] := by
    simp [erasePosting, lowerBound]
  have hadd : ix.add t d =
      ⟨ix.documentFrequency.insert t 1, ix.postings.insert t [d]⟩ := by
    rw [InvertedIndex.add, hf, hp, Option.getD_none, Option.getD_none, hinsert]
  rw [hadd, remove, decrement, removePosting]
  simp only [FiniteMap.lookup_insert, if_true, Nat.sub_self, herase, List.isEmpty_nil,
    FiniteMap.erase_insert _ _ _ hf, FiniteMap.erase_insert _ _ _ hp]

/-- Every posting list enumerates the holders of its term, no entry is empty, and
frequencies are the lengths of the lists. -/
structure Exact (ix : InvertedIndex T D) (holders : T → Finset D) : Prop where
  listed : ∀ t xs, ix.postings.lookup t = some xs → Lists xs (holders t) ∧ xs ≠ []
  absent : ∀ t, ix.postings.lookup t = none → holders t = ∅
  frequency : ∀ t, ix.documentFrequency.lookup t = (ix.postings.lookup t).map List.length

lemma insertPosting_lists {xs : List D} {s : Finset D} (h : Lists xs s) {d : D} (hd : d ∉ s) :
    Lists (insertPosting xs d) (insert d s) := by
  have hx : d ∉ xs := fun hm => hd ((h.mem_iff d).mp hm)
  rw [insertPosting]
  split_ifs with hl hg
  · apply h.push d
    intro y hy
    obtain ⟨ys, z, rfl⟩ : ∃ ys z, xs = ys ++ [z] :=
      ⟨xs.dropLast, xs.getLast (List.ne_nil_of_mem hy), (List.dropLast_append_getLast _).symm⟩
    have hz : z < d := by simpa using hl
    have hs := h.ascending
    rw [List.pairwise_append] at hs
    rcases List.mem_append.mp hy with hy | hy
    · exact (hs.2.2 y hy z (List.mem_singleton_self z)).trans hz
    · exact (List.mem_singleton.mp hy) ▸ hz
  · exact absurd ((getElem?_lowerBound h.ascending d).mp hg) hx
  · exact h.insertIdx hx

lemma erasePosting_lists {xs : List D} {s : Finset D} (h : Lists xs s) {d : D} (hd : d ∈ s) :
    Lists (erasePosting xs d) (s.erase d) := by
  have hx : d ∈ xs := (h.mem_iff d).mpr hd
  rw [erasePosting, if_pos ((getElem?_lowerBound h.ascending d).mpr hx)]
  exact h.eraseIdx hx

namespace Exact

variable {ix : InvertedIndex T D} {holders : T → Finset D}

lemma empty : Exact ({} : InvertedIndex T D) (fun _ => ∅) where
  listed t xs h := by simp [Finmap.lookup_empty] at h
  absent _ _ := rfl
  frequency t := by simp [Finmap.lookup_empty]

lemma lists_getD (h : Exact ix holders) (t : T) :
    Lists ((ix.postings.lookup t).getD []) (holders t) := by
  cases ht : ix.postings.lookup t with
  | none => simpa [h.absent t ht] using Lists.nil
  | some xs => exact (h.listed t xs ht).1

lemma frequency_getD (h : Exact ix holders) (t : T) :
    (ix.documentFrequency.lookup t).getD 0 = (holders t).card := by
  rw [← (h.lists_getD t).length_eq, h.frequency t]
  cases ix.postings.lookup t <;> rfl

lemma lookup_eq_none_iff (h : Exact ix holders) (t : T) :
    ix.postings.lookup t = none ↔ holders t = ∅ := by
  refine ⟨h.absent t, fun he => ?_⟩
  cases ht : ix.postings.lookup t with
  | none => rfl
  | some xs =>
    obtain ⟨hl, hne⟩ := h.listed t xs ht
    exact absurd (hl.eq_nil_iff.mpr he) hne

lemma add (h : Exact ix holders) {t : T} {d : D} (hd : d ∉ holders t) :
    Exact (ix.add t d) (Function.update holders t (insert d (holders t))) := by
  have hnew := insertPosting_lists (h.lists_getD t) hd
  have hlen : (insertPosting ((ix.postings.lookup t).getD []) d).length = (holders t).card + 1 := by
    rw [hnew.length_eq, Finset.card_insert_of_notMem hd]
  constructor
  · intro u xs hu
    rw [InvertedIndex.add, FiniteMap.lookup_insert] at hu
    by_cases hut : u = t
    · subst hut
      rw [if_pos rfl, Option.some.injEq] at hu
      subst hu
      rw [Function.update_self]
      exact ⟨hnew, by intro hn; simp [hn] at hlen⟩
    · rw [if_neg hut] at hu
      rw [Function.update_of_ne hut]
      exact h.listed u xs hu
  · intro u hu
    rw [InvertedIndex.add, FiniteMap.lookup_insert] at hu
    by_cases hut : u = t
    · simp [hut] at hu
    · rw [if_neg hut] at hu
      rw [Function.update_of_ne hut]
      exact h.absent u hu
  · intro u
    rw [InvertedIndex.add, FiniteMap.lookup_insert, FiniteMap.lookup_insert]
    by_cases hut : u = t
    · rw [if_pos hut, if_pos hut, Option.map_some, hlen, h.frequency_getD]
    · rw [if_neg hut, if_neg hut]
      exact h.frequency u

lemma lookup_postings_remove (h : Exact ix holders) {t : T} {d : D} (hd : d ∈ holders t) {xs : List D}
    (hxs : ix.postings.lookup t = some xs) (u : T) :
    (ix.remove t d).postings.lookup u =
      if u = t then (if (holders t).erase d = ∅ then none else some (erasePosting xs d))
      else ix.postings.lookup u := by
  have hnew := erasePosting_lists (h.listed t xs hxs).1 hd
  simp only [InvertedIndex.remove, removePosting, hxs, List.isEmpty_iff, hnew.eq_nil_iff]
  exact FiniteMap.lookup_erase_or_insert _ _ t u _

lemma lookup_frequency_remove (h : Exact ix holders) {t : T} {d : D} (hd : d ∈ holders t) {xs : List D}
    (hxs : ix.postings.lookup t = some xs) (u : T) :
    (ix.remove t d).documentFrequency.lookup u =
      if u = t then (if (holders t).erase d = ∅ then none else some ((holders t).card - 1))
      else ix.documentFrequency.lookup u := by
  have hdf : ix.documentFrequency.lookup t = some (holders t).card := by
    rw [h.frequency t, hxs, Option.map_some, (h.listed t xs hxs).1.length_eq]
  have hempty : (holders t).erase d = ∅ ↔ (holders t).card - 1 = 0 := by
    rw [← Finset.card_erase_of_mem hd, Finset.card_eq_zero]
  simp only [InvertedIndex.remove, decrement, hdf, ← hempty]
  exact FiniteMap.lookup_erase_or_insert _ _ t u _

lemma remove (h : Exact ix holders) {t : T} {d : D} (hd : d ∈ holders t) :
    Exact (ix.remove t d) (Function.update holders t ((holders t).erase d)) := by
  obtain ⟨xs, hxs⟩ : ∃ xs, ix.postings.lookup t = some xs := by
    rw [← Option.ne_none_iff_exists']
    intro hn
    simp [h.absent t hn] at hd
  have hnew := erasePosting_lists (h.listed t xs hxs).1 hd
  have hcard : ((holders t).erase d).card = (holders t).card - 1 := Finset.card_erase_of_mem hd
  have hpost := h.lookup_postings_remove hd hxs
  have hfreq := h.lookup_frequency_remove hd hxs
  constructor
  · intro u ys hu
    rw [hpost] at hu
    by_cases hut : u = t
    · subst hut
      rw [if_pos rfl] at hu
      split_ifs at hu with he
      cases hu
      rw [Function.update_self]
      exact ⟨hnew, fun hn => he (hnew.eq_nil_iff.mp hn)⟩
    · rw [if_neg hut] at hu
      rw [Function.update_of_ne hut]
      exact h.listed u ys hu
  · intro u hu
    rw [hpost] at hu
    by_cases hut : u = t
    · subst hut
      rw [if_pos rfl] at hu
      rw [Function.update_self]
      by_contra he
      simp [he] at hu
    · rw [if_neg hut] at hu
      rw [Function.update_of_ne hut]
      exact h.absent u hu
  · intro u
    rw [hpost, hfreq]
    by_cases hut : u = t
    · rw [if_pos hut, if_pos hut]
      split_ifs with he
      · rfl
      · rw [Option.map_some, hnew.length_eq, hcard]
    · rw [if_neg hut, if_neg hut]
      exact h.frequency u

lemma foldl_add (h : Exact ix holders) (d : D) (ts : List T) (hn : ts.Nodup)
    (hd : ∀ t ∈ ts, d ∉ holders t) :
    Exact (ts.foldl (fun ix t => ix.add t d) ix)
      (fun t => if t ∈ ts then insert d (holders t) else holders t) := by
  induction ts generalizing ix holders with
  | nil => simpa using h
  | cons t ts ih =>
    rw [List.nodup_cons] at hn
    have hrest : ∀ u ∈ ts, d ∉ Function.update holders t (insert d (holders t)) u := by
      intro u hu
      rw [Function.update_of_ne (by rintro rfl; exact hn.1 hu)]
      exact hd u (List.mem_cons_of_mem t hu)
    rw [List.foldl_cons]
    convert ih (h.add (hd t (List.mem_cons_self))) hn.2 hrest using 1
    funext u
    by_cases hut : u = t
    · subst hut
      simp [hn.1]
    · simp [hut]

lemma foldl_remove (h : Exact ix holders) (d : D) (ts : List T) (hn : ts.Nodup)
    (hd : ∀ t ∈ ts, d ∈ holders t) :
    Exact (ts.foldl (fun ix t => ix.remove t d) ix)
      (fun t => if t ∈ ts then (holders t).erase d else holders t) := by
  induction ts generalizing ix holders with
  | nil => simpa using h
  | cons t ts ih =>
    rw [List.nodup_cons] at hn
    have hrest : ∀ u ∈ ts, d ∈ Function.update holders t ((holders t).erase d) u := by
      intro u hu
      rw [Function.update_of_ne (by rintro rfl; exact hn.1 hu)]
      exact hd u (List.mem_cons_of_mem t hu)
    rw [List.foldl_cons]
    convert ih (h.remove (hd t (List.mem_cons_self))) hn.2 hrest using 1
    funext u
    by_cases hut : u = t
    · subst hut
      simp [hn.1]
    · simp [hut]

end Exact

end InvertedIndex
