import DltxtBridge.SimilarityIndex.Refinement
import DltxtBridge.SimilarityIndex.Ranking

/-! Erasing the last line of a bigram frees its id but not its slot, so a history can
use up the `2 ^ 32` ids while one line stays live; the next id is then one in use. -/

namespace DltxtBridge

namespace SimilarityIndex

def wear (s : SimilarityIndex) (n : ℕ) : SimilarityIndex :=
  { s with terms :=
    { idsByValue := s.terms.idsByValue
      valuesById := s.terms.valuesById ++ List.replicate n []
      refCounts := s.terms.refCounts ++ List.replicate n 0 } }

lemma wear_wear (s : SimilarityIndex) (m n : ℕ) : (s.wear m).wear n = s.wear (m + n) := by
  simp [wear, List.append_assoc]

lemma addLine_bigram (s : SimilarityIndex) (id : LineId) (path : Bytes) (number : ℕ) (a b : UInt16) :
    s.addLine id path number [a, b] =
      { lines := FiniteMap.emplace id ⟨id, (s.files.retain toUInt32 path).1, number,
          [((s.terms.retain toUInt32 [a, b]).1, 1)]⟩ s.lines
        inverted := s.inverted.add (s.terms.retain toUInt32 [a, b]).1 id
        terms := (s.terms.retain toUInt32 [a, b]).2
        files := (s.files.retain toUInt32 path).2 } := rfl

structure Unused (s : SimilarityIndex) (id : LineId) (path : Bytes) (g : Term) : Prop where
  line : s.lines.lookup id = none
  term : s.terms.idsByValue.lookup g = none
  posting : ∀ t, s.terms.slots ≤ t → s.inverted.postings.lookup t = none
  frequency : ∀ t, s.terms.slots ≤ t → s.inverted.documentFrequency.lookup t = none
  refCounts : s.terms.refCounts.length = s.terms.slots
  file : ∃ f, s.files.idsByValue.lookup path = some f ∧ f < s.files.refCounts.length

lemma slots_wear (s : SimilarityIndex) (n : ℕ) : (s.wear n).terms.slots = s.terms.slots + n := by
  simp [wear, InternTable.slots]

lemma Represents.unused {s : SimilarityIndex} {C : Corpus} (h : Represents s C) {id : LineId}
    (hline : C.lookup id = none) {path : Bytes} {g : Term} (hterm : s.terms.idsByValue.lookup g = none)
    {f : ℕ} (hfile : s.files.idsByValue.lookup path = some f) : Unused s id path g := by
  have hposting : ∀ t, s.terms.slots ≤ t → s.inverted.postings.lookup t = none := by
    intro t ht
    rw [h.inverted.lookup_eq_none_iff, Finset.eq_empty_iff_forall_notMem]
    intro j hj
    obtain ⟨line, hl, hmem⟩ := (mem_holders_iff s t j).mp hj
    obtain ⟨c, hc, hstored⟩ := h.exists_content hl
    obtain ⟨u, -, hu⟩ := (hstored.mem_terms t).mp hmem
    exact absurd (h.terms.mapped_lt hu) (not_lt.mpr ht)
  refine ⟨(h.lookup_none_iff id).mpr hline, hterm, hposting, fun t ht => ?_, h.terms.length_eq, f, hfile, ?_⟩
  · rw [h.inverted.frequency, hposting t ht]
    rfl
  · rw [h.files.length_eq]
    exact h.files.mapped_lt hfile

namespace Unused

variable {s : SimilarityIndex} {id : LineId} {path : Bytes} {a b : UInt16}

lemma wear (h : Unused s id path [a, b]) (n : ℕ) : Unused (s.wear n) id path [a, b] where
  line := h.line
  term := h.term
  posting t ht := h.posting t ((Nat.le_add_right _ n).trans (slots_wear s n ▸ ht))
  frequency t ht := h.frequency t ((Nat.le_add_right _ n).trans (slots_wear s n ▸ ht))
  refCounts := by
    rw [slots_wear, ← h.refCounts]
    simp [SimilarityIndex.wear]
  file := h.file

lemma erase_upsert (h : Unused s id path [a, b]) (hslots : s.terms.slots < 2 ^ 32) (number : ℕ) :
    ((s.upsert id path number [a, b]).erase id).2 = s.wear 1 := by
  obtain ⟨f, hf, hlt⟩ := h.file
  have hid : (s.terms.retain toUInt32 [a, b]).1 = s.terms.slots := by
    simp only [InternTable.retain, h.term]
    exact toUInt32_of_lt hslots
  have hfile : (s.files.retain toUInt32 path).1 = f := by
    simp only [InternTable.retain, hf]
  have hline : (s.upsert id path number [a, b]).lines.lookup id =
      some ⟨id, f, number, [(s.terms.slots, 1)]⟩ := by
    rw [upsert, erase_of_none h.line, addLine_bigram, hid, hfile, FiniteMap.lookup_emplace _ _ _ _ h.line,
      if_pos rfl]
  have hlines : (FiniteMap.emplace id (⟨id, f, number, [(s.terms.slots, 1)]⟩ : IndexedLine)
      s.lines).erase id = s.lines := by
    rw [FiniteMap.emplace, if_neg (Finmap.lookup_eq_none.mp h.line),
      FiniteMap.erase_insert _ _ _ h.line]
  rw [erase_of_some hline, upsert, erase_of_none h.line, addLine_bigram, hid, hfile]
  simp only [List.map_cons, List.map_nil, List.foldl_cons, List.foldl_nil, hlines]
  rw [InvertedIndex.remove_add _ (h.frequency _ le_rfl) (h.posting _ le_rfl),
    InternTable.reclaim_retain [] h.refCounts (toUInt32_of_lt hslots) h.term,
    InternTable.release_retain hf hlt]
  rfl

end Unused

end SimilarityIndex

namespace IndexCall

open SimilarityIndex

def churn (id : LineId) (path : Bytes) (a b : UInt16) : ℕ → List IndexCall
  | 0 => []
  | n + 1 => churn id path a b n ++ [.upsert id path 0 [a, b], .erase id]

lemma foldl_churn {s : SimilarityIndex} {id : LineId} {path : Bytes} {a b : UInt16}
    (h : Unused s id path [a, b]) (n : ℕ) (hn : s.terms.slots + n ≤ 2 ^ 32) :
    (churn id path a b n).foldl apply s = s.wear n := by
  induction n with
  | zero => simp [churn, wear]
  | succ n ih =>
    have hslots : (s.wear n).terms.slots < 2 ^ 32 := by
      rw [slots_wear]
      omega
    rw [churn, List.foldl_append, ih (by omega), List.foldl_cons, List.foldl_cons, List.foldl_nil]
    exact ((h.wear n).erase_upsert hslots 0).trans (wear_wear s n 1)

lemma corpus_foldl_churn {C : Corpus} {id : LineId} (hid : C.lookup id = none) (path : Bytes)
    (a b : UInt16) (n : ℕ) : (churn id path a b n).foldl applyCorpus C = C := by
  induction n with
  | zero => rfl
  | succ n ih =>
    rw [churn, List.foldl_append, ih]
    exact FiniteMap.erase_insert _ _ _ hid

def aliasing : List IndexCall :=
  .upsert 0 (ascii "p") 0 [120, 121] :: churn 1 (ascii "p") 97 98 (2 ^ 32 - 1) ++
    [.upsert 2 (ascii "p") 0 [99, 100]]

lemma corpus_aliasing : corpus aliasing =
    ((∅ : Corpus).insert 0 ⟨ascii "p", 0, [120, 121]⟩).insert 2 ⟨ascii "p", 0, [99, 100]⟩ := by
  rw [corpus, aliasing, List.cons_append, List.foldl_cons, List.foldl_append, corpus_foldl_churn rfl]
  rfl

lemma unused_keptLine :
    Unused (run [.upsert 0 (ascii "p") 0 [120, 121]]) 1 (ascii "p") [97, 98] := by
  have hfile : (run [.upsert 0 (ascii "p") 0 [120, 121]]).files.idsByValue.lookup (ascii "p") =
      some 0 := by decide
  exact (represents_run _ (by decide)).unused (by decide) (by decide) hfile

lemma slots_keptLine : (run [.upsert 0 (ascii "p") 0 [120, 121]]).terms.slots = 1 := by decide

lemma run_aliasing_eq :
    run aliasing = ((run [.upsert 0 (ascii "p") 0 [120, 121]]).wear (2 ^ 32 - 1)).upsert 2 (ascii "p") 0
      [99, 100] := by
  rw [run, aliasing, List.cons_append, List.foldl_cons, List.foldl_append]
  change List.foldl apply (List.foldl apply (run [.upsert 0 (ascii "p") 0 [120, 121]]) _) _ = _
  rw [foldl_churn unused_keptLine _ (by rw [slots_keptLine]; omega)]
  rfl

lemma run_aliasing :
    (run aliasing).lines = ((∅ : FiniteMap LineId IndexedLine).insert 0 ⟨0, 0, 0, [(0, 1)]⟩).insert 2
        ⟨2, 0, 0, [(0, 1)]⟩ ∧
      (run aliasing).inverted.postings =
        ((∅ : FiniteMap TermId (List LineId)).insert 0 [0, 2] : FiniteMap TermId (List LineId)) ∧
      (run aliasing).inverted.documentFrequency =
        ((∅ : FiniteMap TermId ℕ).insert 0 2 : FiniteMap TermId ℕ) ∧
      (run aliasing).terms.idsByValue =
        ((∅ : FiniteMap Term TermId).insert [120, 121] 0).insert [99, 100] 0 ∧
      (run aliasing).files.valuesById = [ascii "p"] := by
  generalize hbase : run [.upsert 0 (ascii "p") 0 [120, 121]] = base
  have hrun := run_aliasing_eq
  rw [hbase] at hrun
  have hterm : (base.wear (2 ^ 32 - 1)).terms.idsByValue.lookup [99, 100] = none := by
    change base.terms.idsByValue.lookup _ = none
    rw [← hbase]
    decide
  have hline : (base.wear (2 ^ 32 - 1)).lines.lookup 2 = none := by
    change base.lines.lookup _ = none
    rw [← hbase]
    decide
  have hid : toUInt32 (base.wear (2 ^ 32 - 1)).terms.slots = 0 := by
    rw [slots_wear, ← hbase, slots_keptLine]
    rfl
  rw [hrun, SimilarityIndex.upsert, erase_of_none hline, addLine_bigram]
  simp only [InternTable.retain, hterm, hid]
  subst hbase
  exact ⟨by decide, by decide, by decide, by decide, by decide⟩

lemma firstSlot_aliasing :
    (run aliasing).terms.refCount 0 = 1 ∧ (run aliasing).terms.valuesById.getD 0 [] = [120, 121] := by
  generalize hn : 2 ^ 32 - 1 = n
  have hrun := run_aliasing_eq
  rw [hn] at hrun
  have hvalues : (run [.upsert 0 (ascii "p") 0 [120, 121]]).terms.valuesById = [[120, 121]] := by decide
  have hcounts : (run [.upsert 0 (ascii "p") 0 [120, 121]]).terms.refCounts = [1] := by decide
  have hline : ((run [.upsert 0 (ascii "p") 0 [120, 121]]).wear n).lines.lookup 2 = none := by
    change (run [.upsert 0 (ascii "p") 0 [120, 121]]).lines.lookup 2 = none
    decide
  have hterm : ((run [.upsert 0 (ascii "p") 0 [120, 121]]).wear n).terms.idsByValue.lookup [99, 100] =
      none := by
    change (run [.upsert 0 (ascii "p") 0 [120, 121]]).terms.idsByValue.lookup [99, 100] = none
    decide
  rw [hrun, SimilarityIndex.upsert, erase_of_none hline, addLine_bigram]
  simp only [InternTable.retain, hterm]
  simp only [InternTable.refCount, wear, hvalues, hcounts]
  exact ⟨rfl, rfl⟩

end IndexCall

end DltxtBridge
