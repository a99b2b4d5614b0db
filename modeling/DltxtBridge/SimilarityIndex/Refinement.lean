import DltxtBridge.SimilarityIndex.Representation

namespace DltxtBridge

namespace SimilarityIndex

lemma slots_foldl_reclaim (ts : List TermId) (T : TermTable) :
    (ts.foldl (fun T t => T.reclaim [] t) T).slots = T.slots := by
  induction ts generalizing T with
  | nil => rfl
  | cons t ts ih => rw [List.foldl_cons, ih, InternTable.slots_reclaim]

lemma slots_erase (s : SimilarityIndex) (id : LineId) :
    (s.erase id).2.terms.slots = s.terms.slots ∧ (s.erase id).2.files.slots = s.files.slots := by
  cases hl : s.lines.lookup id with
  | none => rw [erase_of_none hl]; exact ⟨rfl, rfl⟩
  | some line =>
    rw [erase_of_some hl]
    exact ⟨slots_foldl_reclaim _ _, InternTable.slots_release _ _⟩

lemma slots_upsert (s : SimilarityIndex) (id : LineId) (path : Bytes) (number : ℕ) (text : Text) :
    s.terms.slots ≤ (s.upsert id path number text).terms.slots ∧
      s.files.slots ≤ (s.upsert id path number text).files.slots := by
  obtain ⟨ht, hf⟩ := slots_erase s id
  exact ⟨ht ▸ slots_le_seenTermIds (grams text) _, hf ▸ InternTable.slots_le_retain _ toUInt32 path⟩

end SimilarityIndex

namespace IndexCall

open SimilarityIndex

def applyCorpus (C : Corpus) : IndexCall → Corpus
  | .upsert id path number text => C.insert id ⟨path, number, text⟩
  | .erase id => C.erase id

def corpus (calls : List IndexCall) : Corpus := calls.foldl applyCorpus ∅

def lastUpsert (calls : List IndexCall) (id : LineId) : Option CorpusLine :=
  match calls.reverse.find? (fun call => call.lineId = id) with
  | some (.upsert _ path number text) => some ⟨path, number, text⟩
  | _ => none

def WithinIds (s : SimilarityIndex) : Prop := s.terms.slots < 2 ^ 32 ∧ s.files.slots < 2 ^ 32

instance : DecidablePred WithinIds := fun _ => inferInstanceAs (Decidable (_ ∧ _))

lemma run_concat (calls : List IndexCall) (call : IndexCall) :
    run (calls ++ [call]) = apply (run calls) call := by
  simp [run]

lemma corpus_concat (calls : List IndexCall) (call : IndexCall) :
    corpus (calls ++ [call]) = applyCorpus (corpus calls) call := by
  simp [corpus]

lemma corpus_lookup (calls : List IndexCall) (id : LineId) :
    (corpus calls).lookup id = lastUpsert calls id := by
  induction calls using List.reverseRecOn with
  | nil => rfl
  | append_singleton calls call ih =>
    rw [corpus_concat, lastUpsert, List.reverse_append, List.reverse_singleton, List.singleton_append,
      List.find?_cons]
    cases call with
    | upsert j path number text =>
      rw [applyCorpus, FiniteMap.lookup_insert]
      by_cases hj : j = id
      · simp [lineId, hj]
      · rw [if_neg (Ne.symm hj), ih]
        simp [lineId, hj, lastUpsert]
    | erase j =>
      rw [applyCorpus, FiniteMap.lookup_erase]
      by_cases hj : j = id
      · simp [lineId, hj]
      · rw [if_neg (Ne.symm hj), ih]
        simp [lineId, hj, lastUpsert]

lemma slots_apply (s : SimilarityIndex) (call : IndexCall) :
    s.terms.slots ≤ (apply s call).terms.slots ∧ s.files.slots ≤ (apply s call).files.slots := by
  cases call with
  | upsert id path number text => exact slots_upsert s id path number text
  | erase id => exact ⟨(slots_erase s id).1.ge, (slots_erase s id).2.ge⟩

lemma represents_apply {s : SimilarityIndex} {C : Corpus} (h : Represents s C) (call : IndexCall)
    (hids : WithinIds (apply s call)) : Represents (apply s call) (applyCorpus C call) := by
  cases call with
  | upsert id path number text => exact h.upsert id ⟨path, number, text⟩ hids.1 hids.2
  | erase id => exact h.erase id

lemma wired_run (calls : List IndexCall) : Wired (run calls) := by
  induction calls using List.reverseRecOn with
  | nil => exact Wired.empty
  | append_singleton calls call ih =>
    rw [run_concat]
    cases call with
    | upsert id path number text => exact ih.upsert id ⟨path, number, text⟩
    | erase id => exact ih.erase id

lemma represents_run (calls : List IndexCall) (hids : WithinIds (run calls)) :
    Represents (run calls) (corpus calls) := by
  induction calls using List.reverseRecOn with
  | nil => exact Represents.empty
  | append_singleton calls call ih =>
    rw [run_concat] at hids ⊢
    rw [corpus_concat]
    obtain ⟨ht, hf⟩ := slots_apply (run calls) call
    exact represents_apply (ih ⟨ht.trans_lt hids.1, hf.trans_lt hids.2⟩) call hids

end IndexCall

namespace SimilarityIndex

def Corpus.paths (C : Corpus) : Finset Bytes :=
  C.keys.image fun id => ((C.lookup id).map CorpusLine.filePath).getD []

lemma Represents.fileCount_eq {s : SimilarityIndex} {C : Corpus} (h : Represents s C) :
    s.fileCount = (Corpus.paths C).card := by
  rw [fileCount, h.files.countP_refCounts]
  have hvalue : ∀ f, 0 < s.files.refCount f → ∃ id line c, s.lines.lookup id = some line ∧
      line.fileId = f ∧ C.lookup id = some c ∧ s.files.valuesById.getD f [] = c.filePath := by
    intro f hf
    rw [h.fileCounts, Finset.card_pos] at hf
    obtain ⟨id, hid⟩ := hf
    rw [mem_linesOfFile, fileOf, Option.map_eq_some_iff] at hid
    obtain ⟨line, hl, rfl⟩ := hid
    obtain ⟨c, hc, hline⟩ := h.exists_content hl
    exact ⟨id, line, c, hl, rfl, hc, hline.getD_filePath⟩
  refine Finset.card_bij (fun f _ => s.files.valuesById.getD f []) ?_ ?_ ?_
  · intro f hf
    obtain ⟨id, line, c, -, -, hc, hp⟩ := hvalue f (Finset.mem_filter.mp hf).2
    rw [hp, Corpus.paths, Finset.mem_image]
    exact ⟨id, (FiniteMap.mem_keys_iff _ _).mpr ⟨c, hc⟩, by rw [hc]; rfl⟩
  · intro f hf g hg he
    have hlookup := h.files.lookup_getD [] (Finset.mem_filter.mp hf).2
    rw [he, h.files.lookup_getD [] (Finset.mem_filter.mp hg).2, Option.some.injEq] at hlookup
    exact hlookup.symm
  · intro p hp
    rw [Corpus.paths, Finset.mem_image] at hp
    obtain ⟨id, hid, rfl⟩ := hp
    obtain ⟨c, hc⟩ := (FiniteMap.mem_keys_iff _ _).mp hid
    obtain ⟨line, hl, hline⟩ := h.exists_line hc
    have hmem : id ∈ s.linesOfFile line.fileId := by
      rw [mem_linesOfFile, fileOf, hl]
      rfl
    have hpos : 0 < s.files.refCount line.fileId := by
      rw [h.fileCounts]
      exact Finset.card_pos.mpr ⟨id, hmem⟩
    refine ⟨line.fileId, Finset.mem_filter.mpr ⟨?_, hpos⟩, ?_⟩
    · exact Finset.mem_range.mpr (h.files.lt_slots hpos)
    · rw [hline.getD_filePath, hc]
      rfl

/-- The index is an exact image of the live lines, with occurrences of a bigram
counted through `wrap`. -/
structure ExactFor (wrap : ℕ → ℕ) (s : SimilarityIndex) (live : LineId → Option CorpusLine) :
    Prop where
  live_iff : ∀ id, id ∈ s.lines ↔ live id ≠ none
  stored : ∀ id line c, s.lines.lookup id = some line → live id = some c →
    line.lineId = id ∧ s.files.valuesById[line.fileId]? = some c.filePath ∧
      line.lineNumber = c.lineNumber
  frequencies : ∀ id line c, s.lines.lookup id = some line → live id = some c →
    line.termFrequency.Pairwise (fun a b => a.1 < b.1) ∧
      ∀ t n, (t, n) ∈ line.termFrequency ↔ ∃ g ∈ grams c.text,
        s.terms.valuesById[t]? = some g ∧ s.terms.idsByValue.lookup g = some t ∧
          n = wrap ((grams c.text).count g)
  mapped : ∀ id c, live id = some c → ∀ g ∈ grams c.text,
    ∃ t, s.terms.idsByValue.lookup g = some t ∧ s.terms.valuesById[t]? = some g
  posting : ∀ t xs, s.inverted.postings.lookup t = some xs →
    xs.Pairwise (· < ·) ∧ s.inverted.documentFrequency.lookup t = some xs.length ∧
      ∀ id, id ∈ xs ↔ ∃ line, s.lines.lookup id = some line ∧
        t ∈ line.termFrequency.map Prod.fst
  posted_iff : ∀ t, t ∈ s.inverted.postings ↔ ∃ id line, s.lines.lookup id = some line ∧
    t ∈ line.termFrequency.map Prod.fst
  counted_iff : ∀ t, t ∈ s.inverted.documentFrequency ↔ t ∈ s.inverted.postings
  fileRefs : ∀ f, s.files.refCount f =
    (s.lines.keys.filter fun id => (s.lines.lookup id).map IndexedLine.fileId = some f).card
  fileCount : s.fileCount =
    (s.lines.keys.image fun id => ((live id).map CorpusLine.filePath).getD []).card

lemma mem_holders_iff (s : SimilarityIndex) (t : TermId) (id : LineId) :
    id ∈ s.holders t ↔
      ∃ line, s.lines.lookup id = some line ∧ t ∈ line.termFrequency.map Prod.fst := by
  rw [mem_holders, termsOf]
  cases s.lines.lookup id <;> simp

lemma Represents.exactFor {s : SimilarityIndex} {C : Corpus} (h : Represents s C) :
    ExactFor toUInt32 s (fun id => C.lookup id) where
  live_iff id := by rw [← Finmap.mem_keys, h.keys, Finmap.mem_keys, FiniteMap.mem_iff_lookup]
  stored id line c hl hc := by
    have hline := h.stores id line c hl hc
    exact ⟨hline.lineId, hline.filePath, hline.lineNumber⟩
  frequencies id line c hl hc := by
    have hline := h.stores id line c hl hc
    refine ⟨hline.ascending, fun t n => ?_⟩
    rw [hline.mem_iff]
    refine exists_congr fun g => and_congr_right fun _ => ?_
    have hmap := h.terms.mapped_iff g t
    tauto
  mapped id c hc g hg := by
    obtain ⟨line, hl, hline⟩ := h.exists_line hc
    obtain ⟨t, ht⟩ := hline.mapped g hg
    exact ⟨t, ht, ((h.terms.mapped_iff g t).mp ht).1⟩
  posting t xs hxs := by
    obtain ⟨hlist, -⟩ := h.inverted.listed t xs hxs
    refine ⟨hlist.ascending, ?_, fun id => ?_⟩
    · rw [h.inverted.frequency, hxs]
      rfl
    · rw [hlist.mem_iff, mem_holders_iff]
  posted_iff t := by
    rw [FiniteMap.mem_iff_lookup, ne_eq, h.inverted.lookup_eq_none_iff, ← ne_eq,
      ← Finset.nonempty_iff_ne_empty]
    exact exists_congr fun id => mem_holders_iff s t id
  counted_iff t := by
    rw [FiniteMap.mem_iff_lookup, FiniteMap.mem_iff_lookup, h.inverted.frequency]
    cases s.inverted.postings.lookup t <;> simp
  fileRefs := h.fileCounts
  fileCount := by
    rw [h.fileCount_eq, h.keys]
    rfl

end SimilarityIndex

namespace IndexCall

open SimilarityIndex

theorem run_exactFor (calls : List IndexCall) (hids : WithinIds (run calls)) :
    ExactFor toUInt32 (run calls) (lastUpsert calls) := by
  have h := (represents_run calls hids).exactFor
  rwa [show (fun id => (corpus calls).lookup id) = lastUpsert calls from
    funext (corpus_lookup calls)] at h

theorem run_exactFor_reupsert :
    ExactFor toUInt32
      (run [.upsert 7 (ascii "a.txt") 3 [97, 97, 97], .upsert 4 (ascii "b.txt") 0 [97, 97],
        .upsert 7 (ascii "b.txt") 1 [98, 97], .erase 4])
      (lastUpsert [.upsert 7 (ascii "a.txt") 3 [97, 97, 97], .upsert 4 (ascii "b.txt") 0 [97, 97],
        .upsert 7 (ascii "b.txt") 1 [98, 97], .erase 4]) :=
  run_exactFor _ (by decide)

def repeatedBigram (n : ℕ) : List IndexCall := [.upsert 0 [] 0 (List.replicate (n + 1) 97 ++ [98])]

lemma withinIds_repeatedBigram (n : ℕ) : WithinIds (run (repeatedBigram n)) := by
  constructor
  · change (seenTermIds retainTermId (grams (List.replicate (n + 1) 97 ++ [98])) {}).2.slots < 2 ^ 32
    have hrepeat : (seenTermIds retainTermId (List.replicate n [97, 97]) {}).2.slots ≤ 1 := by
      cases n with
      | zero => decide
      | succ n =>
        rw [List.replicate_succ]
        refine (slots_seenTermIds_of_mapped (List.replicate n [97, 97]) _ ?_).trans_le (by decide)
        intro g hg
        rw [List.eq_of_mem_replicate hg]
        decide
    rw [grams_replicate_snoc, seenTermIds_append_state]
    apply (InternTable.slots_retain_le _ toUInt32 [97, 98]).trans_lt
    omega
  · change 1 < 2 ^ 32
    decide

lemma count_repeatedBigram (n : ℕ) :
    (grams (List.replicate (n + 1) 97 ++ [98])).count [97, 97] = n := by
  rw [grams_replicate_snoc, List.count_append, List.count_replicate_self]
  rfl

lemma corpus_repeatedBigram (n : ℕ) :
    (corpus (repeatedBigram n)).lookup 0 = some ⟨[], 0, List.replicate (n + 1) 97 ++ [98]⟩ :=
  Finmap.lookup_insert _

theorem run_not_exactFor_id :
    ¬ ∀ calls, WithinIds (run calls) → ExactFor id (run calls) (lastUpsert calls) := by
  intro hall
  generalize hn : 2 ^ 32 = n
  have hids := withinIds_repeatedBigram n
  have h := represents_run _ hids
  have hc := corpus_repeatedBigram n
  obtain ⟨line, hl, hline⟩ := h.exists_line hc
  have hmem : ([97, 97] : Term) ∈ grams (List.replicate (n + 1) 97 ++ [98]) := by
    rw [← List.count_pos_iff, count_repeatedBigram]
    omega
  obtain ⟨t, ht⟩ := hline.mapped _ hmem
  have hwrapped := (hline.mem_iff t _).mpr ⟨_, hmem, ht, rfl⟩
  rw [corpus_lookup] at hc
  obtain ⟨g, -, -, hg, hexact⟩ := (((hall _ hids).frequencies 0 line _ hl hc).2 t _).mp hwrapped
  rw [h.terms.injective hg ht, count_repeatedBigram, toUInt32, hn, Nat.mod_self] at hexact
  simp only [id_eq] at hexact
  omega

end IndexCall

end DltxtBridge
