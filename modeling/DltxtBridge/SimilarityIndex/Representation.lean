import DltxtBridge.SimilarityIndex.TermFrequency

/-! The index represents a finite map from line ids to lines. Retained references
outnumber the lines that use a term, which keeps every term of a live line mapped. -/

namespace DltxtBridge

structure CorpusLine where
  filePath : Bytes
  lineNumber : ℕ
  text : Text
deriving DecidableEq

abbrev Corpus := FiniteMap LineId CorpusLine

namespace SimilarityIndex

def termsOf (s : SimilarityIndex) (id : LineId) : List TermId :=
  match s.lines.lookup id with
  | some line => line.termFrequency.map Prod.fst
  | none => []

def fileOf (s : SimilarityIndex) (id : LineId) : Option ℕ := (s.lines.lookup id).map IndexedLine.fileId

def holders (s : SimilarityIndex) (t : TermId) : Finset LineId :=
  s.lines.keys.filter fun id => t ∈ s.termsOf id

def linesOfFile (s : SimilarityIndex) (f : ℕ) : Finset LineId :=
  s.lines.keys.filter fun id => s.fileOf id = some f

structure StoresLine (terms : TermTable) (files : FileTable) (id : LineId) (line : IndexedLine)
    (c : CorpusLine) : Prop where
  lineId : line.lineId = id
  filePath : files.valuesById[line.fileId]? = some c.filePath
  lineNumber : line.lineNumber = c.lineNumber
  ascending : line.termFrequency.Pairwise (fun a b => a.1 < b.1)
  mem_iff : ∀ t n, (t, n) ∈ line.termFrequency ↔ ∃ g ∈ grams c.text,
    terms.idsByValue.lookup g = some t ∧ n = toUInt32 ((grams c.text).count g)
  mapped : ∀ g ∈ grams c.text, ∃ t, terms.idsByValue.lookup g = some t

structure Represents (s : SimilarityIndex) (C : Corpus) : Prop where
  terms : s.terms.WellFormed True
  files : s.files.WellFormed False
  keys : s.lines.keys = C.keys
  stores : ∀ id line c, s.lines.lookup id = some line → C.lookup id = some c →
    StoresLine s.terms s.files id line c
  inverted : s.inverted.Exact s.holders
  termCounts : ∀ t, (s.holders t).card ≤ s.terms.refCount t
  fileCounts : ∀ f, s.files.refCount f = (s.linesOfFile f).card

lemma StoresLine.getD_filePath {terms : TermTable} {files : FileTable} {id : LineId} {line : IndexedLine}
    {c : CorpusLine} (h : StoresLine terms files id line c) :
    files.valuesById.getD line.fileId [] = c.filePath := by
  rw [List.getD_eq_getElem?_getD, h.filePath, Option.getD_some]

lemma StoresLine.transfer {terms terms' : TermTable} {files files' : FileTable} {id : LineId}
    {line : IndexedLine} {c : CorpusLine} (h : StoresLine terms files id line c)
    (ht : ∀ g ∈ grams c.text, terms'.idsByValue.lookup g = terms.idsByValue.lookup g)
    (hf : files'.valuesById[line.fileId]? = files.valuesById[line.fileId]?) :
    StoresLine terms' files' id line c where
  lineId := h.lineId
  filePath := hf.trans h.filePath
  lineNumber := h.lineNumber
  ascending := h.ascending
  mem_iff t n := by
    rw [h.mem_iff]
    exact exists_congr fun g => and_congr_right fun hg => by rw [ht g hg]
  mapped g hg := by
    obtain ⟨t, hg'⟩ := h.mapped g hg
    exact ⟨t, (ht g hg).trans hg'⟩

lemma StoresLine.nodup {terms : TermTable} {files : FileTable} {id : LineId} {line : IndexedLine}
    {c : CorpusLine} (h : StoresLine terms files id line c) :
    (line.termFrequency.map Prod.fst).Nodup := by
  rw [List.nodup_iff_pairwise_ne, List.pairwise_map]
  exact h.ascending.imp fun hlt => hlt.ne

lemma StoresLine.mem_terms {terms : TermTable} {files : FileTable} {id : LineId}
    {line : IndexedLine} {c : CorpusLine} (h : StoresLine terms files id line c) (t : TermId) :
    t ∈ line.termFrequency.map Prod.fst ↔ ∃ g ∈ grams c.text, terms.idsByValue.lookup g = some t := by
  simp [h.mem_iff]

lemma mem_holders (s : SimilarityIndex) (t : TermId) (id : LineId) :
    id ∈ s.holders t ↔ t ∈ s.termsOf id := by
  rw [holders, Finset.mem_filter, and_iff_right_iff_imp]
  intro ht
  rw [FiniteMap.mem_keys_iff]
  cases hl : s.lines.lookup id with
  | none => simp [termsOf, hl] at ht
  | some line => exact ⟨line, rfl⟩

lemma mem_linesOfFile (s : SimilarityIndex) (f : ℕ) (id : LineId) :
    id ∈ s.linesOfFile f ↔ s.fileOf id = some f := by
  rw [linesOfFile, Finset.mem_filter, and_iff_right_iff_imp]
  intro hf
  rw [FiniteMap.mem_keys_iff]
  cases hl : s.lines.lookup id with
  | none => simp [fileOf, hl] at hf
  | some line => exact ⟨line, rfl⟩

lemma foldl_pair {α β γ : Type} (f : α → γ → α) (g : β → γ → β) (a : α) (b : β) (es : List γ) :
    es.foldl (fun st e => (f st.1 e, g st.2 e)) (a, b) = (es.foldl f a, es.foldl g b) := by
  induction es generalizing a b with
  | nil => rfl
  | cons e es ih => exact ih _ _

lemma erase_of_none {s : SimilarityIndex} {id : LineId} (h : s.lines.lookup id = none) :
    s.erase id = (false, s) := by
  simp only [erase, h]

lemma erase_of_some {s : SimilarityIndex} {id : LineId} {line : IndexedLine}
    (h : s.lines.lookup id = some line) :
    s.erase id = (true,
      { lines := s.lines.erase id
        inverted := (line.termFrequency.map Prod.fst).foldl (fun ix t => ix.remove t id) s.inverted
        terms := (line.termFrequency.map Prod.fst).foldl (fun T t => T.reclaim [] t) s.terms
        files := s.files.release line.fileId }) := by
  simp only [erase, h, List.foldl_map]
  rw [foldl_pair (fun (ix : InvertedIndex TermId LineId) (e : TermId × ℕ) => ix.remove e.1 id)
    (fun T e => releaseTermId e.1 T)]
  rfl

lemma lines_erase (s : SimilarityIndex) (id : LineId) : (s.erase id).2.lines = s.lines.erase id := by
  cases h : s.lines.lookup id with
  | none => rw [erase_of_none h, FiniteMap.erase_of_lookup_none _ h]
  | some line => rw [erase_of_some h]

lemma termsOf_erase (s : SimilarityIndex) (id j : LineId) :
    (s.erase id).2.termsOf j = if j = id then [] else s.termsOf j := by
  rw [termsOf, lines_erase, FiniteMap.lookup_erase]
  split_ifs <;> rfl

lemma holders_erase (s : SimilarityIndex) (id : LineId) (t : TermId) :
    (s.erase id).2.holders t = (s.holders t).erase id := by
  ext j
  rw [mem_holders, termsOf_erase, Finset.mem_erase, mem_holders]
  split_ifs with hj <;> simp [hj]

lemma linesOfFile_erase (s : SimilarityIndex) (id : LineId) (f : ℕ) :
    (s.erase id).2.linesOfFile f = (s.linesOfFile f).erase id := by
  ext j
  rw [mem_linesOfFile, Finset.mem_erase, mem_linesOfFile, fileOf, fileOf, lines_erase,
    FiniteMap.lookup_erase]
  by_cases hj : j = id <;> simp [hj]

namespace Represents

section AddLine

variable (s : SimilarityIndex) (id : LineId) (c : CorpusLine)

def newIds : List TermId := (seenTermIds retainTermId (grams c.text) s.terms).1

def newTerms : TermTable := (seenTermIds retainTermId (grams c.text) s.terms).2

lemma addLine_eq :
    s.addLine id c.filePath c.lineNumber c.text =
      { lines := FiniteMap.emplace id
          ⟨id, (s.files.retain toUInt32 c.filePath).1, c.lineNumber,
            (buildTermFrequency retainTermId c.text s.terms).1⟩ s.lines
        inverted := ((buildTermFrequency retainTermId c.text s.terms).1.map Prod.fst).foldl
          (fun ix t => ix.add t id) s.inverted
        terms := newTerms s c
        files := (s.files.retain toUInt32 c.filePath).2 } := by
  rw [List.foldl_map]
  rfl

variable {s c id}

lemma tallies_newIds : Tallies (buildTermFrequency retainTermId c.text s.terms).1 (newIds s c) :=
  buildTermFrequency_tallies _ _ _

lemma lookup_addLine (hid : s.lines.lookup id = none) (j : LineId) :
    (s.addLine id c.filePath c.lineNumber c.text).lines.lookup j =
      if j = id then
        some ⟨id, (s.files.retain toUInt32 c.filePath).1, c.lineNumber,
          (buildTermFrequency retainTermId c.text s.terms).1⟩
      else s.lines.lookup j := by
  rw [addLine_eq]
  exact FiniteMap.lookup_emplace _ _ _ _ hid

lemma holders_addLine (hid : s.lines.lookup id = none) (t : TermId) :
    (s.addLine id c.filePath c.lineNumber c.text).holders t =
      if t ∈ newIds s c then insert id (s.holders t) else s.holders t := by
  have hnone : id ∉ s.holders t := by
    rw [mem_holders]
    simp only [termsOf, hid, List.not_mem_nil, not_false_eq_true]
  ext j
  rw [mem_holders, termsOf, lookup_addLine hid]
  by_cases hj : j = id
  · subst hj
    rw [if_pos rfl]
    simp only [tallies_newIds.mem_keys]
    split_ifs with ht <;> simp [ht, hnone]
  · rw [if_neg hj]
    change t ∈ s.termsOf j ↔ _
    rw [← mem_holders]
    split_ifs <;> simp [hj]

lemma linesOfFile_addLine (hid : s.lines.lookup id = none) (f : ℕ) :
    (s.addLine id c.filePath c.lineNumber c.text).linesOfFile f =
      if f = (s.files.retain toUInt32 c.filePath).1 then insert id (s.linesOfFile f)
      else s.linesOfFile f := by
  have hnone : id ∉ s.linesOfFile f := by
    rw [mem_linesOfFile, fileOf, hid]
    simp
  ext j
  rw [mem_linesOfFile, fileOf, lookup_addLine hid]
  by_cases hj : j = id
  · subst hj
    rw [if_pos rfl]
    split_ifs with hf
    · simp [hf]
    · simp [hnone, Ne.symm hf]
  · rw [if_neg hj]
    change s.fileOf j = some f ↔ _
    rw [← mem_linesOfFile]
    split_ifs <;> simp [hj]

end AddLine

end Represents

/-- What holds of every index, also once term ids alias: lines are stored under their own
ids, and the inverted index is that of the stored lines. -/
structure Wired (s : SimilarityIndex) : Prop where
  lineId : ∀ id line, s.lines.lookup id = some line → line.lineId = id
  ascending : ∀ id line, s.lines.lookup id = some line →
    line.termFrequency.Pairwise fun a b => a.1 < b.1
  inverted : s.inverted.Exact s.holders

namespace Wired

variable {s : SimilarityIndex}

lemma empty : Wired {} where
  lineId id line h := by simp [Finmap.lookup_empty] at h
  ascending id line h := by simp [Finmap.lookup_empty] at h
  inverted := InvertedIndex.Exact.empty

lemma nodup (h : Wired s) {id : LineId} {line : IndexedLine} (hl : s.lines.lookup id = some line) :
    (line.termFrequency.map Prod.fst).Nodup := by
  rw [List.nodup_iff_pairwise_ne, List.pairwise_map]
  exact (h.ascending id line hl).imp fun hlt => hlt.ne

lemma erase (h : Wired s) (id : LineId) : Wired (s.erase id).2 := by
  cases hl : s.lines.lookup id with
  | none =>
    rw [erase_of_none hl]
    exact h
  | some line =>
    have hterms : s.termsOf id = line.termFrequency.map Prod.fst := by simp only [termsOf, hl]
    have hstored : ∀ j other, (s.erase id).2.lines.lookup j = some other → s.lines.lookup j = some other := by
      intro j other hj
      rw [lines_erase, FiniteMap.lookup_erase] at hj
      split_ifs at hj
      exact hj
    refine ⟨fun j other hj => h.lineId j other (hstored j other hj),
      fun j other hj => h.ascending j other (hstored j other hj), ?_⟩
    have hholders := holders_erase s id
    rw [erase_of_some hl] at hholders ⊢
    have hremove := h.inverted.foldl_remove id _ (h.nodup hl) fun t ht =>
      (mem_holders s t id).mpr (hterms ▸ ht)
    convert hremove using 1
    funext t
    rw [hholders]
    split_ifs with ht
    · rfl
    · apply Finset.erase_eq_of_notMem
      intro hm
      rw [mem_holders, hterms] at hm
      exact ht hm

lemma addLine (h : Wired s) {id : LineId} (hid : s.lines.lookup id = none) (c : CorpusLine) :
    Wired (s.addLine id c.filePath c.lineNumber c.text) := by
  have htally := Represents.tallies_newIds (s := s) (c := c)
  refine ⟨fun j line hj => ?_, fun j line hj => ?_, ?_⟩
  · rw [Represents.lookup_addLine hid] at hj
    split_ifs at hj with hne
    · rw [← Option.some.inj hj, hne]
    · exact h.lineId j line hj
  · rw [Represents.lookup_addLine hid] at hj
    split_ifs at hj with hne
    · rw [← Option.some.inj hj]
      exact htally.ascending
    · exact h.ascending j line hj
  · have hadd := h.inverted.foldl_add id _ htally.nodup_keys fun t _ hm => by
      rw [mem_holders] at hm
      simp only [termsOf, hid, List.not_mem_nil] at hm
    have hholders := Represents.holders_addLine (c := c) hid
    rw [Represents.addLine_eq] at hholders ⊢
    convert hadd using 1
    funext t
    rw [hholders]
    exact if_congr (htally.mem_keys t).symm rfl rfl

lemma upsert (h : Wired s) (id : LineId) (c : CorpusLine) :
    Wired (s.upsert id c.filePath c.lineNumber c.text) := by
  have hnone : (s.erase id).2.lines.lookup id = none := by
    rw [lines_erase, FiniteMap.lookup_erase, if_pos rfl]
  exact (h.erase id).addLine hnone c

end Wired

namespace Represents

variable {s : SimilarityIndex} {C : Corpus}

lemma empty : Represents {} ∅ where
  terms := InternTable.WellFormed.empty
  files := InternTable.WellFormed.empty
  keys := rfl
  stores id line c h := by simp [Finmap.lookup_empty] at h
  inverted := InvertedIndex.Exact.empty
  termCounts t := by simp [holders]
  fileCounts f := by simp [linesOfFile, InternTable.refCount]

lemma lookup_none_iff (h : Represents s C) (id : LineId) :
    s.lines.lookup id = none ↔ C.lookup id = none := by
  rw [Finmap.lookup_eq_none, Finmap.lookup_eq_none, ← Finmap.mem_keys, ← Finmap.mem_keys, h.keys]

lemma exists_line (h : Represents s C) {id : LineId} {c : CorpusLine} (hc : C.lookup id = some c) :
    ∃ line, s.lines.lookup id = some line ∧ StoresLine s.terms s.files id line c := by
  cases hl : s.lines.lookup id with
  | none => rw [(h.lookup_none_iff id).mp hl] at hc; cases hc
  | some line => exact ⟨line, rfl, h.stores id line c hl hc⟩

lemma exists_content (h : Represents s C) {id : LineId} {line : IndexedLine}
    (hl : s.lines.lookup id = some line) :
    ∃ c, C.lookup id = some c ∧ StoresLine s.terms s.files id line c := by
  cases hc : C.lookup id with
  | none => rw [(h.lookup_none_iff id).mpr hc] at hl; cases hl
  | some c => exact ⟨c, rfl, h.stores id line c hl hc⟩

lemma wired (h : Represents s C) : Wired s where
  lineId _ _ hl := (h.exists_content hl).elim fun _ hc => hc.2.lineId
  ascending _ _ hl := (h.exists_content hl).elim fun _ hc => hc.2.ascending
  inverted := h.inverted

lemma erase_absent (h : Represents s C) {id : LineId} (hl : s.lines.lookup id = none) :
    C.erase id = C :=
  FiniteMap.erase_of_lookup_none C ((h.lookup_none_iff id).mp hl)

section Erase

variable {id : LineId} {line : IndexedLine}

lemma terms_erase (h : Represents s C) (hl : s.lines.lookup id = some line) (t : TermId) :
    ((s.holders t).erase id).card ≤
      ((line.termFrequency.map Prod.fst).foldl (fun T t => T.reclaim [] t) s.terms).refCount t := by
  obtain ⟨c, -, hline⟩ := h.exists_content hl
  have hle := h.termCounts t
  rw [(h.terms.foldl_reclaim [] _ hline.nodup).2.1]
  split_ifs with ht
  · have hmem : id ∈ s.holders t := by
      rw [mem_holders]
      simpa only [termsOf, hl] using ht
    rw [Finset.card_erase_of_mem hmem]
    omega
  · exact (Finset.card_erase_le).trans hle

lemma stores_erase (h : Represents s C) (hl : s.lines.lookup id = some line) {j : LineId}
    (hne : j ≠ id) {other : IndexedLine} {d : CorpusLine} (hj : s.lines.lookup j = some other)
    (hd : C.lookup j = some d) :
    StoresLine ((line.termFrequency.map Prod.fst).foldl (fun T t => T.reclaim [] t) s.terms)
      (s.files.release line.fileId) j other d := by
  obtain ⟨c, -, hline⟩ := h.exists_content hl
  have hother := h.stores j other d hj hd
  apply hother.transfer
  · intro g hg
    obtain ⟨t, ht⟩ := hother.mapped g hg
    have hmem : j ∈ (s.holders t).erase id := by
      rw [Finset.mem_erase, mem_holders]
      refine ⟨hne, ?_⟩
      simp only [termsOf, hj]
      exact (hother.mem_terms t).mpr ⟨g, hg, ht⟩
    have hpos := (Finset.card_pos.mpr ⟨j, hmem⟩).trans_le (h.terms_erase hl t)
    rw [ht]
    exact ((h.terms.foldl_reclaim [] _ hline.nodup).2.2 g t).mpr ⟨ht, hpos⟩
  · rw [InternTable.valuesById_release]

lemma files_erase (h : Represents s C) (hl : s.lines.lookup id = some line) (f : ℕ) :
    (s.files.release line.fileId).refCount f = ((s.linesOfFile f).erase id).card := by
  have hmem : id ∈ s.linesOfFile f ↔ f = line.fileId := by
    rw [mem_linesOfFile, fileOf, hl, Option.map_some, Option.some.injEq, eq_comm]
  rw [InternTable.release_refCount]
  split_ifs with hf
  · rw [Finset.card_erase_of_mem (hmem.mpr hf), ← h.fileCounts, hf]
  · rw [Finset.erase_eq_of_notMem (mt hmem.mp hf), h.fileCounts]

end Erase

lemma erase (h : Represents s C) (id : LineId) : Represents (s.erase id).2 (C.erase id) := by
  cases hl : s.lines.lookup id with
  | none =>
    rw [erase_of_none hl, h.erase_absent hl]
    exact h
  | some line =>
    obtain ⟨c, hc, hline⟩ := h.exists_content hl
    have hwired := h.wired.erase id
    have hholders := holders_erase s id
    have hfiles := linesOfFile_erase s id
    rw [erase_of_some hl] at hwired hholders hfiles ⊢
    constructor
    · exact (h.terms.foldl_reclaim [] _ hline.nodup).1
    · exact h.files.release line.fileId
    · change (s.lines.erase id).keys = (C.erase id).keys
      rw [Finmap.keys_erase, Finmap.keys_erase, h.keys]
    · intro j other d hj hd
      change (s.lines.erase id).lookup j = some other at hj
      rw [FiniteMap.lookup_erase] at hj hd
      split_ifs at hj hd with hne
      exact h.stores_erase hl hne hj hd
    · exact hwired.inverted
    · intro t
      rw [hholders]
      exact h.terms_erase hl t
    · intro f
      rw [hfiles]
      exact h.files_erase hl f

section AddLine

variable {id : LineId} {c : CorpusLine}

section Stores

variable (hintern : Interned s.terms (grams c.text) (newIds s c) (newTerms s c))
  (hfile : InternTable.Retained False s.files c.filePath
    (s.files.retain toUInt32 c.filePath).1 (s.files.retain toUInt32 c.filePath).2)

include hintern hfile

lemma stores_addLine_self :
    StoresLine (newTerms s c) (s.files.retain toUInt32 c.filePath).2 id
      ⟨id, (s.files.retain toUInt32 c.filePath).1, c.lineNumber,
        (buildTermFrequency retainTermId c.text s.terms).1⟩ c where
  lineId := rfl
  filePath := ((hfile.wellFormed.mapped_iff _ _).mp hfile.mapped).1
  lineNumber := rfl
  ascending := tallies_newIds.ascending
  mem_iff t n := by
    rw [tallies_newIds.mem_iff, hintern.mem_ids_iff]
    constructor
    · rintro ⟨⟨g, hg, ht⟩, rfl⟩
      exact ⟨g, hg, ht, by rw [hintern.count_ids ht]⟩
    · rintro ⟨g, hg, ht, rfl⟩
      exact ⟨⟨g, hg, ht⟩, by rw [hintern.count_ids ht]⟩
  mapped g hg := by
    obtain ⟨t, ht, -⟩ := hintern.exists_id hg
    exact ⟨t, ht⟩

lemma stores_addLine_other (h : Represents s C) {j : LineId} {line : IndexedLine} {d : CorpusLine}
    (hj : s.lines.lookup j = some line) (hd : C.lookup j = some d) :
    StoresLine (newTerms s c) (s.files.retain toUInt32 c.filePath).2 j line d := by
  have hold := h.stores j line d hj hd
  apply hold.transfer
  · intro g hg
    obtain ⟨t, ht⟩ := hold.mapped g hg
    rw [ht]
    exact hintern.lookup_of_mapped g t ht
  · have hmap := (h.files.mapped_iff d.filePath line.fileId).mpr ⟨hold.filePath, fun hf => hf.elim⟩
    rw [hold.filePath]
    exact ((hfile.wellFormed.mapped_iff _ _).mp (hfile.lookup_of_mapped _ _ hmap)).1

end Stores

lemma terms_addLine (h : Represents s C)
    (hintern : Interned s.terms (grams c.text) (newIds s c) (newTerms s c)) (t : TermId) :
    (if t ∈ newIds s c then insert id (s.holders t) else s.holders t).card ≤
      (newTerms s c).refCount t := by
  have hle := h.termCounts t
  rw [hintern.refCount_eq]
  split_ifs with ht
  · have hcount : 0 < (newIds s c).count t := List.count_pos_iff.mpr ht
    have hcard := Finset.card_insert_le id (s.holders t)
    omega
  · omega

lemma addLine (h : Represents s C) (hid : s.lines.lookup id = none)
    (hterms : (s.addLine id c.filePath c.lineNumber c.text).terms.slots < 2 ^ 32)
    (hfiles : (s.addLine id c.filePath c.lineNumber c.text).files.slots < 2 ^ 32) :
    Represents (s.addLine id c.filePath c.lineNumber c.text) (C.insert id c) := by
  have hintern : Interned s.terms (grams c.text) (newIds s c) (newTerms s c) := by
    rw [addLine_eq] at hterms
    exact seenTermIds_retain _ h.terms hterms
  have hfile : InternTable.Retained False s.files c.filePath
      (s.files.retain toUInt32 c.filePath).1 (s.files.retain toUInt32 c.filePath).2 := by
    rw [addLine_eq] at hfiles
    exact h.files.retain toUInt32 _ fun _ =>
      toUInt32_of_lt ((s.files.slots_le_retain toUInt32 _).trans_lt hfiles)
  constructor
  · rw [addLine_eq]
    exact hintern.wellFormed
  · rw [addLine_eq]
    exact hfile.wellFormed
  · ext j
    rw [FiniteMap.keys_insert, Finset.mem_insert, ← h.keys, FiniteMap.mem_keys_iff,
      FiniteMap.mem_keys_iff, lookup_addLine hid]
    split_ifs with hj <;> simp [hj]
  · intro j line d hj hd
    rw [lookup_addLine hid] at hj
    rw [FiniteMap.lookup_insert] at hd
    rw [addLine_eq]
    split_ifs at hj hd with hne
    · rw [Option.some.injEq] at hj hd
      subst hne hj hd
      exact stores_addLine_self hintern hfile
    · exact stores_addLine_other hintern hfile h hj hd
  · exact (h.wired.addLine hid c).inverted
  · intro t
    rw [holders_addLine hid, addLine_eq]
    exact h.terms_addLine hintern t
  · intro f
    rw [linesOfFile_addLine hid, addLine_eq]
    change (s.files.retain toUInt32 c.filePath).2.refCount f = _
    rw [hfile.refCount_eq, h.fileCounts]
    split_ifs with hf
    · rw [Finset.card_insert_of_notMem]
      rw [mem_linesOfFile, fileOf, hid]
      simp
    · rfl

end AddLine

lemma upsert (h : Represents s C) (id : LineId) (c : CorpusLine)
    (hterms : (s.upsert id c.filePath c.lineNumber c.text).terms.slots < 2 ^ 32)
    (hfiles : (s.upsert id c.filePath c.lineNumber c.text).files.slots < 2 ^ 32) :
    Represents (s.upsert id c.filePath c.lineNumber c.text) (C.insert id c) := by
  have hnone : (s.erase id).2.lines.lookup id = none := by
    rw [lines_erase, FiniteMap.lookup_erase, if_pos rfl]
  have hins : (C.erase id).insert id c = C.insert id c := by
    apply Finmap.ext_lookup
    intro j
    rw [FiniteMap.lookup_insert, FiniteMap.lookup_insert, FiniteMap.lookup_erase]
    split_ifs <;> rfl
  have hadd := (h.erase id).addLine hnone hterms hfiles
  rwa [hins] at hadd

end Represents

end SimilarityIndex

end DltxtBridge
