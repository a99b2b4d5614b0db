import DltxtBridge.Crossref.Bookkeeping
import DltxtBridge.SimilarityIndex.Overflow

namespace DltxtBridge

namespace SimilarityIndex

lemma lookup_lineNumber_upsert (s : SimilarityIndex) (id j : LineId) (path : Bytes) (number : ℕ)
    (text : Text) : ((s.upsert id path number text).lines.lookup j).map IndexedLine.lineNumber =
      if j = id then some number else (s.lines.lookup j).map IndexedLine.lineNumber := by
  have habsent : (s.erase id).2.lines.lookup id = none := by
    rw [lines_erase, FiniteMap.lookup_erase, if_pos rfl]
  rw [upsert, addLine, FiniteMap.lookup_emplace _ _ _ _ habsent, lines_erase, FiniteMap.lookup_erase]
  split_ifs <;> rfl

end SimilarityIndex

namespace Crossref

open Documents IndexCall

def corpusLine (info : LineInfo) : CorpusLine := ⟨info.fileName, info.lineNumber, info.jpLine⟩

namespace BuildState

def Indexed (b : BuildState) : Prop :=
  ∃ calls, b.index = IndexCall.run calls ∧
    ∀ id, (corpus calls).lookup id = (b.lineInfos.lookup id).map corpusLine

def Numbered (b : BuildState) : Prop :=
  ∀ id, (b.index.lines.lookup id).map IndexedLine.lineNumber =
    (b.lineInfos.lookup id).map LineInfo.lineNumber

structure Sound (b : BuildState) : Prop where
  consistent : Consistent b
  indexed : Indexed b
  numbered : Numbered b

lemma run_append_calls (calls more : List IndexCall) :
    IndexCall.run (calls ++ more) = more.foldl apply (IndexCall.run calls) :=
  List.foldl_append

lemma corpus_append_calls (calls more : List IndexCall) :
    corpus (calls ++ more) = more.foldl applyCorpus (corpus calls) :=
  List.foldl_append

lemma foldl_erase_calls (ids : List LineId) (s : SimilarityIndex) :
    (ids.map IndexCall.erase).foldl apply s = ids.foldl (fun index id => (index.erase id).2) s :=
  List.foldl_map

lemma lookup_foldl_erase_calls (ids : List LineId) (C : Corpus) (id : LineId) :
    ((ids.map IndexCall.erase).foldl applyCorpus C).lookup id = if id ∈ ids then none else C.lookup id := by
  rw [List.foldl_map]
  exact FiniteMap.lookup_foldl_erase ids C id

namespace Sound

variable {b : BuildState}

lemma empty (roots : List FsPath) (rules : List WorkspaceGitIgnoreRules) :
    Sound { workspaceRootPaths := roots, workspaceGitignoreRules := rules } where
  consistent := consistent_empty roots rules
  indexed := ⟨[], rfl, fun _ => rfl⟩
  numbered _ := rfl

lemma congr {c : BuildState} (h : Sound b) (hconsistent : Consistent c) (hindex : c.index = b.index)
    (hinfos : c.lineInfos = b.lineInfos) : Sound c where
  consistent := hconsistent
  indexed := by
    rw [Indexed, hindex, hinfos]
    exact h.indexed
  numbered := by
    rw [Numbered, hindex, hinfos]
    exact h.numbered

lemma eraseLines (h : Sound b) (f : Bytes) : Sound (b.eraseLines f) where
  consistent := h.consistent.eraseLines f
  indexed := by
    cases hids : b.fileLineIds.lookup f with
    | none =>
      rw [eraseLines_of_none hids]
      exact h.indexed
    | some ids =>
      obtain ⟨calls, hindex, hcorpus⟩ := h.indexed
      refine ⟨calls ++ ids.map IndexCall.erase, ?_, fun id => ?_⟩
      · rw [run_append_calls, foldl_erase_calls, ← hindex, eraseLines_of_some hids]
      · rw [corpus_append_calls, lookup_foldl_erase_calls, hcorpus, lookup_lineInfos_eraseLines, hids,
          Option.getD_some]
        split_ifs <;> rfl
  numbered id := by
    rw [lookup_lineInfos_eraseLines]
    cases hids : b.fileLineIds.lookup f with
    | none =>
      rw [eraseLines_of_none hids, Option.getD_none, if_neg List.not_mem_nil]
      exact h.numbered id
    | some ids =>
      rw [eraseLines_of_some hids, SimilarityIndex.lines_foldl_erase, FiniteMap.lookup_foldl_erase,
        Option.getD_some]
      split_ifs
      · rfl
      · exact h.numbered id

lemma eraseFile (h : Sound b) (f : Bytes) : Sound (b.eraseFile f) :=
  (h.eraseLines f).congr (h.consistent.eraseFile f) rfl rfl

lemma addPair (h : Sound b) {f base : Bytes} (hf : f ∈ b.indexedFilePaths) (pair : ParsedPair) :
    Sound (b.addPair f base pair) where
  consistent := h.consistent.addPair hf pair
  indexed := by
    obtain ⟨calls, hindex, hcorpus⟩ := h.indexed
    refine ⟨calls ++ [.upsert b.nextLineId f pair.originalLineIndex pair.original.text], ?_, fun id => ?_⟩
    · rw [run_append_calls, ← hindex]
      rfl
    · rw [corpus_append_calls, List.foldl_cons, List.foldl_nil, applyCorpus, FiniteMap.lookup_insert,
        hcorpus, h.consistent.lookup_lineInfos_addPair]
      split_ifs <;> rfl
  numbered id := by
    rw [h.consistent.lookup_lineInfos_addPair]
    apply (SimilarityIndex.lookup_lineNumber_upsert _ _ _ _ _ _).trans
    split_ifs
    · rfl
    · exact h.numbered id

lemma foldl_addPair (h : Sound b) {f base : Bytes} (hf : f ∈ b.indexedFilePaths)
    (pairs : List ParsedPair) : Sound (pairs.foldl (BuildState.addPair f base) b) := by
  induction pairs generalizing b with
  | nil => exact h
  | cons pair pairs ih => exact ih (h.addPair hf pair) hf

lemma addPairs (h : Sound b) (f base : Bytes) (pairs : List ParsedPair) :
    Sound (b.addPairs f base pairs) :=
  (h.congr (h.consistent.withIndexed f) rfl rfl).foldl_addPair (Finset.mem_insert_self _ _) pairs

lemma replaceDocument (h : Sound b) (f base : Bytes) (pairs : List ParsedPair) :
    Sound (b.replaceDocument f base pairs) :=
  (h.eraseFile f).addPairs f base pairs

end Sound

lemma Sound.ingests {b c : BuildState} {parser : TextParser} (h : Sound b) (hingests : Ingests parser b c) :
    Sound c := by
  have hconsistent := h.consistent.ingests hingests
  rcases hingests with rfl | ⟨f, base, content, pairs, versions, timestamps, -, rfl⟩
  · exact h
  · exact (h.addPairs f base pairs).congr hconsistent rfl rfl

lemma Sound.ingestDocument {b : BuildState} (h : Sound b) (parser : TextParser)
    (document : TextDocument) (isOpenDocument : Bool) (timestamp : Option ℤ) :
    Sound (b.ingestDocument parser document isOpenDocument timestamp) :=
  h.ingests (ingests_ingestDocument b parser document isOpenDocument timestamp)

end BuildState

structure Ingested where
  document : TextDocument
  isOpenDocument : Bool
  timestamp : Option ℤ

def Ingested.path (d : Ingested) : Bytes := d.document.filePath.genericString

inductive ServiceCall
  | replaceDocument (filePath fileBaseName : Bytes) (pairs : List ParsedPair)
  | eraseFile (filePath : Bytes)
  | reset
  | applyRebuild (roots : List FsPath) (rules : List WorkspaceGitIgnoreRules) (parser : TextParser)
    (documents : List Ingested)

abbrev Files := FiniteMap Bytes (List ParsedPair)

namespace ServiceCall

def ingestAll (parser : TextParser) (state : BuildState) (documents : List Ingested) : BuildState :=
  documents.foldl (fun state d =>
    state.ingestDocument parser d.document d.isOpenDocument d.timestamp) state

def apply (s : CrossrefService) : ServiceCall → CrossrefService
  | .replaceDocument filePath fileBaseName pairs => s.replaceDocumentUnlocked filePath fileBaseName pairs
  | .eraseFile filePath => s.eraseFileUnlocked filePath
  | .reset => s.resetUnlocked
  | .applyRebuild roots rules parser documents => s.applyRebuildUnlocked
      (ingestAll parser { workspaceRootPaths := roots, workspaceGitignoreRules := rules } documents)

def run (calls : List ServiceCall) : CrossrefService := calls.foldl apply {}

def Valid : ServiceCall → Prop
  | .applyRebuild _ _ parser documents => (documents.map Ingested.path).Nodup ∧
    ∀ d ∈ documents, ∃ pairs, parser d.document.getContent = some pairs
  | _ => True

def ingestFiles (parser : TextParser) (files : Files) (documents : List Ingested) : Files :=
  documents.foldl (fun files d =>
    files.insert d.path ((parser d.document.getContent).getD [])) files

def applyFiles (files : Files) : ServiceCall → Files
  | .replaceDocument filePath _ pairs => files.insert filePath pairs
  | .eraseFile filePath => files.erase filePath
  | .reset => ∅
  | .applyRebuild _ _ parser documents => ingestFiles parser ∅ documents

def files (calls : List ServiceCall) : Files := calls.foldl applyFiles ∅

end ServiceCall

structure Refines (s : CrossrefService) (files : Files) : Prop where
  ids_index : ∀ id, id ∈ s.index.lines ↔ id ∈ s.lineInfos
  ids_files : ∀ id, id ∈ s.lineInfos ↔ ∃ f ids, s.fileLineIds.lookup f = some ids ∧ id ∈ ids
  nonempty : ∀ f ids, s.fileLineIds.lookup f = some ids → ids ≠ []
  nodup : ∀ f ids, s.fileLineIds.lookup f = some ids → ids.Nodup
  disjoint : ∀ f g ids jds, f ≠ g → s.fileLineIds.lookup f = some ids →
    s.fileLineIds.lookup g = some jds → ids.Disjoint jds
  below : ∀ id, id ∈ s.lineInfos → id < s.nextLineId
  named : ∀ f ids, s.fileLineIds.lookup f = some ids → ∀ id ∈ ids, ∃ info line,
    s.lineInfos.lookup id = some info ∧ info.fileName = f ∧
      s.index.lines.lookup id = some line ∧ line.lineNumber = info.lineNumber
  indexed : ∀ f, f ∈ s.fileLineIds → f ∈ s.indexedFilePaths
  stored : ∀ f, (s.stored f).map LineInfo.content = ((files.lookup f).getD []).map pairContent

def EntriesFaithful (s : CrossrefService) : Prop :=
  ∀ id info line, s.lineInfos.lookup id = some info → s.index.lines.lookup id = some line →
    s.index.files.valuesById[line.fileId]? = some info.fileName ∧
      ∀ t n, (t, n) ∈ line.termFrequency ↔ ∃ g ∈ grams info.jpLine,
        s.index.terms.valuesById[t]? = some g ∧ s.index.terms.idsByValue.lookup g = some t ∧
          n = toUInt32 ((grams info.jpLine).count g)

namespace ServiceCall

open BuildState SimilarityIndex

def Holds (b : BuildState) (files : Files) : Prop :=
  ∀ f, (b.stored f).map LineInfo.content = ((files.lookup f).getD []).map pairContent

lemma content_lineOf (f base : Bytes) (pairs : List ParsedPair) :
    (pairs.map (lineOf f base)).map LineInfo.content = pairs.map pairContent := by
  rw [List.map_map]
  rfl

lemma holds_replaceDocument {b : BuildState} {files : Files} (h : Consistent b) (hholds : Holds b files)
    (f base : Bytes) (pairs : List ParsedPair) :
    Holds (b.replaceDocument f base pairs) (files.insert f pairs) := by
  intro g
  rw [h.stored_replaceDocument, FiniteMap.lookup_insert]
  split_ifs
  · exact content_lineOf f base pairs
  · exact hholds g

lemma holds_eraseFile {b : BuildState} {files : Files} (h : Consistent b) (hholds : Holds b files)
    (f : Bytes) : Holds (b.eraseFile f) (files.erase f) := by
  intro g
  rw [h.stored_eraseFile, FiniteMap.lookup_erase]
  split_ifs
  · rfl
  · exact hholds g

lemma stored_ingestDocument {b : BuildState} (h : Consistent b) {parser : TextParser}
    {document : TextDocument} {pairs : List ParsedPair}
    (hpairs : parser document.getContent = some pairs) (isOpenDocument : Bool)
    (timestamp : Option ℤ) (g : Bytes) :
    (b.ingestDocument parser document isOpenDocument timestamp).stored g =
      if g = document.filePath.genericString then
        b.stored g ++ pairs.map (lineOf g document.filePath.filename)
      else b.stored g := by
  obtain ⟨versions, timestamps, heq⟩ := ingestDocument_eq hpairs b isOpenDocument timestamp
  rw [heq]
  apply (h.stored_addPairs _ document.filePath.filename pairs g).trans
  split_ifs with hg
  · rw [hg]
  · rfl

lemma holds_ingestAll {parser : TextParser} {documents : List Ingested} {b : BuildState}
    {files : Files} (h : Sound b) (hholds : Holds b files)
    (hnodup : (documents.map Ingested.path).Nodup)
    (hfresh : ∀ d ∈ documents, b.stored d.path = [])
    (hparses : ∀ d ∈ documents, ∃ pairs, parser d.document.getContent = some pairs) :
    Sound (ingestAll parser b documents) ∧
      Holds (ingestAll parser b documents) (ingestFiles parser files documents) := by
  induction documents generalizing b files with
  | nil => exact ⟨h, hholds⟩
  | cons d documents ih =>
    obtain ⟨pairs, hpairs⟩ := hparses d List.mem_cons_self
    rw [List.map_cons, List.nodup_cons] at hnodup
    refine ih (h.ingestDocument parser d.document d.isOpenDocument d.timestamp) ?_ hnodup.2 ?_ ?_
    · intro f
      rw [stored_ingestDocument h.consistent hpairs, FiniteMap.lookup_insert, hpairs]
      split_ifs with hf hne hne
      · rw [hf, show b.stored d.document.filePath.genericString = [] from hfresh d List.mem_cons_self,
          List.nil_append]
        exact content_lineOf _ _ pairs
      · exact absurd hf hne
      · exact absurd hne hf
      · exact hholds f
    · intro e he
      rw [stored_ingestDocument h.consistent hpairs, if_neg, hfresh e (List.mem_cons_of_mem d he)]
      intro heq
      exact hnodup.1 (List.mem_map.mpr ⟨e, he, heq⟩)
    · exact fun e he => hparses e (List.mem_cons_of_mem d he)

lemma apply_sound {s : CrossrefService} {files : Files} (h : Sound s.toBuildState)
    (hholds : Holds s.toBuildState files) {call : ServiceCall} (hvalid : call.Valid) :
    Sound (apply s call).toBuildState ∧ Holds (apply s call).toBuildState (applyFiles files call) := by
  cases call with
  | replaceDocument f base pairs =>
    exact ⟨h.replaceDocument f base pairs, holds_replaceDocument h.consistent hholds f base pairs⟩
  | eraseFile f => exact ⟨h.eraseFile f, holds_eraseFile h.consistent hholds f⟩
  | reset => exact ⟨Sound.empty [] [], fun _ => rfl⟩
  | applyRebuild roots rules parser documents =>
    exact holds_ingestAll (Sound.empty roots rules) (fun _ => rfl) hvalid.1 (fun _ _ => rfl) hvalid.2

lemma run_append (calls more : List ServiceCall) : run (calls ++ more) = more.foldl apply (run calls) :=
  List.foldl_append

lemma run_sound {calls : List ServiceCall} (hvalid : ∀ call ∈ calls, call.Valid) :
    Sound (run calls).toBuildState ∧ Holds (run calls).toBuildState (files calls) := by
  induction calls using List.reverseRecOn with
  | nil => exact ⟨Sound.empty [] [], fun _ => rfl⟩
  | append_singleton calls call ih =>
    obtain ⟨hsound, hholds⟩ := ih fun c hc => hvalid c (List.mem_append_left _ hc)
    have hfiles : files (calls ++ [call]) = applyFiles (files calls) call := List.foldl_append
    rw [run_append, hfiles]
    exact apply_sound hsound hholds (hvalid call (List.mem_append_right _ (List.mem_singleton_self _)))

lemma refines_of_sound {s : CrossrefService} {files : Files} (h : Sound s.toBuildState)
    (hholds : Holds s.toBuildState files) : Refines s files where
  ids_index := h.consistent.live
  ids_files := h.consistent.listed
  nonempty := h.consistent.nonempty
  nodup := h.consistent.nodup
  disjoint f g ids jds hne hids hjds := h.consistent.disjoint hne hids hjds
  below := h.consistent.below
  named f ids hids id hid := by
    obtain ⟨info, hinfo, hname⟩ := h.consistent.exists_info hids hid
    have hnumber := h.numbered id
    rw [hinfo, Option.map_some, Option.map_eq_some_iff] at hnumber
    obtain ⟨line, hline, hnumber⟩ := hnumber
    exact ⟨info, line, hinfo, hname, hline, hnumber⟩
  indexed f hf := by
    obtain ⟨ids, hids⟩ := Finmap.mem_iff.mp hf
    exact h.consistent.indexed f ids hids
  stored := hholds

lemma entriesFaithful_of_sound {s : CrossrefService} (h : Sound s.toBuildState)
    (hids : WithinIds s.index) : EntriesFaithful s := by
  obtain ⟨calls, hindex, hcorpus⟩ := h.indexed
  rw [hindex] at hids
  have hexact := (represents_run calls hids).exactFor
  rw [← hindex] at hexact
  intro id info line hinfo hline
  have hc : (corpus calls).lookup id = some (corpusLine info) := by
    rw [hcorpus, hinfo]
    rfl
  exact ⟨(hexact.stored id line _ hline hc).2.1, (hexact.frequencies id line _ hline hc).2⟩

theorem run_refines (calls : List ServiceCall) (hvalid : ∀ call ∈ calls, call.Valid) :
    Refines (run calls) (files calls) ∧
      (WithinIds (run calls).index → EntriesFaithful (run calls)) := by
  obtain ⟨hsound, hholds⟩ := run_sound hvalid
  exact ⟨refines_of_sound hsound hholds, entriesFaithful_of_sound hsound⟩

def rebuiltThenEdited : List ServiceCall :=
  [.replaceDocument (ascii "/w/a.txt") (ascii "a.txt") [linePair [97, 98], linePair [98, 99]],
    .applyRebuild [] [] wholeText
      [⟨TextDocument.create [] [] (FsPath.ofBytes (ascii "/w/a.txt")) 1 [97, 97], true, none⟩,
        ⟨TextDocument.create [] [] (FsPath.ofBytes (ascii "/w/b.txt")) 0 [99, 99], false, some 5⟩],
    .replaceDocument (ascii "/w/b.txt") (ascii "b.txt") [linePair [97, 98]],
    .eraseFile (ascii "/w/a.txt")]

theorem run_refines_rebuiltThenEdited :
    Refines (run rebuiltThenEdited) (files rebuiltThenEdited) ∧
      (WithinIds (run rebuiltThenEdited).index → EntriesFaithful (run rebuiltThenEdited)) := by
  apply run_refines rebuiltThenEdited
  simp only [rebuiltThenEdited, List.forall_mem_cons, List.not_mem_nil, IsEmpty.forall_iff,
    implies_true, and_true, Valid, true_and]
  exact ⟨by decide, ⟨_, rfl⟩, ⟨_, rfl⟩⟩

section Overflow

variable {b base : BuildState} {q : Bytes}

structure Churned (base : BuildState) (q : Bytes) (n : ℕ) (b : BuildState) : Prop where
  sound : Sound b
  index : b.index = base.index.wear n
  nextLineId : b.nextLineId = base.nextLineId + n
  absent : b.fileLineIds.lookup q = none

lemma replaceDocument_single (habsent : b.fileLineIds.lookup q = none) (pair : ParsedPair) :
    (b.replaceDocument q q [pair]).index =
        b.index.upsert b.nextLineId q pair.originalLineIndex pair.original.text ∧
      (b.replaceDocument q q [pair]).nextLineId = b.nextLineId + 1 ∧
      (b.replaceDocument q q [pair]).fileLineIds.lookup q = some [b.nextLineId] := by
  rw [BuildState.replaceDocument, BuildState.eraseFile, eraseLines_of_none habsent]
  refine ⟨rfl, rfl, ?_⟩
  apply (lookup_fileLineIds_addPair _ _).trans
  rw [if_pos rfl, habsent]
  rfl

lemma lookup_replaceDocument_single (h : Consistent b) (habsent : b.fileLineIds.lookup q = none)
    (pair : ParsedPair) : (b.replaceDocument q q [pair]).lineInfos.lookup b.nextLineId =
      some (lineOf q q pair) := by
  rw [BuildState.replaceDocument, BuildState.eraseFile, eraseLines_of_none habsent]
  exact (FiniteMap.lookup_emplace _ _ _ _ h.lookup_nextLineId).trans (if_pos rfl)

lemma Churned.round {n : ℕ} {a c : UInt16} (h : Churned base q n b)
    (hunused : ∀ id, base.nextLineId ≤ id → Unused base.index id q [a, c])
    (hslots : base.index.terms.slots + n < 2 ^ 32) :
    Churned base q (n + 1) ((b.replaceDocument q q [linePair [a, c]]).eraseFile q) := by
  obtain ⟨hindex, hnext, hids⟩ := replaceDocument_single h.absent (linePair [a, c])
  have hfree := (hunused (base.nextLineId + n) (Nat.le_add_right _ _)).wear n
  have hround := hfree.erase_upsert (by rw [slots_wear]; exact hslots) 0
  constructor
  · exact (h.sound.replaceDocument q q _).eraseFile q
  · rw [BuildState.eraseFile, eraseLines_of_some hids, ← wear_wear, ← hround, hindex, h.index, h.nextLineId]
    rfl
  · rw [BuildState.eraseFile, eraseLines_of_some hids]
    change (b.replaceDocument q q _).nextLineId = _
    rw [hnext, h.nextLineId, Nat.add_assoc]
  · exact (lookup_fileLineIds_eraseLines _ q q).trans (if_pos rfl)

def churnCalls (q : Bytes) (a c : UInt16) : ℕ → List ServiceCall
  | 0 => []
  | n + 1 => churnCalls q a c n ++ [.replaceDocument q q [linePair [a, c]], .eraseFile q]

lemma churned_foldl {s : CrossrefService} {a c : UInt16} (hsound : Sound s.toBuildState)
    (habsent : s.fileLineIds.lookup q = none)
    (hunused : ∀ id, s.nextLineId ≤ id → Unused s.index id q [a, c]) (n : ℕ)
    (hslots : s.index.terms.slots + n ≤ 2 ^ 32) :
    Churned s.toBuildState q n ((churnCalls q a c n).foldl apply s).toBuildState := by
  induction n with
  | zero => exact ⟨hsound, by simp [churnCalls, wear], rfl, habsent⟩
  | succ n ih =>
    rw [churnCalls, List.foldl_append]
    exact (ih (by omega)).round hunused (by omega)

/-- One line "xy" stays; lines of another file use up the term ids; the next bigram of
that file gets the id of "xy". -/
def aliasingCalls : List ServiceCall :=
  [.replaceDocument (ascii "p") (ascii "p") [linePair [120, 121]],
    .replaceDocument (ascii "q") (ascii "q") [linePair [97, 98]], .eraseFile (ascii "q")] ++
  churnCalls (ascii "q") 97 98 (2 ^ 32 - 2) ++
  [.replaceDocument (ascii "q") (ascii "q") [linePair [99, 100]]]

lemma valid_aliasingCalls : ∀ call ∈ aliasingCalls, call.Valid := by
  have hchurn : ∀ n, ∀ call ∈ churnCalls (ascii "q") 97 98 n, call.Valid := by
    intro n
    induction n with
    | zero => exact fun call hc => by cases hc
    | succ n ih =>
      intro call hc
      rw [churnCalls, List.mem_append] at hc
      rcases hc with hc | hc
      · exact ih call hc
      · fin_cases hc <;> trivial
  intro call hc
  rw [aliasingCalls, List.mem_append, List.mem_append] at hc
  rcases hc with (hc | hc) | hc
  · fin_cases hc <;> trivial
  · exact hchurn _ call hc
  · fin_cases hc
    trivial

lemma not_faithful_of_wrapped {s : CrossrefService} {q : Bytes} {c d : UInt16} {g : Term}
    (hsound : Sound s.toBuildState) (habsent : s.fileLineIds.lookup q = none)
    (hterm : s.index.terms.idsByValue.lookup [c, d] = none)
    (hslots : toUInt32 s.index.terms.slots = 0) (hkept : s.index.terms.valuesById[0]? = some g)
    (hne : g ≠ [c, d]) : ¬ EntriesFaithful (s.replaceDocumentUnlocked q q [linePair [c, d]]) := by
  intro h
  obtain ⟨hindex, -, -⟩ := replaceDocument_single habsent (linePair [c, d])
  have hline : s.index.lines.lookup s.nextLineId = none := by
    rw [Finmap.lookup_eq_none, hsound.consistent.live, ← Finmap.lookup_eq_none]
    exact hsound.consistent.lookup_nextLineId
  have hinfo := lookup_replaceDocument_single hsound.consistent habsent (linePair [c, d])
  have hupsert : (s.replaceDocumentUnlocked q q [linePair [c, d]]).index =
      s.index.addLine s.nextLineId q 0 [c, d] := by
    apply hindex.trans
    rw [SimilarityIndex.upsert, erase_of_none hline]
    rfl
  have hentry : (s.replaceDocumentUnlocked q q [linePair [c, d]]).index.lines.lookup s.nextLineId =
      some ⟨s.nextLineId, (s.index.files.retain toUInt32 q).1, 0, [(0, 1)]⟩ := by
    rw [hupsert, addLine_bigram, FiniteMap.lookup_emplace _ _ _ _ hline, if_pos rfl]
    simp only [InternTable.retain, hterm, hslots]
  have hvalues : (s.replaceDocumentUnlocked q q [linePair [c, d]]).index.terms.valuesById[0]? = some g := by
    rw [hupsert, addLine_bigram]
    simp only [InternTable.retain, hterm]
    exact (List.getElem?_append_left (List.getElem?_eq_some_iff.mp hkept).1).trans hkept
  obtain ⟨-, hterms⟩ := h s.nextLineId _ _ hinfo hentry
  obtain ⟨g', hg', hvalue, -⟩ := (hterms 0 1).mp (List.mem_singleton_self _)
  rw [hvalues, Option.some.injEq] at hvalue
  exact hne (hvalue.trans (List.mem_singleton.mp hg'))

theorem run_not_faithful :
    ¬ ∀ calls : List ServiceCall, (∀ call ∈ calls, call.Valid) →
      Refines (run calls) (files calls) ∧ EntriesFaithful (run calls) := by
  intro hall
  obtain ⟨-, hfaithful⟩ := hall aliasingCalls valid_aliasingCalls
  generalize hbase : run [.replaceDocument (ascii "p") (ascii "p") [linePair [120, 121]],
    .replaceDocument (ascii "q") (ascii "q") [linePair [97, 98]], .eraseFile (ascii "q")] = base
  have hsound : Sound base.toBuildState := by
    rw [← hbase]
    exact (run_sound fun call hc => by fin_cases hc <;> trivial).1
  have habsent : base.fileLineIds.lookup (ascii "q") = none := by rw [← hbase]; decide
  have hslots : base.index.terms.slots = 2 := by rw [← hbase]; decide
  have hunused : ∀ id, base.nextLineId ≤ id → Unused base.index id (ascii "q") [97, 98] := by
    intro id hid
    obtain ⟨calls, hindex, hcorpus⟩ := hsound.indexed
    have hids : WithinIds base.index := by rw [← hbase]; decide
    rw [hindex] at hids
    have hline : (corpus calls).lookup id = none := by
      rw [hcorpus, Option.map_eq_none_iff, Finmap.lookup_eq_none]
      intro hmem
      exact absurd (hsound.consistent.below id hmem) (not_lt.mpr hid)
    have hfile : base.index.files.idsByValue.lookup (ascii "q") = some 1 := by rw [← hbase]; decide
    have hterm : base.index.terms.idsByValue.lookup [97, 98] = none := by rw [← hbase]; decide
    exact (hindex ▸ represents_run calls hids : Represents base.index (corpus calls)).unused hline hterm hfile
  have hchurned := churned_foldl hsound habsent hunused (2 ^ 32 - 2) (by rw [hslots]; omega)
  generalize hworn : (churnCalls (ascii "q") 97 98 (2 ^ 32 - 2)).foldl apply base = worn at hchurned
  have hrun : run aliasingCalls =
      worn.replaceDocumentUnlocked (ascii "q") (ascii "q") [linePair [99, 100]] := by
    rw [aliasingCalls, run_append, run_append, hbase, hworn]
    rfl
  have hwornSlots : toUInt32 worn.index.terms.slots = 0 := by
    rw [hchurned.index, slots_wear, hslots]
    rfl
  have hwornTerm : worn.index.terms.idsByValue.lookup [99, 100] = none := by
    rw [hchurned.index]
    change base.index.terms.idsByValue.lookup _ = none
    rw [← hbase]
    decide
  have hwornKept : worn.index.terms.valuesById[0]? = some [120, 121] := by
    have hkept : base.index.terms.valuesById[0]? = some [120, 121] := by rw [← hbase]; decide
    rw [hchurned.index]
    exact (List.getElem?_append_left (List.getElem?_eq_some_iff.mp hkept).1).trans hkept
  rw [hrun] at hfaithful
  exact not_faithful_of_wrapped hchurned.sound hchurned.absent hwornTerm hwornSlots hwornKept
    (by decide) hfaithful

end Overflow

end ServiceCall

end Crossref

end DltxtBridge
