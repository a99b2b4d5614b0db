import DltxtBridge.Crossref.Service
import DltxtBridge.SimilarityIndex.Representation

namespace DltxtBridge

namespace SimilarityIndex

lemma lines_foldl_erase (ids : List LineId) (s : SimilarityIndex) :
    (ids.foldl (fun index id => (index.erase id).2) s).lines =
      ids.foldl (fun lines id => lines.erase id) s.lines := by
  induction ids generalizing s with
  | nil => rfl
  | cons id ids ih => rw [List.foldl_cons, ih, lines_erase, List.foldl_cons]

lemma mem_lines_upsert (s : SimilarityIndex) (id j : LineId) (path : Bytes) (number : ℕ)
    (text : Text) : j ∈ (s.upsert id path number text).lines ↔ j = id ∨ j ∈ s.lines := by
  have habsent : (s.erase id).2.lines.lookup id = none := by
    rw [lines_erase, FiniteMap.lookup_erase, if_pos rfl]
  rw [FiniteMap.mem_iff_lookup, FiniteMap.mem_iff_lookup, upsert, addLine,
    FiniteMap.lookup_emplace _ _ _ _ habsent, lines_erase, FiniteMap.lookup_erase]
  by_cases hj : j = id <;> simp [hj]

end SimilarityIndex

namespace Crossref

open Documents

def LineInfo.content (info : LineInfo) : ℕ × Text × Text := (info.lineNumber, info.jpLine, info.trLine)

def pairContent (pair : ParsedPair) : ℕ × Text × Text :=
  (pair.originalLineIndex, pair.original.text, pair.translated.text)

namespace BuildState

def stored (b : BuildState) (filePath : Bytes) : List LineInfo :=
  ((b.fileLineIds.lookup filePath).getD []).filterMap fun id => b.lineInfos.lookup id

def lineOf (filePath fileBaseName : Bytes) (pair : ParsedPair) : LineInfo :=
  ⟨filePath, fileBaseName, pair.originalLineIndex, pair.original.text, pair.translated.text⟩

structure Consistent (b : BuildState) : Prop where
  listed : ∀ id, id ∈ b.lineInfos ↔ ∃ f ids, b.fileLineIds.lookup f = some ids ∧ id ∈ ids
  live : ∀ id, id ∈ b.index.lines ↔ id ∈ b.lineInfos
  nonempty : ∀ f ids, b.fileLineIds.lookup f = some ids → ids ≠ []
  nodup : ∀ f ids, b.fileLineIds.lookup f = some ids → ids.Nodup
  named : ∀ f ids id info, b.fileLineIds.lookup f = some ids → id ∈ ids →
    b.lineInfos.lookup id = some info → info.fileName = f
  below : ∀ id, id ∈ b.lineInfos → id < b.nextLineId
  indexed : ∀ f ids, b.fileLineIds.lookup f = some ids → f ∈ b.indexedFilePaths

lemma consistent_empty (roots : List FsPath) (rules : List WorkspaceGitIgnoreRules) :
    Consistent { workspaceRootPaths := roots, workspaceGitignoreRules := rules } where
  listed id := by simp [Finmap.lookup_empty, FiniteMap.mem_iff_lookup]
  live id := Iff.rfl
  nonempty f ids h := by simp [Finmap.lookup_empty] at h
  nodup f ids h := by simp [Finmap.lookup_empty] at h
  named f ids id info h := by simp [Finmap.lookup_empty] at h
  below id h := by simp [Finmap.lookup_empty, FiniteMap.mem_iff_lookup] at h
  indexed f ids h := by simp [Finmap.lookup_empty] at h

namespace Consistent

variable {b : BuildState}

lemma mem_lineInfos (h : Consistent b) {f : Bytes} {ids : List LineId} {id : LineId}
    (hids : b.fileLineIds.lookup f = some ids) (hid : id ∈ ids) : id ∈ b.lineInfos :=
  (h.listed id).mpr ⟨f, ids, hids, hid⟩

lemma exists_info (h : Consistent b) {f : Bytes} {ids : List LineId} {id : LineId}
    (hids : b.fileLineIds.lookup f = some ids) (hid : id ∈ ids) :
    ∃ info, b.lineInfos.lookup id = some info ∧ info.fileName = f := by
  obtain ⟨info, hinfo⟩ := Finmap.mem_iff.mp (h.mem_lineInfos hids hid)
  exact ⟨info, hinfo, h.named f ids id info hids hid hinfo⟩

lemma mem_stored (h : Consistent b) {id : LineId} {info : LineInfo} (hinfo : b.lineInfos.lookup id = some info) :
    info ∈ b.stored info.fileName := by
  obtain ⟨f, ids, hids, hid⟩ := (h.listed id).mp (Finmap.mem_iff.mpr ⟨info, hinfo⟩)
  obtain rfl : info.fileName = f := h.named f ids id info hids hid hinfo
  rw [stored, hids, Option.getD_some]
  exact List.mem_filterMap.mpr ⟨id, hid, hinfo⟩

lemma disjoint (h : Consistent b) {f g : Bytes} {ids jds : List LineId} (hne : f ≠ g)
    (hids : b.fileLineIds.lookup f = some ids) (hjds : b.fileLineIds.lookup g = some jds) :
    ids.Disjoint jds := by
  intro id hid hjd
  obtain ⟨info, hinfo, hf⟩ := h.exists_info hids hid
  exact hne (hf.symm.trans (h.named g jds id info hjds hjd hinfo))

lemma nextLineId_notMem (h : Consistent b) {f : Bytes} {ids : List LineId}
    (hids : b.fileLineIds.lookup f = some ids) : b.nextLineId ∉ ids := fun hid =>
  lt_irrefl _ (h.below _ (h.mem_lineInfos hids hid))

lemma lookup_nextLineId (h : Consistent b) : b.lineInfos.lookup b.nextLineId = none := by
  rw [Finmap.lookup_eq_none]
  intro hmem
  exact lt_irrefl _ (h.below _ hmem)

end Consistent

section Erase

variable {b : BuildState}

lemma eraseLines_of_none {f : Bytes} (h : b.fileLineIds.lookup f = none) : b.eraseLines f = b := by
  simp only [eraseLines, h]

lemma eraseLines_of_some {f : Bytes} {ids : List LineId} (h : b.fileLineIds.lookup f = some ids) :
    b.eraseLines f =
      { b with
        index := ids.foldl (fun index id => (index.erase id).2) b.index
        lineInfos := ids.foldl (fun infos id => infos.erase id) b.lineInfos
        fileLineIds := b.fileLineIds.erase f } := by
  simp only [eraseLines, h]

lemma nextLineId_eraseLines (b : BuildState) (f : Bytes) : (b.eraseLines f).nextLineId = b.nextLineId := by
  cases h : b.fileLineIds.lookup f with
  | none => rw [eraseLines_of_none h]
  | some ids => rw [eraseLines_of_some h]

lemma indexedFilePaths_eraseLines (b : BuildState) (f : Bytes) :
    (b.eraseLines f).indexedFilePaths = b.indexedFilePaths := by
  cases h : b.fileLineIds.lookup f with
  | none => rw [eraseLines_of_none h]
  | some ids => rw [eraseLines_of_some h]

lemma lookup_fileLineIds_eraseLines (b : BuildState) (f g : Bytes) :
    (b.eraseLines f).fileLineIds.lookup g = if g = f then none else b.fileLineIds.lookup g := by
  cases h : b.fileLineIds.lookup f with
  | none =>
    rw [eraseLines_of_none h]
    split_ifs with hg
    · rw [hg, h]
    · rfl
  | some ids => rw [eraseLines_of_some h, FiniteMap.lookup_erase]

lemma lookup_lineInfos_eraseLines (b : BuildState) (f : Bytes) (id : LineId) :
    (b.eraseLines f).lineInfos.lookup id =
      if id ∈ (b.fileLineIds.lookup f).getD [] then none else b.lineInfos.lookup id := by
  cases h : b.fileLineIds.lookup f with
  | none => rw [eraseLines_of_none h, Option.getD_none, if_neg List.not_mem_nil]
  | some ids => rw [eraseLines_of_some h, FiniteMap.lookup_foldl_erase, Option.getD_some]

lemma mem_index_eraseLines (b : BuildState) (f : Bytes) (id : LineId) :
    id ∈ (b.eraseLines f).index.lines ↔
      id ∉ (b.fileLineIds.lookup f).getD [] ∧ id ∈ b.index.lines := by
  cases h : b.fileLineIds.lookup f with
  | none => rw [eraseLines_of_none h, Option.getD_none, and_iff_right List.not_mem_nil]
  | some ids =>
    rw [eraseLines_of_some h, FiniteMap.mem_iff_lookup, SimilarityIndex.lines_foldl_erase,
      FiniteMap.lookup_foldl_erase, Option.getD_some, FiniteMap.mem_iff_lookup]
    split_ifs with hid <;> simp [hid]

namespace Consistent

lemma notMem_of_ne (h : Consistent b) {f g : Bytes} (hne : g ≠ f) {jds : List LineId} {id : LineId}
    (hjds : b.fileLineIds.lookup g = some jds) (hid : id ∈ jds) :
    id ∉ (b.fileLineIds.lookup f).getD [] := by
  cases hids : b.fileLineIds.lookup f with
  | none => exact List.not_mem_nil
  | some ids => exact fun hmem => h.disjoint hne hjds hids hid hmem

lemma eraseLines (h : Consistent b) (f : Bytes) : Consistent (b.eraseLines f) where
  listed id := by
    rw [FiniteMap.mem_iff_lookup, lookup_lineInfos_eraseLines]
    constructor
    · intro hne
      split_ifs at hne with hid
      · exact absurd rfl hne
      obtain ⟨g, jds, hjds, hmem⟩ := (h.listed id).mp ((FiniteMap.mem_iff_lookup _ _).mpr hne)
      have hg : g ≠ f := by
        rintro rfl
        exact hid (by rw [hjds]; exact hmem)
      exact ⟨g, jds, by rw [lookup_fileLineIds_eraseLines, if_neg hg, hjds], hmem⟩
    · rintro ⟨g, jds, hjds, hmem⟩
      rw [lookup_fileLineIds_eraseLines] at hjds
      split_ifs at hjds with hg
      rw [if_neg (h.notMem_of_ne hg hjds hmem)]
      exact (FiniteMap.mem_iff_lookup _ _).mp (h.mem_lineInfos hjds hmem)
  live id := by
    rw [mem_index_eraseLines, h.live, FiniteMap.mem_iff_lookup, FiniteMap.mem_iff_lookup,
      lookup_lineInfos_eraseLines]
    split_ifs with hid <;> simp [hid]
  nonempty g ids hids := by
    rw [lookup_fileLineIds_eraseLines] at hids
    split_ifs at hids
    exact h.nonempty g ids hids
  nodup g ids hids := by
    rw [lookup_fileLineIds_eraseLines] at hids
    split_ifs at hids
    exact h.nodup g ids hids
  named g ids id info hids hid hinfo := by
    rw [lookup_fileLineIds_eraseLines] at hids
    rw [lookup_lineInfos_eraseLines] at hinfo
    split_ifs at hids hinfo
    exact h.named g ids id info hids hid hinfo
  below id hid := by
    rw [FiniteMap.mem_iff_lookup, lookup_lineInfos_eraseLines] at hid
    split_ifs at hid with hmem
    · exact absurd rfl hid
    rw [nextLineId_eraseLines]
    exact h.below id ((FiniteMap.mem_iff_lookup _ _).mpr hid)
  indexed g ids hids := by
    rw [lookup_fileLineIds_eraseLines] at hids
    split_ifs at hids
    rw [indexedFilePaths_eraseLines]
    exact h.indexed g ids hids

lemma stored_eraseLines (h : Consistent b) (f g : Bytes) :
    (b.eraseLines f).stored g = if g = f then [] else b.stored g := by
  rw [stored, lookup_fileLineIds_eraseLines]
  split_ifs with hg
  · rfl
  rw [stored]
  cases hjds : b.fileLineIds.lookup g with
  | none => rfl
  | some jds =>
    apply List.filterMap_congr
    intro id hid
    rw [lookup_lineInfos_eraseLines, if_neg (h.notMem_of_ne hg hjds hid)]

end Consistent

lemma Consistent.eraseFile (h : Consistent b) (f : Bytes) : Consistent (b.eraseFile f) where
  listed := (h.eraseLines f).listed
  live := (h.eraseLines f).live
  nonempty := (h.eraseLines f).nonempty
  nodup := (h.eraseLines f).nodup
  named := (h.eraseLines f).named
  below := (h.eraseLines f).below
  indexed g ids hids := by
    refine Finset.mem_erase.mpr ⟨?_, (h.eraseLines f).indexed g ids hids⟩
    rintro rfl
    change (b.eraseLines g).fileLineIds.lookup g = some ids at hids
    rw [lookup_fileLineIds_eraseLines, if_pos rfl] at hids
    cases hids

lemma Consistent.stored_eraseFile (h : Consistent b) (f g : Bytes) :
    (b.eraseFile f).stored g = if g = f then [] else b.stored g :=
  h.stored_eraseLines f g

end Erase

section Add

variable {b : BuildState} {f base : Bytes}

lemma lookup_fileLineIds_addPair (pair : ParsedPair) (g : Bytes) :
    (b.addPair f base pair).fileLineIds.lookup g =
      if g = f then some ((b.fileLineIds.lookup f).getD [] ++ [b.nextLineId])
      else b.fileLineIds.lookup g :=
  FiniteMap.lookup_insert _ _ _ _

lemma listed_addPair (pair : ParsedPair) (g : Bytes) (id : LineId) :
    (∃ ids, (b.addPair f base pair).fileLineIds.lookup g = some ids ∧ id ∈ ids) ↔
      g = f ∧ id = b.nextLineId ∨ ∃ ids, b.fileLineIds.lookup g = some ids ∧ id ∈ ids := by
  rw [lookup_fileLineIds_addPair]
  by_cases hg : g = f
  · subst hg
    cases hids : b.fileLineIds.lookup g with
    | none => simp
    | some ids => simp [or_comm]
  · simp [hg]

namespace Consistent

lemma lookup_lineInfos_addPair (h : Consistent b) (pair : ParsedPair) (id : LineId) :
    (b.addPair f base pair).lineInfos.lookup id =
      if id = b.nextLineId then some (lineOf f base pair) else b.lineInfos.lookup id :=
  FiniteMap.lookup_emplace _ _ _ _ h.lookup_nextLineId

lemma mem_lineInfos_addPair (h : Consistent b) (pair : ParsedPair) (id : LineId) :
    id ∈ (b.addPair f base pair).lineInfos ↔ id = b.nextLineId ∨ id ∈ b.lineInfos := by
  rw [FiniteMap.mem_iff_lookup, FiniteMap.mem_iff_lookup, h.lookup_lineInfos_addPair]
  split_ifs with hid <;> simp [hid]

lemma mem_getD (h : Consistent b) {id : LineId} (hid : id ∈ (b.fileLineIds.lookup f).getD []) :
    id ∈ b.lineInfos := by
  cases hids : b.fileLineIds.lookup f with
  | none =>
    rw [hids, Option.getD_none] at hid
    cases hid
  | some ids =>
    rw [hids, Option.getD_some] at hid
    exact h.mem_lineInfos hids hid

lemma addPair (h : Consistent b) (hf : f ∈ b.indexedFilePaths) (pair : ParsedPair) :
    Consistent (b.addPair f base pair) where
  listed id := by
    rw [h.mem_lineInfos_addPair, h.listed]
    simp only [listed_addPair, exists_or, exists_eq_left]
  live id := by
    rw [h.mem_lineInfos_addPair, ← h.live]
    exact SimilarityIndex.mem_lines_upsert _ _ _ _ _ _
  nonempty g ids hids := by
    rw [lookup_fileLineIds_addPair] at hids
    split_ifs at hids with hg
    · cases hids
      exact List.append_ne_nil_of_right_ne_nil _ (List.cons_ne_nil _ _)
    · exact h.nonempty g ids hids
  nodup g ids hids := by
    rw [lookup_fileLineIds_addPair] at hids
    split_ifs at hids with hg
    · cases hids
      cases hold : b.fileLineIds.lookup f with
      | none => exact List.nodup_singleton _
      | some old =>
        rw [Option.getD_some]
        exact (h.nodup f old hold).append (List.nodup_singleton _)
          (List.disjoint_singleton.mpr (h.nextLineId_notMem hold))
    · exact h.nodup g ids hids
  named g ids id info hids hid hinfo := by
    rw [h.lookup_lineInfos_addPair] at hinfo
    obtain ⟨rfl, rfl⟩ | ⟨old, hold, hmem⟩ := (listed_addPair pair g id).mp ⟨ids, hids, hid⟩
    · rw [if_pos rfl] at hinfo
      cases hinfo
      rfl
    · have hne : id ≠ b.nextLineId := by
        rintro rfl
        exact h.nextLineId_notMem hold hmem
      rw [if_neg hne] at hinfo
      exact h.named g old id info hold hmem hinfo
  below id hid := by
    rw [h.mem_lineInfos_addPair] at hid
    change id < b.nextLineId + 1
    rcases hid with rfl | hid
    · exact Nat.lt_succ_self _
    · exact (h.below id hid).trans (Nat.lt_succ_self _)
  indexed g ids hids := by
    rw [lookup_fileLineIds_addPair] at hids
    split_ifs at hids with hg
    · exact hg ▸ hf
    · exact h.indexed g ids hids

lemma stored_addPair (h : Consistent b) (pair : ParsedPair) (g : Bytes) :
    (b.addPair f base pair).stored g =
      if g = f then b.stored f ++ [lineOf f base pair] else b.stored g := by
  have hold : ∀ g, ((b.fileLineIds.lookup g).getD []).filterMap
      (fun id => (b.addPair f base pair).lineInfos.lookup id) = b.stored g := by
    intro g
    apply List.filterMap_congr
    intro id hid
    have hne : id ≠ b.nextLineId := (h.below id (h.mem_getD hid)).ne
    rw [h.lookup_lineInfos_addPair, if_neg hne]
  rw [stored, lookup_fileLineIds_addPair]
  split_ifs with hg
  · rw [Option.getD_some, List.filterMap_append, hold]
    simp [h.lookup_lineInfos_addPair]
  · exact hold g

lemma foldl_addPair (h : Consistent b) (hf : f ∈ b.indexedFilePaths) (pairs : List ParsedPair) :
    Consistent (pairs.foldl (BuildState.addPair f base) b) ∧
      ∀ g, (pairs.foldl (BuildState.addPair f base) b).stored g =
        if g = f then b.stored f ++ pairs.map (lineOf f base) else b.stored g := by
  induction pairs generalizing b with
  | nil =>
    refine ⟨h, fun g => ?_⟩
    split_ifs with hg
    · rw [hg, List.map_nil, List.append_nil]
      rfl
    · rfl
  | cons pair pairs ih =>
    have hadded : Consistent (b.addPair f base pair) := h.addPair hf pair
    obtain ⟨hconsistent, hstored⟩ := ih hadded hf
    refine ⟨hconsistent, fun g => ?_⟩
    rw [List.foldl_cons, hstored, h.stored_addPair, h.stored_addPair, if_pos rfl]
    split_ifs <;> simp

lemma withIndexed (h : Consistent b) (f : Bytes) :
    Consistent { b with indexedFilePaths := insert f b.indexedFilePaths } :=
  { h with indexed := fun g ids hids => Finset.mem_insert_of_mem (h.indexed g ids hids) }

lemma addPairs (h : Consistent b) (f base : Bytes) (pairs : List ParsedPair) :
    Consistent (b.addPairs f base pairs) :=
  ((h.withIndexed f).foldl_addPair (Finset.mem_insert_self _ _) pairs).1

lemma stored_addPairs (h : Consistent b) (f base : Bytes) (pairs : List ParsedPair) (g : Bytes) :
    (b.addPairs f base pairs).stored g =
      if g = f then b.stored f ++ pairs.map (lineOf f base) else b.stored g :=
  ((h.withIndexed f).foldl_addPair (Finset.mem_insert_self _ _) pairs).2 g

lemma replaceDocument (h : Consistent b) (f base : Bytes) (pairs : List ParsedPair) :
    Consistent (b.replaceDocument f base pairs) :=
  (h.eraseFile f).addPairs f base pairs

lemma stored_replaceDocument (h : Consistent b) (f base : Bytes) (pairs : List ParsedPair)
    (g : Bytes) : (b.replaceDocument f base pairs).stored g =
      if g = f then pairs.map (lineOf f base) else b.stored g := by
  rw [BuildState.replaceDocument, (h.eraseFile f).stored_addPairs, h.stored_eraseFile,
    h.stored_eraseFile, if_pos rfl, List.nil_append]
  split_ifs <;> rfl

end Consistent

lemma ingestDocument_eq {parser : TextParser} {document : TextDocument} {pairs : List ParsedPair}
    (hpairs : parser document.getContent = some pairs) (b : BuildState) (isOpenDocument : Bool)
    (timestamp : Option ℤ) :
    ∃ versions timestamps, b.ingestDocument parser document isOpenDocument timestamp =
      { b.addPairs document.filePath.genericString document.filePath.filename pairs with
        openDocumentVersions := versions
        diskFileTimestamps := timestamps } := by
  rw [ingestDocument, hpairs]
  cases isOpenDocument with
  | true => exact ⟨_, _, rfl⟩
  | false => cases timestamp <;> exact ⟨_, _, rfl⟩

end Add

section Frame

def frame (b : BuildState) : List FsPath × List WorkspaceGitIgnoreRules :=
  (b.workspaceRootPaths, b.workspaceGitignoreRules)

lemma foldl_addPair_frame (f base : Bytes) (pairs : List ParsedPair) (b : BuildState) :
    (pairs.foldl (addPair f base) b).frame = b.frame ∧
      (pairs.foldl (addPair f base) b).openDocumentVersions = b.openDocumentVersions := by
  induction pairs generalizing b with
  | nil => exact ⟨rfl, rfl⟩
  | cons pair pairs ih => exact ih (addPair f base b pair)

lemma eraseLines_frame (b : BuildState) (f : Bytes) :
    (b.eraseLines f).frame = b.frame ∧
      (b.eraseLines f).openDocumentVersions = b.openDocumentVersions := by
  cases h : b.fileLineIds.lookup f with
  | none => rw [eraseLines_of_none h]; exact ⟨rfl, rfl⟩
  | some ids => rw [eraseLines_of_some h]; exact ⟨rfl, rfl⟩

lemma eraseFile_frame (b : BuildState) (f : Bytes) :
    (b.eraseFile f).frame = b.frame ∧
      (b.eraseFile f).openDocumentVersions = b.openDocumentVersions.erase f :=
  ⟨(eraseLines_frame b f).1, congrArg (Finmap.erase f) (eraseLines_frame b f).2⟩

lemma addPairs_frame (b : BuildState) (f base : Bytes) (pairs : List ParsedPair) :
    (b.addPairs f base pairs).frame = b.frame ∧
      (b.addPairs f base pairs).openDocumentVersions = b.openDocumentVersions :=
  foldl_addPair_frame f base pairs _

lemma replaceDocument_frame (b : BuildState) (f base : Bytes) (pairs : List ParsedPair) :
    (b.replaceDocument f base pairs).frame = b.frame ∧
      (b.replaceDocument f base pairs).openDocumentVersions = b.openDocumentVersions.erase f := by
  obtain ⟨hframe, hversions⟩ := addPairs_frame (b.eraseFile f) f base pairs
  exact ⟨hframe.trans (eraseFile_frame b f).1, hversions.trans (eraseFile_frame b f).2⟩

def Ingests (parser : TextParser) (b c : BuildState) : Prop :=
  c = b ∨ ∃ f base content pairs versions timestamps, parser content = some pairs ∧
    c = { b.addPairs f base pairs with
      openDocumentVersions := versions, diskFileTimestamps := timestamps }

lemma ingests_ingestDocument (b : BuildState) (parser : TextParser) (document : TextDocument)
    (isOpenDocument : Bool) (timestamp : Option ℤ) :
    Ingests parser b (b.ingestDocument parser document isOpenDocument timestamp) := by
  cases hpairs : parser document.getContent with
  | none =>
    left
    simp only [ingestDocument, hpairs]
  | some pairs =>
    obtain ⟨versions, timestamps, heq⟩ := ingestDocument_eq hpairs b isOpenDocument timestamp
    exact Or.inr ⟨_, _, _, pairs, versions, timestamps, hpairs, heq⟩

lemma ingests_ingestUri (env : Environment) (fs : FileSystem) (parser : TextParser)
    (documents : FiniteMap Bytes TextDocument) (b : BuildState) (uri : Bytes) :
    Ingests parser b (ingestUri env fs parser documents b uri) := by
  rw [ingestUri]
  cases documents.lookup uri with
  | some document => exact ingests_ingestDocument _ _ _ _ _
  | none =>
    cases loadFromFile env.codec fs.read (filePathFromUri uri) with
    | some document => exact ingests_ingestDocument _ _ _ _ _
    | none => exact Or.inl rfl

lemma Consistent.ingests {parser : TextParser} {b c : BuildState} (h : Consistent b)
    (hingests : Ingests parser b c) : Consistent c := by
  rcases hingests with rfl | ⟨f, base, content, pairs, versions, timestamps, -, rfl⟩
  · exact h
  · exact { h.addPairs f base pairs with }

lemma isInWorkspace_of_frame {b c : BuildState} (h : b.frame = c.frame) (path : FsPath) :
    b.isInWorkspace path = c.isInWorkspace path := by
  rw [frame, frame, Prod.mk.injEq] at h
  rw [isInWorkspace, isInWorkspace, h.1, h.2]

end Frame

end BuildState

end Crossref

end DltxtBridge
