import DltxtBridge.Library.InternTable
import DltxtBridge.Library.InvertedIndex
import DltxtBridge.Strings

/-! The bigram index of `bridge_similarity_index.hpp`: interned terms and file
paths with reference counts, an inverted index, and the stored lines. -/

namespace DltxtBridge

abbrev LineId := ℕ
abbrev Term := Text
abbrev TermId := ℕ
abbrev TermFrequencyMap := List (TermId × ℕ)

structure IndexedLine where
  lineId : LineId
  fileId : ℕ
  lineNumber : ℕ
  termFrequency : TermFrequencyMap
deriving DecidableEq

/-- `term_ids_by_value_`, `term_values_by_id_` and `term_ref_counts_`. -/
abbrev TermTable := InternTable Term

/-- `file_ids_by_path_`, `file_paths_by_id_` and `file_ref_counts_`. -/
abbrev FileTable := InternTable Bytes

structure SimilarityIndex where
  lines : FiniteMap LineId IndexedLine := ∅
  inverted : InvertedIndex TermId LineId := {}
  terms : TermTable := {}
  files : FileTable := {}

def grams (text : Text) : List Term :=
  if text.length < 2 then []
  else (List.range (text.length - 1)).map fun index => (text.drop index).take 2

def seenTermIds {σ : Type} (resolve : Term → σ → Option TermId × σ) : List Term → σ → List TermId × σ
  | [], st => ([], st)
  | term :: rest, st =>
    let (maybeId, st) := resolve term st
    let (ids, st) := seenTermIds resolve rest st
    (maybeId.toList ++ ids, st)

def countTerm (frequencies : TermFrequencyMap) (termId : TermId) : TermFrequencyMap :=
  match frequencies.getLast? with
  | some (lastId, count) =>
    if lastId = termId then frequencies.dropLast ++ [(lastId, toUInt32 (count + 1))]
    else frequencies ++ [(termId, 1)]
  | none => [(termId, 1)]

def buildTermFrequency {σ : Type} (resolve : Term → σ → Option TermId × σ) (text : Text) (st : σ) :
    TermFrequencyMap × σ :=
  let (ids, st) := seenTermIds resolve (grams text) st
  ((ids.insertionSort (· ≤ ·)).foldl countTerm [], st)

def findTermId (term : Term) (T : TermTable) : Option TermId × TermTable :=
  (T.idsByValue.lookup term, T)

def retainTermId (term : Term) (T : TermTable) : Option TermId × TermTable :=
  (some (T.retain toUInt32 term).1, (T.retain toUInt32 term).2)

def releaseTermId (termId : TermId) (T : TermTable) : TermTable := T.reclaim [] termId

def retainFileId (filePath : Bytes) (F : FileTable) : ℕ × FileTable := F.retain toUInt32 filePath

def releaseFileId (fileId : ℕ) (F : FileTable) : FileTable := F.release fileId

namespace SimilarityIndex

def erase (s : SimilarityIndex) (lineId : LineId) : Bool × SimilarityIndex :=
  match s.lines.lookup lineId with
  | none => (false, s)
  | some line =>
    let (inverted, terms) := line.termFrequency.foldl
      (fun (st : InvertedIndex TermId LineId × TermTable) entry =>
        (st.1.remove entry.1 lineId, releaseTermId entry.1 st.2)) (s.inverted, s.terms)
    (true,
      { lines := s.lines.erase lineId
        inverted := inverted
        terms := terms
        files := releaseFileId line.fileId s.files })

def addLine (s : SimilarityIndex) (lineId : LineId) (filePath : Bytes) (lineNumber : ℕ)
    (text : Text) : SimilarityIndex :=
  let (fileId, files) := retainFileId filePath s.files
  let (termFrequency, terms) := buildTermFrequency retainTermId text s.terms
  { lines := FiniteMap.emplace lineId ⟨lineId, fileId, lineNumber, termFrequency⟩ s.lines
    inverted := termFrequency.foldl (fun ix entry => ix.add entry.1 lineId) s.inverted
    terms := terms
    files := files }

def upsert (s : SimilarityIndex) (lineId : LineId) (filePath : Bytes) (lineNumber : ℕ)
    (text : Text) : SimilarityIndex :=
  (s.erase lineId).2.addLine lineId filePath lineNumber text

def fileCount (s : SimilarityIndex) : ℕ := s.files.refCounts.countP (0 < ·)

end SimilarityIndex

inductive IndexCall
  | upsert (lineId : LineId) (filePath : Bytes) (lineNumber : ℕ) (text : Text)
  | erase (lineId : LineId)

namespace IndexCall

def lineId : IndexCall → LineId
  | .upsert id _ _ _ => id
  | .erase id => id

def apply (s : SimilarityIndex) : IndexCall → SimilarityIndex
  | .upsert id path number text => s.upsert id path number text
  | .erase id => (s.erase id).2

def run (calls : List IndexCall) : SimilarityIndex := calls.foldl apply {}

end IndexCall

end DltxtBridge
