import DltxtBridge.Strings

namespace DltxtBridge.Crossref

/-- `std::lround`: halves are rounded away from zero. -/
def lround (q : ℚ) : ℤ := if 0 ≤ q then ⌊q + 1 / 2⌋ else ⌈q - 1 / 2⌉

def isSpace (ch : UInt16) : Bool :=
  ch = 32 || ch = 9 || ch = 13 || ch = 10 || ch = 12 || ch = 11 || ch = 12288

def removeSpace (text : Text) : Text := text.filter fun ch => !isSpace ch

def fillRow (ch : UInt16) : Text → List ℕ → ℕ → List ℕ
  | other :: rhs, diagonal :: above :: previous, left =>
    let cost := if ch = other then 0 else 1
    let cell := min (min (above + 1) (left + 1)) (diagonal + cost)
    cell :: fillRow ch rhs (above :: previous) cell
  | _, _, _ => []

def nextRow (ch : UInt16) (rhs : Text) (row : ℕ) (previous : List ℕ) : List ℕ :=
  (row + 1) :: fillRow ch rhs previous (row + 1)

def lastRow (rhs : Text) : Text → ℕ → List ℕ → List ℕ
  | [], _, previous => previous
  | ch :: lhs, row, previous => lastRow rhs lhs (row + 1) (nextRow ch rhs row previous)

def editDistance (lhs rhs : Text) : ℕ := (lastRow rhs lhs 0 (List.range (rhs.length + 1))).getLastD 0

def similarityScore (distance totalLength : ℕ) : ℤ :=
  if totalLength = 0 then 100 else lround (100 * (1 - (distance : ℚ) / totalLength))

def computeScore (query text : Text) : ℤ :=
  let lhs := removeSpace query
  let rhs := removeSpace text
  if lhs = rhs then 100
  else if lhs = [] ∧ rhs = [] then 100
  else similarityScore (editDistance lhs rhs) (lhs.length + rhs.length)

def scoreUpperBoundByLength (query text : Text) : ℤ :=
  let lhs := removeSpace query
  let rhs := removeSpace text
  if lhs = rhs then 100
  else
    let minDistance := if rhs.length < lhs.length then lhs.length - rhs.length else rhs.length - lhs.length
    similarityScore minDistance (lhs.length + rhs.length)

section Rounding

lemma lround_le_lround {p q : ℚ} (h : p ≤ q) : lround p ≤ lround q := by
  rw [lround, lround]
  split_ifs with hp hq hq
  · exact Int.floor_le_floor (by linarith)
  · exact absurd (hp.trans h) hq
  · have hnonpos : ⌈p - 1 / 2⌉ ≤ 0 := Int.ceil_le.mpr (by push_cast; linarith)
    have hnonneg : 0 ≤ ⌊q + 1 / 2⌋ := Int.le_floor.mpr (by push_cast; linarith)
    exact hnonpos.trans hnonneg
  · exact Int.ceil_le_ceil (by linarith)

lemma similarityScore_anti {d e : ℕ} (h : d ≤ e) (totalLength : ℕ) :
    similarityScore e totalLength ≤ similarityScore d totalLength := by
  rw [similarityScore, similarityScore]
  split_ifs
  · exact le_rfl
  · apply lround_le_lround
    gcongr

lemma similarityScore_le (distance totalLength : ℕ) : similarityScore distance totalLength ≤ 100 := by
  apply (similarityScore_anti (Nat.zero_le distance) totalLength).trans
  rw [similarityScore]
  split_ifs
  · exact le_rfl
  · norm_num [lround]

end Rounding

section Distance

def Apart (row : ℕ) : ℕ → List ℕ → Prop
  | _, [] => True
  | column, cell :: cells => (row ≤ cell + column ∧ column ≤ cell + row) ∧ Apart row (column + 1) cells

lemma apart_fillRow (ch : UInt16) (rhs : Text) {row column left : ℕ} {previous : List ℕ}
    (hprevious : Apart row column previous) (hleft : row + 1 ≤ left + column ∧ column ≤ left + (row + 1)) :
    Apart (row + 1) (column + 1) (fillRow ch rhs previous left) := by
  induction rhs generalizing column left previous with
  | nil => cases previous <;> trivial
  | cons other rhs ih =>
    match previous, hprevious with
    | [], _ => trivial
    | [_], _ => trivial
    | diagonal :: above :: previous, ⟨hdiagonal, habove⟩ =>
      rw [fillRow]
      have hcell : row + 1 ≤ min (min (above + 1) (left + 1)) (diagonal + if ch = other then 0 else 1) +
            (column + 1) ∧
          column + 1 ≤ min (min (above + 1) (left + 1)) (diagonal + if ch = other then 0 else 1) +
            (row + 1) := by
        have := habove.1
        split_ifs <;> omega
      exact ⟨hcell, ih habove hcell⟩

lemma length_fillRow (ch : UInt16) (rhs : Text) {previous : List ℕ} (h : previous.length = rhs.length + 1)
    (left : ℕ) : (fillRow ch rhs previous left).length = rhs.length := by
  induction rhs generalizing previous left with
  | nil =>
    match previous with
    | [_] => rfl
  | cons other rhs ih =>
    match previous with
    | diagonal :: above :: previous =>
      rw [fillRow, List.length_cons, ih (by simpa using h), List.length_cons]

lemma apart_lastRow (rhs lhs : Text) {row : ℕ} {previous : List ℕ} (hprevious : Apart row 0 previous)
    (hlength : previous.length = rhs.length + 1) :
    Apart (row + lhs.length) 0 (lastRow rhs lhs row previous) ∧
      (lastRow rhs lhs row previous).length = rhs.length + 1 := by
  induction lhs generalizing row previous with
  | nil => exact ⟨hprevious, hlength⟩
  | cons ch lhs ih =>
    rw [lastRow, List.length_cons, Nat.add_comm lhs.length, ← Nat.add_assoc]
    apply ih
    · exact ⟨by omega, apart_fillRow ch rhs hprevious (by omega)⟩
    · rw [nextRow, List.length_cons, length_fillRow ch rhs hlength]

lemma apart_range (column n : ℕ) : Apart 0 column (List.range' column n) := by
  induction n generalizing column with
  | zero => trivial
  | succ n ih => exact ⟨by omega, ih (column + 1)⟩

lemma Apart.getLastD {row column : ℕ} {cells : List ℕ} (h : Apart row column cells) (hne : cells ≠ []) :
    row + 1 ≤ cells.getLastD 0 + (column + cells.length) ∧
      column + cells.length ≤ cells.getLastD 0 + row + 1 := by
  induction cells generalizing column with
  | nil => exact absurd rfl hne
  | cons cell cells ih =>
    cases cells with
    | nil =>
      have := h.1
      simp only [List.getLastD_cons, List.getLastD_nil, List.length_singleton]
      omega
    | cons next cells =>
      have := ih h.2 (List.cons_ne_nil _ _)
      simp only [List.getLastD_cons, List.length_cons] at this ⊢
      omega

lemma length_le_editDistance (lhs rhs : Text) :
    lhs.length ≤ editDistance lhs rhs + rhs.length ∧ rhs.length ≤ editDistance lhs rhs + lhs.length := by
  have hstart : Apart 0 0 (List.range (rhs.length + 1)) := by
    rw [List.range_eq_range']
    exact apart_range 0 _
  obtain ⟨hrow, hlength⟩ := apart_lastRow rhs lhs hstart List.length_range
  have hlast := hrow.getLastD (List.ne_nil_of_length_eq_add_one hlength)
  rw [hlength] at hlast
  rw [editDistance]
  omega

end Distance

lemma computeScore_le_upperBound (query text : Text) :
    computeScore query text ≤ scoreUpperBoundByLength query text := by
  have hdistance := length_le_editDistance (removeSpace query) (removeSpace text)
  rw [computeScore, scoreUpperBoundByLength]
  split_ifs with hsame hempty hlonger
  · exact le_rfl
  · exact absurd (hempty.1.trans hempty.2.symm) hsame
  · exact absurd (hempty.1.trans hempty.2.symm) hsame
  · exact similarityScore_anti (by omega) _
  · exact similarityScore_anti (by omega) _

lemma computeScore_le (query text : Text) : computeScore query text ≤ 100 := by
  rw [computeScore]
  split_ifs
  · exact le_rfl
  · exact le_rfl
  · exact similarityScore_le _ _

end DltxtBridge.Crossref
