import DltxtBridge.Crossref.Score
import DltxtBridge.Library.EditDistance

namespace DltxtBridge.Crossref

open EditDistance

/-- The two vectors, which are filled in place and swapped after every row. -/
structure Rows where
  previous : List ℕ
  current : List ℕ

def fillCell (ch : UInt16) (rhs : Text) (previous current : List ℕ) (column : ℕ) : List ℕ :=
  let cost := if ch = rhs.getD column 0 then 0 else 1
  current.set (column + 1)
    (min (min (previous.getD (column + 1) 0 + 1) (current.getD column 0 + 1)) (previous.getD column 0 + cost))

namespace Rows

def start (rhs : Text) : Rows where
  previous := List.range (rhs.length + 1)
  current := List.replicate (rhs.length + 1) 0

def step (lhs rhs : Text) (rows : Rows) (row : ℕ) : Rows where
  previous := (List.range rhs.length).foldl (fillCell (lhs.getD row 0) rhs rows.previous)
    (rows.current.set 0 (row + 1))
  current := rows.previous

def table (lhs rhs : Text) : Rows := (List.range lhs.length).foldl (step lhs rhs) (start rhs)

end Rows

def tableDistance (lhs rhs : Text) : ℕ := (Rows.table lhs rhs).previous.getLastD 0

section Cells

lemma getD_append_cons {α : Type} (xs ys : List α) (x d : α) : (xs ++ x :: ys).getD xs.length d = x := by
  simp [List.getD_eq_getElem?_getD]

lemma set_append_cons {α : Type} (xs ys : List α) (x y : α) :
    (xs ++ x :: ys).set xs.length y = xs ++ y :: ys := by
  rw [List.set_append_right _ _ le_rfl, Nat.sub_self, List.set_cons_zero]

lemma fillCell_append (ch other : UInt16) (done rest : Text) (above below cells stale : List ℕ)
    (diagonal up left old : ℕ) (habove : above.length = done.length) (hcells : cells.length = done.length) :
    fillCell ch (done ++ other :: rest) (above ++ diagonal :: up :: below) (cells ++ left :: old :: stale)
        done.length =
      (cells ++ [left]) ++
        min (min (up + 1) (left + 1)) (diagonal + if ch = other then 0 else 1) :: stale := by
  have hdiagonal : (above ++ diagonal :: up :: below).getD done.length 0 = diagonal :=
    habove ▸ getD_append_cons above _ diagonal 0
  have hup : (above ++ diagonal :: up :: below).getD (done.length + 1) 0 = up := by
    simp [← habove]
  have hleft : (cells ++ left :: old :: stale).getD done.length 0 = left :=
    hcells ▸ getD_append_cons cells _ left 0
  have hcolumn : done.length + 1 = (cells ++ [left]).length := by simp [hcells]
  rw [fillCell, getD_append_cons, hdiagonal, hup, hleft, hcolumn, List.append_cons cells left]
  exact set_append_cons _ _ _ _

lemma foldl_fillCell (ch : UInt16) {done rest : Text} {above below cells stale : List ℕ} {left : ℕ}
    (habove : above.length = done.length) (hcells : cells.length = done.length)
    (hbelow : below.length = rest.length + 1) (hstale : stale.length = rest.length) :
    (List.range' done.length rest.length).foldl (fillCell ch (done ++ rest) (above ++ below))
      (cells ++ left :: stale) = cells ++ left :: fillRow ch rest below left := by
  induction rest generalizing done above below cells stale left with
  | nil =>
    rw [List.length_eq_zero_iff.mp hstale]
    simp [fillRow]
  | cons other rest ih =>
    obtain _ | ⟨diagonal, _ | ⟨up, below⟩⟩ := below
    · simp at hbelow
    · simp at hbelow
    obtain _ | ⟨old, stale⟩ := stale
    · simp at hstale
    rw [List.length_cons, List.range'_succ, List.foldl_cons,
      fillCell_append ch other done rest above below cells stale diagonal up left old habove hcells, fillRow]
    generalize min (min (up + 1) (left + 1)) (diagonal + if ch = other then 0 else 1) = cell
    have hrest : (List.range' (done ++ [other]).length rest.length).foldl
        (fillCell ch ((done ++ [other]) ++ rest) ((above ++ [diagonal]) ++ up :: below))
        ((cells ++ [left]) ++ cell :: stale) =
          (cells ++ [left]) ++ cell :: fillRow ch rest (up :: below) cell :=
      ih (by simpa using habove) (by simpa using hcells) (by simpa using hbelow) (by simpa using hstale)
    simpa using hrest

lemma step_eq (lhs : Text) {rhs : Text} {rows : Rows} (hprevious : rows.previous.length = rhs.length + 1)
    (hcurrent : rows.current.length = rhs.length + 1) (row : ℕ) :
    rows.step lhs rhs row = ⟨nextRow (lhs.getD row 0) rhs row rows.previous, rows.previous⟩ := by
  obtain ⟨stale, hstale⟩ : ∃ stale, rows.current.set 0 (row + 1) = (row + 1) :: stale ∧
      stale.length = rhs.length := by
    cases hcells : rows.current with
    | nil => simp [hcells] at hcurrent
    | cons cell stale => exact ⟨stale, rfl, by simpa [hcells] using hcurrent⟩
  have hfill : (List.range' 0 rhs.length).foldl (fillCell (lhs.getD row 0) rhs rows.previous)
      ((row + 1) :: stale) = (row + 1) :: fillRow (lhs.getD row 0) rhs rows.previous (row + 1) :=
    @foldl_fillCell _ [] rhs [] rows.previous [] stale (row + 1) rfl rfl hprevious hstale.2
  rw [Rows.step, hstale.1, List.range_eq_range', hfill, nextRow]

lemma length_nextRow (ch : UInt16) {rhs : Text} {previous : List ℕ} (h : previous.length = rhs.length + 1)
    (row : ℕ) : (nextRow ch rhs row previous).length = rhs.length + 1 := by
  rw [nextRow, List.length_cons, length_fillRow ch rhs h]

lemma foldl_step (lhs : Text) {rhs rest : Text} {rows : Rows} {row : ℕ} (hrest : lhs.drop row = rest)
    (hprevious : rows.previous.length = rhs.length + 1) (hcurrent : rows.current.length = rhs.length + 1) :
    ((List.range' row rest.length).foldl (Rows.step lhs rhs) rows).previous =
      lastRow rhs rest row rows.previous := by
  induction rest generalizing rows row with
  | nil => rfl
  | cons ch rest ih =>
    have hch : lhs.getD row 0 = ch := by
      rw [List.getD_eq_getElem?_getD, ← List.head?_drop, hrest]
      rfl
    have htail : lhs.drop (row + 1) = rest := by
      rw [← List.tail_drop, hrest, List.tail_cons]
    rw [List.length_cons, List.range'_succ, List.foldl_cons, step_eq lhs hprevious hcurrent, hch, lastRow]
    exact ih htail (length_nextRow ch hprevious row) hprevious

lemma table_eq (lhs rhs : Text) :
    (Rows.table lhs rhs).previous = lastRow rhs lhs 0 (List.range (rhs.length + 1)) := by
  rw [Rows.table, List.range_eq_range']
  exact foldl_step lhs List.drop_zero List.length_range List.length_replicate

end Cells

section Distance

noncomputable def prefixDistances (xs ys : Text) : Text → List ℕ
  | [] => [levenshtein xs ys]
  | ch :: rest => levenshtein xs ys :: prefixDistances xs (ys ++ [ch]) rest

lemma prefixDistances_eq_cons (xs ys rest : Text) :
    prefixDistances xs ys rest = levenshtein xs ys :: (prefixDistances xs ys rest).tail := by
  cases rest <;> rfl

lemma fillRow_prefixDistances (ch : UInt16) (xs ys rest : Text) :
    fillRow ch rest (prefixDistances xs ys rest) (levenshtein (xs ++ [ch]) ys) =
      (prefixDistances (xs ++ [ch]) ys rest).tail := by
  induction rest generalizing ys with
  | nil => rfl
  | cons other rest ih =>
    have hrest := ih (ys ++ [other])
    rw [levenshtein_concat_concat] at hrest
    rw [prefixDistances, prefixDistances, List.tail_cons, prefixDistances_eq_cons (xs ++ [ch]),
      prefixDistances_eq_cons xs, fillRow, ← prefixDistances_eq_cons, hrest, levenshtein_concat_concat]

lemma lastRow_prefixDistances (xs lhs rhs : Text) :
    lastRow rhs lhs xs.length (prefixDistances xs [] rhs) = prefixDistances (xs ++ lhs) [] rhs := by
  induction lhs generalizing xs with
  | nil => rw [List.append_nil, lastRow]
  | cons ch lhs ih =>
    have hfirst : levenshtein (xs ++ [ch]) [] = xs.length + 1 := by
      rw [levenshtein_nil_right, List.length_append, List.length_singleton]
    have hrow : nextRow ch rhs xs.length (prefixDistances xs [] rhs) = prefixDistances (xs ++ [ch]) [] rhs := by
      rw [nextRow, ← hfirst, fillRow_prefixDistances, ← prefixDistances_eq_cons]
    have hrest := ih (xs ++ [ch])
    rw [List.length_append, List.length_singleton, List.append_assoc, List.singleton_append] at hrest
    rw [lastRow, hrow, hrest]

lemma prefixDistances_nil (ys rest : Text) :
    prefixDistances [] ys rest = List.range' ys.length (rest.length + 1) := by
  induction rest generalizing ys with
  | nil => rw [prefixDistances, levenshtein_nil_left]; rfl
  | cons ch rest ih =>
    rw [prefixDistances, ih, levenshtein_nil_left, List.length_cons, List.range'_succ, List.length_append]
    rfl

lemma getLastD_prefixDistances (xs ys rest : Text) :
    (prefixDistances xs ys rest).getLastD 0 = levenshtein xs (ys ++ rest) := by
  induction rest generalizing ys with
  | nil => rw [prefixDistances, List.append_nil]; rfl
  | cons ch rest ih =>
    have hrest := ih (ys ++ [ch])
    rw [prefixDistances_eq_cons, List.getLastD_cons, List.append_assoc, List.singleton_append] at hrest
    rw [prefixDistances, prefixDistances_eq_cons, List.getLastD_cons, List.getLastD_cons, hrest]

lemma editDistance_eq (lhs rhs : Text) : editDistance lhs rhs = levenshtein lhs rhs := by
  have hstart : prefixDistances [] [] rhs = List.range (rhs.length + 1) := by
    rw [prefixDistances_nil, List.range_eq_range', List.length_nil]
  rw [editDistance, ← hstart]
  exact (congrArg (·.getLastD 0) (lastRow_prefixDistances [] lhs rhs)).trans
    (getLastD_prefixDistances lhs [] rhs)

lemma tableDistance_eq (lhs rhs : Text) : tableDistance lhs rhs = levenshtein lhs rhs := by
  rw [tableDistance, table_eq, ← editDistance_eq]
  rfl

end Distance

section Score

variable (query text : Text)

lemma computeScore_eq (h : removeSpace query ≠ removeSpace text) :
    computeScore query text =
      similarityScore (levenshtein (removeSpace query) (removeSpace text))
        ((removeSpace query).length + (removeSpace text).length) := by
  rw [computeScore, editDistance_eq, if_neg h, if_neg]
  rintro ⟨hquery, htext⟩
  exact h (hquery.trans htext.symm)

lemma length_pos_of_ne {xs ys : Text} (h : xs ≠ ys) : xs.length + ys.length ≠ 0 := by
  intro hzero
  rw [Nat.add_eq_zero_iff, List.length_eq_zero_iff, List.length_eq_zero_iff] at hzero
  exact h (hzero.1.trans hzero.2.symm)

lemma computeScore_comm : computeScore query text = computeScore text query := by
  by_cases h : removeSpace query = removeSpace text
  · rw [computeScore, computeScore, if_pos h, if_pos h.symm]
  · rw [computeScore_eq _ _ h, computeScore_eq _ _ (Ne.symm h), levenshtein_comm, Nat.add_comm]

lemma similarityScore_of_pos {distance totalLength : ℕ} (h : totalLength ≠ 0) :
    similarityScore distance totalLength = lround (100 * (1 - (distance : ℚ) / totalLength)) :=
  if_neg h

lemma similarityScore_nonneg {distance totalLength : ℕ} (h : distance ≤ totalLength) :
    0 ≤ similarityScore distance totalLength := by
  by_cases hzero : totalLength = 0
  · rw [similarityScore, if_pos hzero]
    norm_num
  · have hpos : (0 : ℚ) < totalLength := by exact_mod_cast Nat.pos_of_ne_zero hzero
    have hratio : (distance : ℚ) / totalLength ≤ 1 := (div_le_one hpos).mpr (by exact_mod_cast h)
    rw [similarityScore_of_pos hzero]
    calc 0 = lround 0 := by norm_num [lround]
      _ ≤ lround (100 * (1 - (distance : ℚ) / totalLength)) := lround_le_lround (by linarith)

lemma computeScore_nonneg : 0 ≤ computeScore query text := by
  by_cases h : removeSpace query = removeSpace text
  · rw [computeScore, if_pos h]
    norm_num
  · rw [computeScore_eq _ _ h]
    exact similarityScore_nonneg (levenshtein_le_add _ _)

theorem computeScore_levenshtein :
    tableDistance (removeSpace query) (removeSpace text) =
        levenshtein (removeSpace query) (removeSpace text) ∧
      computeScore query text = computeScore text query ∧
      0 ≤ computeScore query text ∧ computeScore query text ≤ 100 ∧
      (removeSpace query ≠ removeSpace text → computeScore query text =
        lround (100 * (1 - (levenshtein (removeSpace query) (removeSpace text) : ℚ) /
          ((removeSpace query).length + (removeSpace text).length : ℕ)))) := by
  refine ⟨tableDistance_eq _ _, computeScore_comm query text, computeScore_nonneg query text,
    computeScore_le query text, fun h => ?_⟩
  rw [computeScore_eq _ _ h, similarityScore_of_pos (length_pos_of_ne h)]

end Score

section Exact

lemma lround_eq_hundred_iff {q : ℚ} (h : q ≤ 100) : lround q = 100 ↔ 199 / 2 ≤ q := by
  rw [lround]
  split_ifs with hq
  · rw [Int.floor_eq_iff]
    constructor
    · rintro ⟨hle, -⟩
      push_cast at hle
      linarith
    · intro hle
      push_cast
      constructor <;> linarith
  · have hneg : ⌈q - 1 / 2⌉ ≤ 0 := Int.ceil_le.mpr (by push_cast; linarith)
    constructor
    · intro heq
      omega
    · intro hle
      linarith

lemma similarityScore_eq_hundred_iff {distance totalLength : ℕ} (h : totalLength ≠ 0) :
    similarityScore distance totalLength = 100 ↔ 200 * distance ≤ totalLength := by
  have hpos : (0 : ℚ) < totalLength := by exact_mod_cast Nat.pos_of_ne_zero h
  have hratio : (0 : ℚ) ≤ (distance : ℚ) / totalLength := by positivity
  rw [similarityScore_of_pos h, lround_eq_hundred_iff (by linarith)]
  have hscale : 199 / 2 ≤ 100 * (1 - (distance : ℚ) / totalLength) ↔
      (distance : ℚ) / totalLength ≤ 1 / 200 := by
    constructor <;> intro hle <;> linarith
  rw [hscale, div_le_div_iff₀ hpos (by norm_num)]
  norm_cast
  omega

/-- The texts differ by so little for their length that the score rounds to 100. -/
def NearlyEqual (query text : Text) : Prop :=
  removeSpace query ≠ removeSpace text ∧
    200 * levenshtein (removeSpace query) (removeSpace text) ≤
      (removeSpace query).length + (removeSpace text).length

lemma computeScore_eq_hundred_iff (query text : Text) :
    computeScore query text = 100 ↔ removeSpace query = removeSpace text ∨ NearlyEqual query text := by
  by_cases h : removeSpace query = removeSpace text
  · rw [computeScore, if_pos h]
    simp [h]
  · rw [computeScore_eq _ _ h, similarityScore_eq_hundred_iff (length_pos_of_ne h), NearlyEqual]
    simp [h]

end Exact

end DltxtBridge.Crossref
