import DltxtBridge.Crossref.RuleLines
import DltxtBridge.Library.StableSort
import Mathlib.Data.Prod.Lex

namespace DltxtBridge.Crossref

open FsPath

section Numbers

def Counts (line : Bytes) : Prop :=
  trimGitignoreLine line ≠ [] ∧ (unescapeGitignoreLine (trimGitignoreLine line)).isSome

instance (line : Bytes) : Decidable (Counts line) := inferInstanceAs (Decidable (_ ∧ _))

variable {baseDir : FsPath} {order : ℕ} {line : Bytes} {lines : List Bytes} {rule : GitIgnoreRule}

lemma parseIgnoreLines_of_not_counts (h : ¬ Counts line) (lines : List Bytes) :
    parseIgnoreLines baseDir order (line :: lines) = parseIgnoreLines baseDir order lines := by
  rw [parseIgnoreLines]
  cases htrim : trimGitignoreLine line with
  | nil => rfl
  | cons ch rest =>
    have hunescape : unescapeGitignoreLine (ch :: rest) = none := by
      rw [Counts, htrim] at h
      simpa using h
    simp only [hunescape]

lemma parseIgnoreLines_of_counts (h : Counts line) :
    ∃ unescaped, ∀ order lines, parseIgnoreLines baseDir order (line :: lines) =
      (gitignoreRuleOf baseDir order unescaped).toList ++ parseIgnoreLines baseDir (order + 1) lines := by
  obtain ⟨hne, hsome⟩ := h
  obtain ⟨unescaped, hunescape⟩ := Option.isSome_iff_exists.mp hsome
  refine ⟨unescaped, fun order lines => ?_⟩
  rw [parseIgnoreLines]
  cases htrim : trimGitignoreLine line with
  | nil => exact absurd htrim hne
  | cons ch rest =>
    rw [htrim] at hunescape
    simp only [hunescape]

def countRules (lines : List Bytes) : ℕ := lines.countP fun line => Counts line

lemma countRules_of_counts (h : Counts line) (lines : List Bytes) :
    countRules (line :: lines) = countRules lines + 1 :=
  List.countP_cons_of_pos (by simpa using h)

lemma countRules_of_not_counts (h : ¬ Counts line) (lines : List Bytes) :
    countRules (line :: lines) = countRules lines :=
  List.countP_cons_of_neg (by simpa using h)

lemma parseIgnoreLines_append (front back : List Bytes) :
    parseIgnoreLines baseDir order (front ++ back) =
      parseIgnoreLines baseDir order front ++ parseIgnoreLines baseDir (order + countRules front) back := by
  induction front generalizing order with
  | nil => rfl
  | cons line front ih =>
    by_cases hcounts : Counts line
    · obtain ⟨unescaped, hparse⟩ := @parseIgnoreLines_of_counts baseDir line hcounts
      rw [List.cons_append, hparse, hparse, ih, countRules_of_counts hcounts, List.append_assoc, Nat.add_right_comm,
        Nat.add_assoc]
    · rw [List.cons_append, parseIgnoreLines_of_not_counts hcounts, parseIgnoreLines_of_not_counts hcounts, ih,
        countRules_of_not_counts hcounts]

lemma gitignoreRuleOf_fields (h : gitignoreRuleOf baseDir order line = some rule) :
    rule.baseDir = baseDir ∧ rule.baseDepth = baseDir.components.length ∧ rule.order = order := by
  obtain ⟨-, hrule⟩ := Option.ite_none_left_eq_some.mp h
  exact Option.some.inj hrule ▸ ⟨rfl, rfl, rfl⟩

lemma parseIgnoreLines_fields (baseDir : FsPath) (order : ℕ) (lines : List Bytes) :
    (∀ rule ∈ parseIgnoreLines baseDir order lines,
      rule.baseDir = baseDir ∧ rule.baseDepth = baseDir.components.length ∧
        order ≤ rule.order ∧ rule.order < order + countRules lines) ∧
      (parseIgnoreLines baseDir order lines).Pairwise fun left right => left.order < right.order := by
  induction lines generalizing order with
  | nil => simp [parseIgnoreLines]
  | cons line lines ih =>
    by_cases hcounts : Counts line
    · obtain ⟨unescaped, hparse⟩ := @parseIgnoreLines_of_counts baseDir line hcounts
      obtain ⟨hfields, hpairwise⟩ := ih (order + 1)
      have hfirst : ∀ rule ∈ (gitignoreRuleOf baseDir order unescaped).toList,
          rule.baseDir = baseDir ∧ rule.baseDepth = baseDir.components.length ∧ rule.order = order :=
        fun rule hrule => gitignoreRuleOf_fields (Option.mem_toList.mp hrule)
      rw [hparse, countRules_of_counts hcounts, List.forall_mem_append, List.pairwise_append]
      refine ⟨⟨fun rule hrule => ?_, fun rule hrule => ?_⟩, ?_, hpairwise, fun left hleft right hright => ?_⟩
      · obtain ⟨hbase, hdepth, horder⟩ := hfirst rule hrule
        exact ⟨hbase, hdepth, by omega, by omega⟩
      · obtain ⟨hbase, hdepth, hlower, hupper⟩ := hfields rule hrule
        exact ⟨hbase, hdepth, by omega, by omega⟩
      · cases gitignoreRuleOf baseDir order unescaped <;> simp
      · have hleft := (hfirst left hleft).2.2
        have hright := (hfields right hright).2.2.1
        omega
    · rw [parseIgnoreLines_of_not_counts hcounts, countRules_of_not_counts hcounts]
      exact ih order

def renumber (baseDir : FsPath) (start steps : ℕ) (rule : GitIgnoreRule) : GitIgnoreRule :=
  if rule.baseDir = baseDir ∧ start ≤ rule.order then { rule with order := rule.order + steps } else rule

lemma renumber_of_lt {start steps : ℕ} (hlt : rule.order < start) : renumber baseDir start steps rule = rule :=
  if_neg fun h => absurd h.2 (not_le.mpr hlt)

lemma gitignoreRuleOf_add {start : ℕ} (hstart : start ≤ order) (steps : ℕ) :
    gitignoreRuleOf baseDir (order + steps) line =
      (gitignoreRuleOf baseDir order line).map (renumber baseDir start steps) := by
  simp only [gitignoreRuleOf]
  split_ifs
  all_goals simp [renumber, hstart]

lemma parseIgnoreLines_add {start : ℕ} (hstart : start ≤ order) (steps : ℕ) (lines : List Bytes) :
    parseIgnoreLines baseDir (order + steps) lines =
      (parseIgnoreLines baseDir order lines).map (renumber baseDir start steps) := by
  induction lines generalizing order with
  | nil => rfl
  | cons line lines ih =>
    by_cases hcounts : Counts line
    · obtain ⟨unescaped, hparse⟩ := @parseIgnoreLines_of_counts baseDir line hcounts
      rw [hparse, hparse, Nat.add_right_comm, ih (hstart.trans (Nat.le_succ _)), List.map_append,
        gitignoreRuleOf_add hstart, Option.toList_map]
    · rw [parseIgnoreLines_of_not_counts hcounts, parseIgnoreLines_of_not_counts hcounts, ih hstart]

variable {path : FsPath} {isDirectory : Bool}

lemma ruleApplies_renumber (baseDir : FsPath) (start steps : ℕ) (rule : GitIgnoreRule) :
    ruleApplies (renumber baseDir start steps rule) path isDirectory = ruleApplies rule path isDirectory := by
  rw [renumber]
  split_ifs <;> rfl

lemma filter_map_renumber (start steps : ℕ) (rules : List GitIgnoreRule) :
    (rules.map (renumber baseDir start steps)).filter (fun rule => ruleApplies rule path isDirectory) =
      (rules.filter fun rule => ruleApplies rule path isDirectory).map (renumber baseDir start steps) := by
  rw [List.filter_map]
  congr 2
  funext rule
  exact ruleApplies_renumber baseDir start steps rule

lemma filter_parse_insert (hline : ¬ LineMatches baseDir 0 line path isDirectory) (front back : List Bytes) :
    (parseIgnoreLines baseDir 0 (front ++ line :: back)).filter (fun rule => ruleApplies rule path isDirectory) =
      ((parseIgnoreLines baseDir 0 (front ++ back)).filter fun rule => ruleApplies rule path isDirectory).map
        (renumber baseDir (countRules front) (countRules [line])) := by
  have hmoved : (parseIgnoreLines baseDir (countRules front) [line]).filter
      (fun rule => ruleApplies rule path isDirectory) = [] := by
    have hnone :
        (parseIgnoreLines baseDir 0 [line]).filter (fun rule => ruleApplies rule path isDirectory) = [] :=
      List.filter_eq_nil_iff.mpr fun rule hrule happlies => hline ⟨rule, hrule, happlies⟩
    have hadd := @parseIgnoreLines_add baseDir 0 0 (le_refl 0) (countRules front) [line]
    rw [Nat.zero_add] at hadd
    rw [hadd, filter_map_renumber, hnone, List.map_nil]
  have hfront :
      (parseIgnoreLines baseDir 0 front).map (renumber baseDir (countRules front) (countRules [line])) =
        parseIgnoreLines baseDir 0 front := by
    rw [List.map_congr_left fun rule hrule => ?_, List.map_id']
    have hlt := ((parseIgnoreLines_fields baseDir 0 front).1 rule hrule).2.2.2
    rw [Nat.zero_add] at hlt
    exact renumber_of_lt hlt
  rw [show front ++ line :: back = front ++ ([line] ++ back) from rfl, parseIgnoreLines_append,
    parseIgnoreLines_append, parseIgnoreLines_append, Nat.zero_add, List.filter_append, List.filter_append,
    hmoved, List.nil_append, parseIgnoreLines_add (le_refl _), filter_map_renumber, List.filter_append, List.map_append,
    ← filter_map_renumber _ _ (parseIgnoreLines baseDir 0 front), hfront]

end Numbers

section Sorted

def Placed (rule : GitIgnoreRule) : Prop :=
  rule.baseDir.Spelled ∧ rule.baseDepth = rule.baseDir.components.length

def GitIgnoreRule.site (rule : GitIgnoreRule) : ℕ ×ₗ Bytes := toLex (rule.baseDepth, rule.baseDir.genericString)

def GitIgnoreRule.key (rule : GitIgnoreRule) : (ℕ ×ₗ Bytes) ×ₗ ℕ := toLex (rule.site, rule.order)

def before (left right : GitIgnoreRule) : Prop := left.key ≤ right.key

instance : DecidableRel before := fun left right => inferInstanceAs (Decidable (left.key ≤ right.key))

instance : Std.Total before := StableSort.total_of_key fun _ _ => Iff.rfl

instance : IsTrans GitIgnoreRule before := StableSort.isTrans_of_key fun _ _ => Iff.rfl

variable {left right : GitIgnoreRule}

lemma site_eq_iff (hleft : Placed left) (hright : Placed right) :
    left.site = right.site ↔ left.baseDir = right.baseDir := by
  constructor
  · intro h
    have hpair := toLex.injective h
    exact eq_of_genericString hleft.1 hright.1 (Prod.ext_iff.mp hpair).2
  · intro h
    rw [GitIgnoreRule.site, GitIgnoreRule.site, hleft.2, hright.2, h]

lemma before_iff :
    before left right ↔ left.site < right.site ∨ left.site = right.site ∧ left.order ≤ right.order :=
  Prod.Lex.toLex_le_toLex

lemma ruleBefore_eq_false_iff (hleft : Placed left) (hright : Placed right) :
    ruleBefore right left = false ↔ before left right := by
  have hsite : left.site < right.site ↔ left.baseDepth < right.baseDepth ∨ left.baseDepth = right.baseDepth ∧
      left.baseDir.genericString < right.baseDir.genericString := Prod.Lex.toLex_lt_toLex
  rw [before_iff, site_eq_iff hleft hright, hsite, ruleBefore]
  by_cases hdepth : right.baseDepth = left.baseDepth
  · rw [if_neg (not_not_intro hdepth)]
    by_cases hbase : right.baseDir = left.baseDir
    · rw [if_neg (not_not_intro hbase)]
      simp [hdepth, hbase]
    · have hne : left.baseDir.genericString ≠ right.baseDir.genericString := fun h =>
        hbase (eq_of_genericString hleft.1 hright.1 h).symm
      rw [if_pos hbase, decide_eq_false_iff_not, not_lt, hne.le_iff_lt]
      simp [hdepth, Ne.symm hbase]
  · have hbase : left.baseDir ≠ right.baseDir := by
      intro h
      exact hdepth (by rw [hleft.2, hright.2, h])
    rw [if_pos hdepth, decide_eq_false_iff_not, not_lt, (Ne.symm hdepth).le_iff_lt]
    simp [Ne.symm hdepth, hbase]

lemma sortRules_eq {rules : List GitIgnoreRule} (h : ∀ rule ∈ rules, Placed rule) :
    sortRules rules = rules.insertionSort before := by
  have hmap := List.map_insertionSort (fun left right => ruleBefore right left = false) before id rules
    fun left hleft right hright => ruleBefore_eq_false_iff (h left hleft) (h right hright)
  rwa [List.map_id, List.map_id] at hmap

variable {path : FsPath} {isDirectory : Bool} {rules others : List GitIgnoreRule}

def deciding (rules : List GitIgnoreRule) (path : FsPath) (isDirectory : Bool) : Option GitIgnoreRule :=
  ((rules.filter fun rule => ruleApplies rule path isDirectory).insertionSort before).getLast?

def lastMatch (rules : List GitIgnoreRule) (path : FsPath) (isDirectory : Bool) : Option GitIgnoreRule :=
  (rules.filter fun rule => ruleApplies rule path isDirectory).getLast?

lemma ignores_sortRules (rootPath : FsPath) (h : ∀ rule ∈ rules, Placed rule) :
    ({ rootPath := rootPath, rules := sortRules rules } : WorkspaceGitIgnoreRules).ignores path isDirectory =
      (!rootPath.lexicallyNormal.empty &&
        ((deciding rules path isDirectory).map fun rule => !rule.negated).getD false) := by
  rw [ignores_eq, sortRules_eq h, StableSort.filter_insertionSort]
  rfl

lemma deciding_append (rules others : List GitIgnoreRule) :
    deciding (rules ++ others) path isDirectory =
      StableSort.latest before (deciding rules path isDirectory) (deciding others path isDirectory) := by
  rw [deciding, List.filter_append]
  exact StableSort.getLast?_insertionSort_append before _ _

lemma deciding_eq_lastMatch (h : rules.Pairwise before) :
    deciding rules path isDirectory = lastMatch rules path isDirectory := by
  rw [deciding, (h.filter _).insertionSort_eq]
  rfl

lemma mem_of_deciding {rule : GitIgnoreRule} (h : deciding rules path isDirectory = some rule) :
    rule ∈ rules ∧ ruleApplies rule path isDirectory ∧
      ∀ other ∈ rules, ruleApplies other path isDirectory → before other rule := by
  obtain ⟨hrule, hbefore⟩ := StableSort.mem_and_rel_of_getLast?_insertionSort before h
  obtain ⟨hmem, happlies⟩ := List.mem_filter.mp hrule
  exact ⟨hmem, happlies, fun other hother happlies => hbefore other (List.mem_filter.mpr ⟨hother, happlies⟩)⟩

lemma exists_deciding {rule : GitIgnoreRule} (hrule : rule ∈ rules)
    (happlies : ruleApplies rule path isDirectory) :
    ∃ other, deciding rules path isDirectory = some other := by
  rw [← Option.isSome_iff_exists, deciding, List.getLast?_isSome, ne_eq, ← List.length_eq_zero_iff,
    List.length_insertionSort, List.length_eq_zero_iff]
  exact List.ne_nil_of_mem (List.mem_filter.mpr ⟨hrule, happlies⟩)

lemma lastMatch_eq_some_iff {rule : GitIgnoreRule}
    (hrules : rules.Pairwise fun left right => left.order < right.order) :
    lastMatch rules path isDirectory = some rule ↔
      rule ∈ rules ∧ ruleApplies rule path isDirectory ∧
        ∀ other ∈ rules, ruleApplies other path isDirectory → other.order ≤ rule.order := by
  have hlast : ∀ rule, lastMatch rules path isDirectory = some rule →
      (rule ∈ rules ∧ ruleApplies rule path isDirectory) ∧
        ∀ other ∈ rules, ruleApplies other path isDirectory → other.order < rule.order ∨ other = rule := by
    intro rule h
    obtain ⟨init, hsplit⟩ := List.getLast?_eq_some_iff.mp h
    have hpairwise := hrules.filter fun rule => ruleApplies rule path isDirectory
    rw [hsplit, List.pairwise_append] at hpairwise
    refine ⟨List.mem_filter.mp (hsplit ▸ List.mem_append_right _ (List.mem_singleton_self rule)), ?_⟩
    intro other hother happlies
    have hmem : other ∈ init ++ [rule] := hsplit ▸ List.mem_filter.mpr ⟨hother, happlies⟩
    exact (List.mem_append.mp hmem).imp (fun h => hpairwise.2.2 other h rule (List.mem_singleton_self rule))
      List.mem_singleton.mp
  constructor
  · intro h
    obtain ⟨⟨hrule, happlies⟩, hothers⟩ := hlast rule h
    refine ⟨hrule, happlies, fun other hother hmatch => ?_⟩
    rcases hothers other hother hmatch with hlt | rfl
    · exact hlt.le
    · exact le_refl _
  · rintro ⟨hrule, happlies, hothers⟩
    have hsome : (lastMatch rules path isDirectory).isSome :=
      List.getLast?_isSome.mpr (List.ne_nil_of_mem (List.mem_filter.mpr ⟨hrule, happlies⟩))
    obtain ⟨last, h⟩ := Option.isSome_iff_exists.mp hsome
    obtain ⟨⟨hmem, hmatch⟩, hbelow⟩ := hlast last h
    rcases hbelow rule hrule happlies with hlt | rfl
    · exact absurd (hothers last hmem hmatch) (not_le.mpr hlt)
    · exact h

lemma baseDepth_le_of_before (h : before left right) : left.baseDepth ≤ right.baseDepth := by
  rcases before_iff.mp h with hlt | ⟨heq, -⟩
  · rcases Prod.Lex.toLex_lt_toLex.mp hlt with hdepth | ⟨hdepth, -⟩
    · exact hdepth.le
    · exact hdepth.le
  · exact (Prod.ext_iff.mp (toLex.injective heq)).1.le

lemma order_le_of_before (hleft : Placed left) (hright : Placed right) (hbase : left.baseDir = right.baseDir)
    (h : before left right) : left.order ≤ right.order := by
  rcases before_iff.mp h with hlt | ⟨-, horder⟩
  · rw [(site_eq_iff hleft hright).mpr hbase] at hlt
    exact absurd hlt (lt_irrefl _)
  · exact horder

section Renumber

variable {baseDir : FsPath} {start steps : ℕ}

lemma negated_renumber (rule : GitIgnoreRule) : (renumber baseDir start steps rule).negated = rule.negated := by
  rw [renumber]
  split_ifs <;> rfl

lemma site_renumber (rule : GitIgnoreRule) : (renumber baseDir start steps rule).site = rule.site := by
  rw [renumber]
  split_ifs <;> rfl

lemma order_renumber (rule : GitIgnoreRule) : (renumber baseDir start steps rule).order =
    if rule.baseDir = baseDir ∧ start ≤ rule.order then rule.order + steps else rule.order := by
  rw [renumber]
  split_ifs <;> rfl

lemma renumber_before_iff (hleft : Placed left) (hright : Placed right) :
    before (renumber baseDir start steps left) (renumber baseDir start steps right) ↔ before left right := by
  rw [before_iff, before_iff, site_renumber, site_renumber, order_renumber, order_renumber]
  refine or_congr_right (and_congr_right fun hsite => ?_)
  rw [(site_eq_iff hleft hright).mp hsite]
  by_cases hbase : right.baseDir = baseDir
  · simp only [hbase, true_and]
    split_ifs <;> omega
  · simp only [hbase, false_and, if_false]

lemma before_change_iff {left' right' : GitIgnoreRule} (hleft : Placed left) (hright : Placed right)
    (hsiteLeft : left'.site = left.site) (hsiteRight : right'.site = right.site) :
    ¬ (before left' right' ↔ before left right) ↔
      left.baseDir = right.baseDir ∧ ¬ (left'.order ≤ right'.order ↔ left.order ≤ right.order) := by
  rw [before_iff, before_iff, hsiteLeft, hsiteRight, site_eq_iff hleft hright]
  by_cases hsame : left.baseDir = right.baseDir
  · have hsite : ¬ left.site < right.site := by
      rw [(site_eq_iff hleft hright).mpr hsame]
      exact lt_irrefl _
    simp only [hsite, hsame, true_and, false_or]
  · simp [hsame]

lemma before_renumber_left_iff (hleft : Placed left) (hright : Placed right) (hbase : left.baseDir = baseDir) :
    ¬ (before (renumber baseDir start steps left) right ↔ before left right) ↔
      left.baseDir = right.baseDir ∧ start ≤ left.order ∧ left.order ≤ right.order ∧
        right.order < left.order + steps := by
  rw [before_change_iff hleft hright (site_renumber left) rfl, order_renumber]
  refine and_congr_right fun _ => ?_
  simp only [hbase, true_and]
  split_ifs <;> omega

lemma before_renumber_right_iff (hleft : Placed left) (hright : Placed right)
    (hbase : left.baseDir = right.baseDir → right.baseDir = baseDir) :
    ¬ (before left (renumber baseDir start steps right) ↔ before left right) ↔
      left.baseDir = right.baseDir ∧ start ≤ right.order ∧ right.order < left.order ∧
        left.order ≤ right.order + steps := by
  rw [before_change_iff hleft hright rfl (site_renumber right), order_renumber]
  refine and_congr_right fun hsame => ?_
  simp only [hbase hsame, true_and]
  split_ifs <;> omega

lemma deciding_of_filter (hplaced : ∀ rule ∈ rules, Placed rule)
    (h : (others.filter fun rule => ruleApplies rule path isDirectory) =
      (rules.filter fun rule => ruleApplies rule path isDirectory).map (renumber baseDir start steps)) :
    deciding others path isDirectory = (deciding rules path isDirectory).map (renumber baseDir start steps) := by
  rw [deciding, deciding, h, ← List.map_insertionSort before before, List.getLast?_map]
  intro left hleft right hright
  exact (renumber_before_iff (hplaced left (List.mem_of_mem_filter hleft))
    (hplaced right (List.mem_of_mem_filter hright))).symm

end Renumber

def verdict (decides : Option GitIgnoreRule) : Bool := (decides.map fun rule => !rule.negated).getD false

lemma verdict_latest_map_eq_iff {f g : GitIgnoreRule → GitIgnoreRule}
    (hf : ∀ rule, (f rule).negated = rule.negated) (hg : ∀ rule, (g rule).negated = rule.negated)
    (first second : Option GitIgnoreRule) :
    verdict (StableSort.latest before (first.map f) (second.map g)) =
        verdict (StableSort.latest before first second) ↔
      ¬ ∃ left right, first = some left ∧ second = some right ∧ left.negated ≠ right.negated ∧
        ¬ (before (f left) (g right) ↔ before left right) := by
  cases first with
  | none => cases second <;> simp [StableSort.latest, verdict, hg]
  | some left =>
    cases second with
    | none => simp [StableSort.latest, verdict, hf]
    | some right =>
      simp only [Option.map_some, Option.some.injEq, StableSort.latest]
      by_cases hbefore : before left right <;> by_cases hmoved : before (f left) (g right) <;>
        simp [hbefore, hmoved, verdict, hf, hg, eq_comm]

end Sorted

end DltxtBridge.Crossref
