import DltxtBridge.Crossref.RuleLines

namespace DltxtBridge.Crossref

lemma normalizeGitignorePattern_eq_self {pattern : Bytes} (h : 92 ∉ pattern) :
    normalizeGitignorePattern pattern = pattern := by
  have hmap : ∀ ch ∈ pattern, (if ch = 92 then 47 else ch) = ch := by
    intro ch hch
    rw [if_neg]
    rintro rfl
    exact h hch
  exact (List.map_congr_left hmap).trans (List.map_id' pattern)

section LeadingSlash

variable {baseDir : FsPath} {order : ℕ} {s : Bytes} {slash isDirectory : Bool}

def anchoredLine (s : Bytes) (slash : Bool) : Bytes := 47 :: s ++ if slash then [47] else []

def anchoredPattern (s : Bytes) (slash : Bool) : Bytes := if slash then s else trimGitignoreLine s

lemma parse_anchoredLine (hslash : 47 ∉ s) (hbackslash : 92 ∉ s) :
    parseIgnoreLines baseDir order [anchoredLine s slash] =
      if anchoredPattern s slash = [] then []
      else [plainRule baseDir order (anchoredPattern s slash) slash] := by
  have hline : trimGitignoreLine (anchoredLine s slash) =
      47 :: anchoredPattern s slash ++ if slash then [47] else [] := by
    cases slash with
    | true => exact trimGitignoreLine_concat (by decide) (by decide) (47 :: s)
    | false =>
      have htrim := trimGitignoreLine_append [47] s
      rw [show trimGitignoreLine [47] = [47] by decide] at htrim
      simp only [anchoredLine, anchoredPattern, Bool.false_eq_true, if_false, List.append_nil]
      rw [← List.singleton_append, htrim]
      split_ifs with hnil <;> simp [hnil]
  have hpattern : anchoredPattern s slash <+: s := by
    rw [anchoredPattern]
    split_ifs
    · exact List.prefix_rfl
    · exact trimGitignoreLine_prefix s
  have hslash' : 47 ∉ anchoredPattern s slash := fun h => hslash (hpattern.subset h)
  have hbackslash' : 92 ∉ anchoredPattern s slash := fun h => hbackslash (hpattern.subset h)
  generalize anchoredPattern s slash = pattern at *
  have hnormal : 92 ∉ 47 :: pattern ++ if slash then [47] else [] := by
    cases slash <;> simp [hbackslash']
  have hhead : (47 :: pattern ++ if slash then [47] else []).head? = some 47 := rfl
  rw [parseIgnoreLines_singleton (by rw [hline]; simp)
    (unescapeGitignoreLine_of_head (by rw [hline, hhead]; decide) (by rw [hline, hhead]; decide)), hline,
    gitignoreRuleOf_eq (by rw [hhead]; decide), withoutLeadingSlash, barePattern, forDirectories,
    normalizeGitignorePattern_eq_self hnormal]
  cases slash with
  | true =>
    simp only [if_true, List.getLast?_concat, List.dropLast_concat, List.head?_cons, List.tail_cons,
      decide_true]
    split_ifs <;> rfl
  | false =>
    simp only [Bool.false_eq_true, if_false, List.append_nil]
    rcases List.eq_nil_or_concat' pattern with rfl | ⟨init, last, rfl⟩
    · rfl
    · have hlast : last ≠ 47 := by
        rintro rfl
        simp at hslash'
      have hend : (47 :: (init ++ [last])).getLast? = some last := by simp [List.getLast?_cons]
      simp [hend, hlast]

lemma forall_mem_toList_if {α : Type} {c : Prop} [Decidable c] {a : α} {P : α → Prop} :
    (∀ x ∈ (if c then [] else [a]), P x) ↔ (¬ c → P a) := by
  split_ifs with h <;> simp [h]

def Anchors (baseDir : FsPath) (order : ℕ) (s : Bytes) (slash : Bool) (name : FileName) (names : List FileName)
    (isDirectory : Bool) : Prop :=
  ∀ rule ∈ parseIgnoreLines baseDir order [anchoredLine s slash],
    ruleApplies rule (descend baseDir (name :: names)) isDirectory → wildcardMatch s name.bytes

/-- The slash is lost: the rule looks at every component. -/
theorem anchors_iff (baseDir : FsPath) (order : ℕ) (s : Bytes) (slash : Bool) (hslash : 47 ∉ s)
    (hbackslash : 92 ∉ s) (name : FileName) (names : List FileName) (isDirectory : Bool) :
    Anchors baseDir order s slash name names isDirectory ↔
      wildcardMatch s name.bytes ∨ ¬ Reaches baseDir ∨
        ∀ other ∈ tried ((name :: names).map FileName.bytes) (isDirectory || !slash),
          ¬ wildcardMatch (anchoredPattern s slash) other := by
  have hne : name :: names ≠ [] := List.cons_ne_nil _ _
  rw [Anchors, parse_anchoredLine hslash hbackslash, forall_mem_toList_if]
  by_cases hnil : anchoredPattern s slash = []
  · refine iff_of_true (fun h => absurd hnil h) (Or.inr (Or.inr ?_))
    intro other hother hmatch
    rw [hnil, wildcardMatch, List.isEmpty_iff] at hmatch
    have hall : ∀ other ∈ (name :: names).map FileName.bytes, other ≠ [] :=
      forall_mem_bytes FileName.ne_nil _
    rw [tried] at hother
    split_ifs at hother
    · exact hall other hother hmatch
    · exact hall other (List.dropLast_subset _ hother) hmatch
  · have hpattern : anchoredPattern s slash <+: s := by
      rw [anchoredPattern]
      split_ifs
      · exact List.prefix_rfl
      · exact trimGitignoreLine_prefix s
    rw [ruleApplies_name hne fun h => hslash (hpattern.subset h)]
    constructor
    · intro h
      by_contra hnot
      simp only [not_or, not_not, not_forall] at hnot
      obtain ⟨hfirst, hreaches, other, hother, hmatch⟩ := hnot
      exact hfirst (h hnil ⟨hreaches, other, hother, hmatch⟩)
    · rintro (hfirst | hreaches | hnone) - ⟨hbase, other, hother, hmatch⟩
      · exact hfirst
      · exact absurd hbase hreaches
      · exact absurd hmatch (hnone other hother)

theorem anchors_first_component :
    Anchors (FsPath.ofBytes (ascii "/w")) 0 (ascii "a*") false textName [] false :=
  (anchors_iff _ _ _ _ (by decide) (by decide) _ _ _).mpr (Or.inl (by decide))

theorem anchored_rule_matches_deeper :
    ¬ ∀ (baseDir : FsPath) (order : ℕ) (s : Bytes) (slash : Bool), s ≠ [] → 47 ∉ s → 92 ∉ s →
      ∀ (name : FileName) (names : List FileName) (isDirectory : Bool),
        Anchors baseDir order s slash name names isDirectory := by
  intro h
  have hdeeper := h (FsPath.ofBytes (ascii "/w")) 0 (ascii "a.txt") false (by decide) (by decide) (by decide)
    folderName [textName] false
  rw [Anchors, parse_anchoredLine (by decide) (by decide)] at hdeeper
  revert hdeeper
  decide

end LeadingSlash

section LeadingDoubleStar

variable {baseDir : FsPath} {order otherOrder : ℕ} {q : Bytes} {names : List FileName} {isDirectory : Bool}

def anywhereLine (q : Bytes) : Bytes := 42 :: 42 :: 47 :: q

lemma head?_anywhereLine (q : Bytes) : (anywhereLine q).head? = some 42 := rfl

lemma exists_barePattern_cons {ch : UInt8} (hslash : ch ≠ 47) (hbackslash : ch ≠ 92) (rest : Bytes) :
    ∃ pattern, barePattern (ch :: rest) = ch :: pattern := by
  have hnormal : normalizeGitignorePattern (ch :: rest) = ch :: normalizeGitignorePattern rest := by
    rw [normalizeGitignorePattern, List.map_cons, if_neg hbackslash]
    rfl
  rw [barePattern, hnormal]
  split_ifs with hlast
  · cases hrest : normalizeGitignorePattern rest with
    | nil =>
      rw [hrest, List.getLast?_singleton, Option.some.injEq] at hlast
      exact absurd hlast hslash
    | cons next pattern => exact ⟨_, List.dropLast_cons_cons⟩
  · exact ⟨_, rfl⟩

lemma barePattern_anywhere {line : Bytes} (hne : line ≠ []) :
    barePattern (anywhereLine line) = anywhereLine (barePattern line) ∧
      forDirectories (anywhereLine line) = forDirectories line := by
  have hnormal : normalizeGitignorePattern (anywhereLine line) =
      [42, 42, 47] ++ normalizeGitignorePattern line := by
    simp [anywhereLine, normalizeGitignorePattern]
  have hpattern : normalizeGitignorePattern line ≠ [] := by simpa [normalizeGitignorePattern] using hne
  have hlast : (normalizeGitignorePattern (anywhereLine line)).getLast? =
      (normalizeGitignorePattern line).getLast? := by
    rw [hnormal, List.getLast?_append_of_ne_nil _ hpattern]
  refine ⟨?_, by rw [forDirectories, forDirectories, hlast]⟩
  rw [barePattern, barePattern, hlast]
  split_ifs
  · rw [hnormal, List.dropLast_append_of_ne_nil hpattern]
    rfl
  · exact hnormal

lemma parse_lines (hslash : q.head? ≠ some 47) (hbang : q.head? ≠ some 33) (hhash : q.head? ≠ some 35)
    (hbackslash : q.head? ≠ some 92) (hne : trimGitignoreLine q ≠ []) :
    parseIgnoreLines baseDir order [q] =
        [plainRule baseDir order (barePattern (trimGitignoreLine q)) (forDirectories (trimGitignoreLine q))] ∧
      parseIgnoreLines baseDir order [anywhereLine q] =
        [plainRule baseDir order (anywhereLine (barePattern (trimGitignoreLine q)))
          (forDirectories (trimGitignoreLine q))] := by
  have htrim : trimGitignoreLine (anywhereLine q) = anywhereLine (trimGitignoreLine q) := by
    have happend := trimGitignoreLine_append [42, 42, 47] q
    rwa [if_neg hne] at happend
  obtain ⟨hanywhere, hdirectories⟩ := barePattern_anywhere hne
  have hhead : (trimGitignoreLine q).head? = q.head? := by
    obtain ⟨rest, hrest⟩ := trimGitignoreLine_prefix q
    obtain ⟨ch, front, hfront⟩ := List.exists_cons_of_ne_nil hne
    conv_rhs => rw [← hrest]
    rw [hfront]
    rfl
  constructor
  · rw [← hhead] at hslash hbang hhash hbackslash
    obtain ⟨ch, rest, hline⟩ := List.exists_cons_of_ne_nil hne
    obtain ⟨pattern, hpattern⟩ := @exists_barePattern_cons ch (by simpa [hline] using hslash)
      (by simpa [hline] using hbackslash) rest
    rw [← hline] at hpattern
    have hfirst : (barePattern (trimGitignoreLine q)).head? ≠ some 47 := by
      rw [hpattern]
      simpa [hline] using hslash
    exact parse_plainLine hhash hbackslash hbang (withoutLeadingSlash_of_head hfirst) (by simp [hpattern])
  · have hhead' := head?_anywhereLine (trimGitignoreLine q)
    have hpattern : withoutLeadingSlash (barePattern (trimGitignoreLine (anywhereLine q))) =
        anywhereLine (barePattern (trimGitignoreLine q)) := by
      rw [htrim, hanywhere, withoutLeadingSlash_of_head]
      rw [head?_anywhereLine]
      decide
    rw [← hdirectories, ← htrim]
    apply parse_plainLine _ _ _ hpattern (List.cons_ne_nil _ _)
    all_goals
      rw [htrim, hhead']
      decide

def MatchesDeeper (line : Bytes) (names : List FileName) (isDirectory : Bool) : Prop :=
  ∃ above part back, above ≠ [] ∧ part ≠ [] ∧ above ++ part ++ back = names.map FileName.bytes ∧
    (back ≠ [] ∨ isDirectory ∨ forDirectories (trimGitignoreLine line) = false) ∧
    wildcardMatch (barePattern (trimGitignoreLine line)) (join part)

lemma lineMatches_anywhere_iff (hslash : q.head? ≠ some 47) (hbang : q.head? ≠ some 33)
    (hhash : q.head? ≠ some 35) (hbackslash : q.head? ≠ some 92) (hne : trimGitignoreLine q ≠ [])
    (hnames : names ≠ []) :
    LineMatches baseDir order (anywhereLine q) (descend baseDir names) isDirectory ↔
      Reaches baseDir ∧ MatchesDeeper q names isDirectory := by
  rw [LineMatches, (parse_lines hslash hbang hhash hbackslash hne).2]
  simp only [List.mem_singleton, exists_eq_left]
  rw [ruleApplies_path hnames (by simp [anywhereLine])]
  refine and_congr_right fun _ => ?_
  simp only [MatchesDeeper, anywhereLine, wildcardMatch_anywhere]
  constructor
  · rintro ⟨front, back, hfront, hsplit, hlast, above, rest, hjoin, hmatch⟩
    have hnamed : ∀ name ∈ front, 47 ∉ name := fun name hname =>
      (forall_mem_bytes FileName.named names name (hsplit ▸ List.mem_append_left _ hname)).2
    obtain ⟨aboveNames, part, habove, hpart, rfl, -, rfl⟩ :=
      Segments.exists_append_of_intercalate_eq hfront hnamed hjoin
    exact ⟨aboveNames, part, back, habove, hpart, hsplit, hlast, hmatch⟩
  · rintro ⟨above, part, back, habove, hpart, hsplit, hlast, hmatch⟩
    refine ⟨above ++ part, back, by simp [habove], hsplit, hlast, join above, join part, ?_, hmatch⟩
    rw [join, Segments.intercalate_append habove hpart, List.append_assoc]
    rfl

def StaysMatched (baseDir : FsPath) (order : ℕ) (q : Bytes) (names : List FileName) (isDirectory : Bool) : Prop :=
  LineMatches baseDir order q (descend baseDir names) isDirectory →
    LineMatches baseDir order (anywhereLine q) (descend baseDir names) isDirectory

/-- The double star does not match at the level of the base directory itself. -/
theorem staysMatched_iff (baseDir : FsPath) (order : ℕ) (q : Bytes) (hslash : q.head? ≠ some 47)
    (hbang : q.head? ≠ some 33) (hhash : q.head? ≠ some 35) (hbackslash : q.head? ≠ some 92)
    (names : List FileName) (hnames : names ≠ []) (isDirectory : Bool) :
    StaysMatched baseDir order q names isDirectory ↔
      (¬ LineMatches baseDir order q (descend baseDir names) isDirectory ∨ MatchesDeeper q names isDirectory) := by
  rw [StaysMatched, imp_iff_not_or]
  refine or_congr_right' fun hmatches => ?_
  rw [not_not] at hmatches
  obtain ⟨rule, hrule, happlies⟩ := hmatches
  have hne : trimGitignoreLine q ≠ [] := by
    intro hblank
    rw [parseIgnoreLines_of_blank hblank] at hrule
    cases hrule
  rw [(parse_lines hslash hbang hhash hbackslash hne).1, List.mem_singleton] at hrule
  subst hrule
  have hreaches := ((ruleApplies_descend hnames).mp happlies).1
  rw [lineMatches_anywhere_iff hslash hbang hhash hbackslash hne hnames]
  exact and_iff_right hreaches

theorem staysMatched_below_folder :
    StaysMatched (FsPath.ofBytes (ascii "/w")) 0 (ascii "a.txt") [folderName, textName] false :=
  (staysMatched_iff _ _ _ (by decide) (by decide) (by decide) (by decide) _ (by decide) _).mpr
    (Or.inr ⟨[ascii "d"], [ascii "a.txt"], [], by decide, by decide, rfl, by decide, by decide⟩)

theorem double_star_misses_base :
    ¬ ∀ (baseDir : FsPath) (order : ℕ) (q : Bytes), q ≠ [] → q.head? ≠ some 47 → q.head? ≠ some 33 →
      q.head? ≠ some 35 → q.head? ≠ some 92 → ∀ names : List FileName, names ≠ [] → ∀ isDirectory : Bool,
        StaysMatched baseDir order q names isDirectory := by
  intro h
  have hbase := h (FsPath.ofBytes (ascii "/w")) 0 (ascii "a.txt") (by decide) (by decide) (by decide) (by decide)
    (by decide) [textName] (by decide) false
  have hlines := @parse_lines (FsPath.ofBytes (ascii "/w")) 0 (ascii "a.txt") (by decide) (by decide) (by decide)
    (by decide) (by decide)
  rw [StaysMatched, LineMatches, LineMatches, hlines.1, hlines.2] at hbase
  revert hbase
  decide

end LeadingDoubleStar

end DltxtBridge.Crossref
