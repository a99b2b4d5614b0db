import DltxtBridge.Crossref.Anchoring

namespace DltxtBridge.Crossref

section Escape

def Wild (ch : UInt8) : Prop := ch = 42 ∨ ch = 63

instance (ch : UInt8) : Decidable (Wild ch) := inferInstanceAs (Decidable (_ ∨ _))

def escapeWild (name : Bytes) : Bytes := name.flatMap fun ch => if Wild ch then [92, ch] else [ch]

/-- A backslash before a leading "!" or "#" and before every "*" and "?". -/
def escapeName : Bytes → Bytes
  | [] => []
  | ch :: rest => if ch = 33 ∨ ch = 35 then 92 :: ch :: escapeWild rest else escapeWild (ch :: rest)

def slashWild (name : Bytes) : Bytes := name.flatMap fun ch => if Wild ch then [47, ch] else [ch]

lemma normalize_escapeWild {name : Bytes} (hbackslash : 92 ∉ name) :
    normalizeGitignorePattern (escapeWild name) = slashWild name := by
  rw [normalizeGitignorePattern, escapeWild, slashWild, List.map_flatMap]
  refine List.flatMap_congr fun ch hch => ?_
  have hne : ch ≠ 92 := by
    rintro rfl
    exact hbackslash hch
  split_ifs <;> simp [hne]

lemma slashWild_of_forall {name : Bytes} (h : ∀ ch ∈ name, ¬ Wild ch) : slashWild name = name := by
  rw [slashWild, List.flatMap_congr fun ch hch => if_neg (h ch hch), List.flatMap_singleton']

lemma slash_mem_slashWild {name : Bytes} (h : ∃ ch ∈ name, Wild ch) : 47 ∈ slashWild name := by
  obtain ⟨ch, hch, hwild⟩ := h
  exact List.mem_flatMap.mpr ⟨ch, hch, by simp [hwild]⟩

lemma getLast?_slashWild (name : Bytes) : (slashWild name).getLast? = name.getLast? := by
  rcases List.eq_nil_or_concat' name with rfl | ⟨init, last, rfl⟩
  · rfl
  · rw [slashWild, List.flatMap_append, List.getLast?_concat, List.flatMap_singleton]
    split_ifs <;> simp

lemma escapeWild_ne_nil {name : Bytes} (hne : name ≠ []) : escapeWild name ≠ [] := by
  obtain ⟨ch, rest, rfl⟩ := List.exists_cons_of_ne_nil hne
  rw [escapeWild, List.flatMap_cons]
  split_ifs <;> simp

lemma notMem_escapeName {name : Bytes} {ch : UInt8} (h : ch ∉ name) (hbackslash : ch ≠ 92) :
    ch ∉ escapeName name := by
  have hrest : ∀ rest : Bytes, ch ∉ rest → ch ∉ escapeWild rest := by
    intro rest hrest hmem
    obtain ⟨other, hother, hmem⟩ := List.mem_flatMap.mp hmem
    split_ifs at hmem <;> simp_all
  cases name with
  | nil => exact h
  | cons first rest =>
    rw [escapeName]
    split_ifs
    · rw [List.mem_cons, not_or] at h
      simp [hbackslash, h.1, hrest rest h.2]
    · exact hrest _ h

variable {baseDir : FsPath} {name : Bytes}

lemma parse_escapeName (hcr : 13 ∉ name) (hlf : 10 ∉ name) {unescaped : Bytes} (hne : escapeName name ≠ [])
    (hunescape : unescapeGitignoreLine (escapeName name) = some unescaped) :
    parseIgnoreRulesContent baseDir (escapeName name) = (gitignoreRuleOf baseDir 0 unescaped).toList := by
  have hlf' := notMem_escapeName hlf (by decide)
  have htrim := trimGitignoreLine_eq_self (notMem_escapeName hcr (by decide)) hlf'
  rw [parseIgnoreRulesContent, List.splitOn_eq_singleton hlf']
  exact parseIgnoreLines_singleton (by rwa [htrim]) (by rwa [htrim])

lemma negated_of_bang (hcr : 13 ∉ name) (hlf : 10 ∉ name) (hbang : name.head? = some 33) :
    ∀ rule ∈ parseIgnoreRulesContent baseDir (escapeName name), rule.negated = true := by
  obtain ⟨rest, rfl⟩ := List.head?_eq_some_iff.mp hbang
  have hline : escapeName (33 :: rest) = 92 :: 33 :: escapeWild rest := rfl
  rw [parse_escapeName hcr hlf (by simp [hline]) (by rw [hline]; rfl)]
  intro rule hrule
  exact negated_gitignoreRuleOf (Option.mem_toList.mp hrule)

def escapedPattern (name : Bytes) : Bytes := withoutLeadingSlash (slashWild name)

lemma escapedPattern_cons {ch : UInt8} (hslash : ch ≠ 47) (rest : Bytes) :
    escapedPattern (ch :: rest) = ch :: slashWild rest := by
  have hwhole : slashWild (ch :: rest) = (if Wild ch then [47, ch] else [ch]) ++ slashWild rest := rfl
  rw [escapedPattern, hwhole, withoutLeadingSlash]
  split_ifs with hwild hhead hhead
  · rfl
  · exact absurd rfl hhead
  · exact absurd (Option.some.inj hhead) hslash
  · rfl

lemma unescape_escapeName (hne : name ≠ []) (hbackslash : 92 ∉ name) (hbang : name.head? ≠ some 33) :
    unescapeGitignoreLine (escapeName name) = some (escapeWild name) := by
  obtain ⟨ch, rest, rfl⟩ := List.exists_cons_of_ne_nil hne
  rw [List.head?_cons, ne_eq, Option.some.injEq] at hbang
  by_cases hhash : ch = 35
  · subst hhash
    rfl
  · have hline : escapeName (ch :: rest) = (if Wild ch then [92, ch] else [ch]) ++ escapeWild rest := by
      rw [escapeName, if_neg (by simp [hbang, hhash])]
      rfl
    have hwhole : escapeWild (ch :: rest) = (if Wild ch then [92, ch] else [ch]) ++ escapeWild rest := rfl
    rw [hline, hwhole]
    split_ifs with hwild
    · rcases hwild with rfl | rfl <;> rfl
    · apply unescapeGitignoreLine_of_head
      · simpa using hhash
      · simpa using fun h : ch = 92 => hbackslash (by simp [h])

lemma rule_of_escapeName (hne : name ≠ []) (hslash : 47 ∉ name) (hbackslash : 92 ∉ name) (hcr : 13 ∉ name)
    (hlf : 10 ∉ name) (hbang : name.head? ≠ some 33) :
    parseIgnoreRulesContent baseDir (escapeName name) = [plainRule baseDir 0 (escapedPattern name) false] := by
  have hunescape := unescape_escapeName hne hbackslash hbang
  have hline : escapeName name ≠ [] := by
    intro hnil
    rw [hnil] at hunescape
    exact escapeWild_ne_nil hne (Option.some.inj hunescape).symm
  have hnormal := normalize_escapeWild hbackslash
  have hlast : (slashWild name).getLast? ≠ some 47 := by
    rw [getLast?_slashWild]
    exact fun h => hslash (List.mem_of_getLast? h)
  have hbare : barePattern (escapeWild name) = slashWild name := by
    rw [barePattern, hnormal, if_neg hlast]
  have hdirectories : forDirectories (escapeWild name) = false := by
    rw [forDirectories, hnormal]
    exact decide_eq_false hlast
  have hpattern : withoutLeadingSlash (slashWild name) ≠ [] := by
    obtain ⟨ch, rest, rfl⟩ := List.exists_cons_of_ne_nil hne
    have hfirst : ch ≠ 47 := fun h => hslash (h ▸ List.mem_cons_self)
    have hcons := escapedPattern_cons hfirst rest
    rw [escapedPattern] at hcons
    rw [hcons]
    exact List.cons_ne_nil _ _
  have hnegated : (escapeWild name).head? ≠ some 33 := by
    obtain ⟨ch, rest, rfl⟩ := List.exists_cons_of_ne_nil hne
    rw [escapeWild, List.flatMap_cons]
    split_ifs
    · simp
    · simpa using hbang
  rw [parse_escapeName hcr hlf hline hunescape, gitignoreRuleOf_eq hnegated, hbare, if_neg hpattern,
    hdirectories]
  rfl

end Escape

section Names

variable {baseDir : FsPath} {n : FileName}

def NamesExactly (baseDir : FsPath) (n : FileName) : Prop :=
  ∃ rule, parseIgnoreRulesContent baseDir (escapeName n.bytes) = [rule] ∧ rule.negated = false ∧
    ∀ m : FileName,
      ({ rootPath := baseDir, rules := [rule] } : WorkspaceGitIgnoreRules).ignores (child baseDir m) false ↔
        m.bytes = n.bytes

lemma ignores_plainRule {order : ℕ} {pattern : Bytes} {names : List FileName} {isDirectory : Bool}
    (hne : names ≠ []) :
    ({ rootPath := baseDir, rules := [plainRule baseDir order pattern false] } : WorkspaceGitIgnoreRules).ignores
        (descend baseDir names) isDirectory =
      ruleApplies (plainRule baseDir order pattern false) (descend baseDir names) isDirectory := by
  rw [ignores_eq]
  cases happlies : ruleApplies (plainRule baseDir order pattern false) (descend baseDir names) isDirectory with
  | false => simp [happlies]
  | true =>
    have hempty : baseDir.lexicallyNormal.empty = false := ((ruleApplies_descend hne).mp happlies).1.1
    have hfilter : [plainRule baseDir order pattern false].filter
        (fun rule => ruleApplies rule (descend baseDir names) isDirectory) =
          [plainRule baseDir order pattern false] := by
      refine List.filter_eq_self.mpr fun rule hrule => ?_
      rw [List.mem_singleton.mp hrule]
      exact happlies
    rw [hempty, hfilter]
    rfl

lemma tried_singleton (name : FileName) : tried ([name].map FileName.bytes) (false || !false) = [name.bytes] :=
  rfl

lemma ordinary_of_forall {name : Bytes} (hbackslash : 92 ∉ name) (hwild : ∀ ch ∈ name, ¬ Wild ch) :
    ∀ ch ∈ name, Ordinary ch := by
  intro ch hch
  refine ⟨?_, (not_or.mp (hwild ch hch)).1, (not_or.mp (hwild ch hch)).2⟩
  rintro rfl
  exact hbackslash hch

def decoy (rest : Bytes) (h : 47 ∉ rest) : FileName where
  bytes := 120 :: rest
  ne_nil := List.cons_ne_nil _ _
  no_separator := by simpa using h
  ne_dot := by simp [FsPath.dot]
  ne_dotDot := by simp [FsPath.dotDot]

lemma wildcardMatch_decoy {ch : UInt8} (hch : Wild ch) {rest : Bytes} (hplain : ∀ ch ∈ rest, Ordinary ch) :
    wildcardMatch (ch :: rest) (120 :: rest) := by
  have hrest : wildcardMatch rest rest := (wildcardMatch_plain hplain rest).mpr rfl
  rcases hch with rfl | rfl
  · have hsingle : rest.head? ≠ some 42 := fun h => (hplain 42 (List.mem_of_head? h)).2.1 rfl
    rw [wildcardMatch_star _ hsingle, starRests_cons, List.any_cons, Bool.or_eq_true]
    right
    rw [if_neg (by decide), List.any_eq_true]
    refine ⟨rest, ?_, hrest⟩
    exact mem_starSuffixes.mpr ⟨[], List.not_mem_nil, rfl⟩
  · rw [wildcardMatch_one, headMatch, hrest]
    decide

lemma ruleApplies_child {order : ℕ} {pattern : Bytes} (hpattern : 47 ∉ pattern) (m : FileName) :
    ruleApplies (plainRule baseDir order pattern false) (descend baseDir [m]) false ↔
      Reaches baseDir ∧ wildcardMatch pattern m.bytes := by
  rw [ruleApplies_name (List.cons_ne_nil m []) hpattern, tried_singleton]
  simp only [List.mem_singleton, exists_eq_left]

lemma backslash_notMem_escapedPattern {name : Bytes} (hne : name ≠ []) (hslash : 47 ∉ name)
    (hbackslash : 92 ∉ name) : 92 ∉ escapedPattern name := by
  obtain ⟨ch, rest, rfl⟩ := List.exists_cons_of_ne_nil hne
  rw [escapedPattern_cons fun h => hslash (h ▸ List.mem_cons_self)]
  rw [List.mem_cons, not_or] at hbackslash ⊢
  refine ⟨hbackslash.1, fun hmem => ?_⟩
  obtain ⟨other, hother, hmem⟩ := List.mem_flatMap.mp hmem
  split_ifs at hmem <;> simp_all

lemma not_ruleApplies_child {order : ℕ} {pattern : Bytes} (hbackslash : 92 ∉ pattern) (hslash : 47 ∈ pattern)
    (m : FileName) : ¬ ruleApplies (plainRule baseDir order pattern false) (descend baseDir [m]) false := by
  rw [ruleApplies_path (List.cons_ne_nil m []) hslash]
  rintro ⟨-, front, back, hfront, hsplit, -, hmatch⟩
  have hwhole : front = [m.bytes] :=
    ((List.append_eq_singleton_iff.mp hsplit).resolve_left fun h => hfront h.1).1
  rw [hwhole, join, List.intercalate_singleton] at hmatch
  exact m.no_separator (slash_mem_of_wildcardMatch hbackslash hslash hmatch)

lemma not_forall_of_wild {order : ℕ} {n : FileName} (hbackslash : 92 ∉ n.bytes)
    (hwild : ∃ ch ∈ n.bytes, Wild ch) :
    ¬ ∀ m : FileName,
      ruleApplies (plainRule baseDir order (escapedPattern n.bytes) false) (descend baseDir [m]) false ↔
        m.bytes = n.bytes := by
  intro h
  have hself := (h n).mpr rfl
  by_cases hslash : 47 ∈ escapedPattern n.bytes
  -- the wildcard stands behind the first byte, where its backslash has become a separator
  · have hpattern := backslash_notMem_escapedPattern n.ne_nil n.no_separator hbackslash
    exact not_ruleApplies_child hpattern hslash n hself
  -- the first byte is the only wildcard, and the separator in front of it is erased
  · have hreaches := ((ruleApplies_child hslash n).mp hself).1
    obtain ⟨ch, rest, hbytes⟩ := List.exists_cons_of_ne_nil n.ne_nil
    have hseparator := n.no_separator
    rw [hbytes, List.mem_cons, not_or] at hseparator hbackslash
    rw [hbytes, escapedPattern_cons (Ne.symm hseparator.1)] at hslash h
    have hrest : ∀ other ∈ rest, ¬ Wild other := fun other hother hother' =>
      hslash (List.mem_cons_of_mem _ (slash_mem_slashWild ⟨other, hother, hother'⟩))
    have hch : Wild ch := by
      obtain ⟨other, hother, hother'⟩ := hwild
      rw [hbytes, List.mem_cons] at hother
      rcases hother with rfl | hother
      · exact hother'
      · exact absurd hother' (hrest other hother)
    rw [slashWild_of_forall hrest] at h hslash
    have hdecoy := (h (decoy rest hseparator.2)).mp ((ruleApplies_child hslash _).mpr
      ⟨hreaches, wildcardMatch_decoy hch (ordinary_of_forall hbackslash.2 hrest)⟩)
    have hfirst : (120 : UInt8) = ch := (List.cons.inj hdecoy).1
    rcases hch with rfl | rfl <;> cases hfirst

/-- The rule is for the name alone unless a wildcard or a leading "!" had to be escaped. -/
theorem namesExactly_iff (baseDir : FsPath) (n : FileName) (hbackslash : 92 ∉ n.bytes) (hlf : 10 ∉ n.bytes)
    (hcr : 13 ∉ n.bytes) :
    NamesExactly baseDir n ↔
      n.bytes.head? ≠ some 33 ∧ 42 ∉ n.bytes ∧ 63 ∉ n.bytes ∧ Reaches baseDir := by
  by_cases hbang : n.bytes.head? = some 33
  · refine iff_of_false ?_ fun h => h.1 hbang
    rintro ⟨rule, hparse, hnegated, -⟩
    rw [negated_of_bang hcr hlf hbang rule (by rw [hparse]; exact List.mem_singleton_self _)] at hnegated
    cases hnegated
  · have hparse := @rule_of_escapeName baseDir _ n.ne_nil n.no_separator hbackslash hcr hlf hbang
    have hnames : NamesExactly baseDir n ↔ ∀ m : FileName,
        ruleApplies (plainRule baseDir 0 (escapedPattern n.bytes) false) (descend baseDir [m]) false ↔
          m.bytes = n.bytes := by
      simp only [NamesExactly, hparse, List.cons.injEq, and_true, exists_eq_left']
      refine (and_iff_right rfl).trans (forall_congr' fun m => ?_)
      rw [← ignores_plainRule (List.cons_ne_nil m [])]
      rfl
    have hwild : (∀ ch ∈ n.bytes, ¬ Wild ch) ↔ 42 ∉ n.bytes ∧ 63 ∉ n.bytes := by
      constructor
      · exact fun h => ⟨fun hmem => h 42 hmem (Or.inl rfl), fun hmem => h 63 hmem (Or.inr rfl)⟩
      · rintro ⟨hstar, hone⟩ ch hch (rfl | rfl)
        · exact hstar hch
        · exact hone hch
    rw [hnames, and_iff_right hbang, ← and_assoc, ← hwild]
    by_cases hplain : ∀ ch ∈ n.bytes, ¬ Wild ch
    · have hhead : n.bytes.head? ≠ some 47 := fun h => n.no_separator (List.mem_of_head? h)
      have hpattern : escapedPattern n.bytes = n.bytes := by
        rw [escapedPattern, slashWild_of_forall hplain, withoutLeadingSlash_of_head hhead]
      rw [hpattern, and_iff_right hplain]
      simp only [ruleApplies_child n.no_separator, wildcardMatch_plain (ordinary_of_forall hbackslash hplain)]
      exact ⟨fun h => ((h n).mpr rfl).1, fun hreaches m => and_iff_right hreaches⟩
    · refine iff_of_false ?_ fun h => hplain h.1
      push Not at hplain
      exact not_forall_of_wild hbackslash hplain

theorem namesExactly_hash :
    NamesExactly (FsPath.ofBytes (ascii "/w")) ⟨ascii "#a", by decide, by decide, by decide, by decide⟩ :=
  (namesExactly_iff _ _ (by decide) (by decide) (by decide)).mpr (by decide)

theorem escaped_star_misses_name :
    ¬ ∀ (baseDir : FsPath) (n : FileName), Reaches baseDir → 92 ∉ n.bytes → 10 ∉ n.bytes → 13 ∉ n.bytes →
      NamesExactly baseDir n := by
  intro h
  have hstar := h (FsPath.ofBytes (ascii "/w")) ⟨ascii "a*b", by decide, by decide, by decide, by decide⟩
    (by decide) (by decide) (by decide) (by decide)
  obtain ⟨rule, hparse, -, hnames⟩ := hstar
  rw [@rule_of_escapeName (FsPath.ofBytes (ascii "/w")) (ascii "a*b") (by decide) (by decide) (by decide)
    (by decide) (by decide) (by decide)] at hparse
  obtain ⟨rfl, -⟩ := List.cons.inj hparse
  have hmissed := (hnames ⟨ascii "a*b", by decide, by decide, by decide, by decide⟩).mpr rfl
  revert hmissed
  decide

end Names

end DltxtBridge.Crossref
