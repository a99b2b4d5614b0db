import DltxtBridge.Crossref.RuleMatching
import DltxtBridge.Crossref.Wildcard
import Mathlib.Data.List.DropRight

namespace DltxtBridge.Crossref

open FsPath

section Lines

lemma trimGitignoreLine_append (front back : Bytes) :
    trimGitignoreLine (front ++ back) =
      if trimGitignoreLine back = [] then trimGitignoreLine front else front ++ trimGitignoreLine back := by
  simp only [trimGitignoreLine, List.reverse_append, List.dropWhile_append, List.isEmpty_iff,
    List.reverse_eq_nil_iff]
  split_ifs
  · rfl
  · rw [List.reverse_append, List.reverse_reverse]

lemma trimGitignoreLine_concat {last : UInt8} (hcr : last ≠ 13) (hlf : last ≠ 10) (front : Bytes) :
    trimGitignoreLine (front ++ [last]) = front ++ [last] := by
  have hlast : trimGitignoreLine [last] = [last] := by simp [trimGitignoreLine, hcr, hlf]
  rw [trimGitignoreLine_append, hlast, if_neg (List.cons_ne_nil _ _)]

lemma trimGitignoreLine_eq_self {line : Bytes} (hcr : 13 ∉ line) (hlf : 10 ∉ line) :
    trimGitignoreLine line = line := by
  rcases List.eq_nil_or_concat' line with rfl | ⟨init, last, rfl⟩
  · rfl
  · apply trimGitignoreLine_concat
    · rintro rfl
      simp at hcr
    · rintro rfl
      simp at hlf

lemma trimGitignoreLine_prefix (line : Bytes) : trimGitignoreLine line <+: line := List.rdropWhile_prefix _ _

variable {baseDir : FsPath} {order : ℕ}

lemma parseIgnoreLines_of_blank {line : Bytes} (h : trimGitignoreLine line = []) :
    parseIgnoreLines baseDir order [line] = [] := by
  rw [parseIgnoreLines, h, parseIgnoreLines]

lemma parseIgnoreLines_singleton {line unescaped : Bytes} (hne : trimGitignoreLine line ≠ [])
    (hunescape : unescapeGitignoreLine (trimGitignoreLine line) = some unescaped) :
    parseIgnoreLines baseDir order [line] = (gitignoreRuleOf baseDir order unescaped).toList := by
  obtain ⟨ch, rest, hline⟩ := List.exists_cons_of_ne_nil hne
  rw [hline] at hunescape
  rw [parseIgnoreLines, hline]
  simp only [hunescape, parseIgnoreLines, List.append_nil]

lemma unescapeGitignoreLine_of_head {line : Bytes} (hhash : line.head? ≠ some 35)
    (hbackslash : line.head? ≠ some 92) :
    unescapeGitignoreLine line = some line := by
  rw [unescapeGitignoreLine.eq_def]
  split
  · simp at hbackslash
  · simp at hbackslash
  · simp at hhash
  · rfl

def plainRule (baseDir : FsPath) (order : ℕ) (pattern : Bytes) (directoryOnly : Bool) : GitIgnoreRule where
  baseDir := baseDir
  pattern := pattern
  negated := false
  directoryOnly := directoryOnly
  basenameOnly := !pattern.contains 47
  baseDepth := baseDir.components.length
  order := order

def barePattern (line : Bytes) : Bytes :=
  if (normalizeGitignorePattern line).getLast? = some 47 then (normalizeGitignorePattern line).dropLast
  else normalizeGitignorePattern line

def forDirectories (line : Bytes) : Bool := (normalizeGitignorePattern line).getLast? = some 47

lemma negated_gitignoreRuleOf {line : Bytes} {rule : GitIgnoreRule}
    (h : gitignoreRuleOf baseDir order line = some rule) : rule.negated = decide (line.head? = some 33) := by
  obtain ⟨-, hrule⟩ := Option.ite_none_left_eq_some.mp h
  exact Option.some.inj hrule ▸ rfl

def withoutLeadingSlash (pattern : Bytes) : Bytes := if pattern.head? = some 47 then pattern.tail else pattern

lemma gitignoreRuleOf_eq {line : Bytes} (hnegated : line.head? ≠ some 33) :
    gitignoreRuleOf baseDir order line =
      if withoutLeadingSlash (barePattern line) = [] then none
      else some (plainRule baseDir order (withoutLeadingSlash (barePattern line)) (forDirectories line)) := by
  rw [gitignoreRuleOf]
  simp only [hnegated, decide_false, plainRule, List.contains_eq_mem, ← decide_not]
  rfl

lemma withoutLeadingSlash_of_head {pattern : Bytes} (h : pattern.head? ≠ some 47) :
    withoutLeadingSlash pattern = pattern := if_neg h

lemma parse_plainLine {line pattern : Bytes} (hhash : (trimGitignoreLine line).head? ≠ some 35)
    (hbackslash : (trimGitignoreLine line).head? ≠ some 92) (hnegated : (trimGitignoreLine line).head? ≠ some 33)
    (hpattern : withoutLeadingSlash (barePattern (trimGitignoreLine line)) = pattern) (hne : pattern ≠ []) :
    parseIgnoreLines baseDir order [line] =
      [plainRule baseDir order pattern (forDirectories (trimGitignoreLine line))] := by
  have htrim : trimGitignoreLine line ≠ [] := by
    intro hnil
    rw [hnil] at hpattern
    exact hne hpattern.symm
  rw [parseIgnoreLines_singleton htrim (unescapeGitignoreLine_of_head hhash hbackslash),
    gitignoreRuleOf_eq hnegated, hpattern, if_neg hne]
  rfl

def LineMatches (baseDir : FsPath) (order : ℕ) (line : Bytes) (path : FsPath) (isDirectory : Bool) : Prop :=
  ∃ rule ∈ parseIgnoreLines baseDir order [line], ruleApplies rule path isDirectory

instance (baseDir : FsPath) (order : ℕ) (line : Bytes) (path : FsPath) (isDirectory : Bool) :
    Decidable (LineMatches baseDir order line path isDirectory) := inferInstanceAs (Decidable (∃ rule ∈ _, _))

end Lines

section Patterns

def Ordinary (ch : UInt8) : Prop := ch ≠ 92 ∧ ch ≠ 42 ∧ ch ≠ 63

instance (ch : UInt8) : Decidable (Ordinary ch) := inferInstanceAs (Decidable (_ ∧ _))

lemma wildcardMatch_ordinary {ch : UInt8} (h : Ordinary ch) (pattern text : Bytes) :
    wildcardMatch (ch :: pattern) text ↔ ∃ rest, text = ch :: rest ∧ wildcardMatch pattern rest := by
  rw [wildcardMatch_literal text (fun hbackslash => absurd hbackslash h.1) h.2.1 h.2.2]
  cases text with
  | nil => simp [headMatch]
  | cons first rest => simp [headMatch, @eq_comm _ ch first]

lemma wildcardMatch_plain {pattern : Bytes} (hplain : ∀ ch ∈ pattern, Ordinary ch) (text : Bytes) :
    wildcardMatch pattern text ↔ text = pattern := by
  induction pattern generalizing text with
  | nil => simp [wildcardMatch]
  | cons ch pattern ih =>
    obtain ⟨hch, hpattern⟩ := List.forall_mem_cons.mp hplain
    rw [wildcardMatch_ordinary hch]
    simp only [ih hpattern, exists_eq_right]

lemma wildcardMatch_anywhere (pattern text : Bytes) :
    wildcardMatch (42 :: 42 :: 47 :: pattern) text ↔
      ∃ above rest, text = above ++ 47 :: rest ∧ wildcardMatch pattern rest := by
  have hslash : Ordinary 47 := ⟨by decide, by decide, by decide⟩
  rw [wildcardMatch_doubleStar, starRests, if_pos rfl, List.any_eq_true]
  simp only [List.mem_tails, wildcardMatch_ordinary hslash]
  constructor
  · rintro ⟨tail, ⟨above, rfl⟩, rest, rfl, hmatch⟩
    exact ⟨above, rest, rfl, hmatch⟩
  · rintro ⟨above, rest, rfl, hmatch⟩
    exact ⟨47 :: rest, List.suffix_append _ _, rest, rfl, hmatch⟩

lemma slash_mem_of_wildcardMatch {pattern text : Bytes} (hbackslash : 92 ∉ pattern) (hslash : 47 ∈ pattern)
    (hmatch : wildcardMatch pattern text) : 47 ∈ text := by
  fun_induction wildcardMatch pattern text with
  | case1 => simp at hslash
  | case2 => simp at hbackslash
  | case3 => simp at hbackslash
  | case4 pattern text ih =>
    obtain ⟨rest, hrest, hmatch⟩ := List.any_eq_true.mp hmatch
    have hinside := ih rest (by simp_all) (by simp_all) hmatch
    exact ((List.mem_tails _ _).mp hrest).subset hinside
  | case5 pattern text hsingle ih =>
    obtain ⟨rest, hrest, hmatch⟩ := List.any_eq_true.mp hmatch
    obtain ⟨name, -, hsplit⟩ := mem_starSuffixes.mp hrest
    exact hsplit ▸ List.mem_append_right _ (ih rest (by simp_all) (by simp_all) hmatch)
  | case6 pattern ch rest ih => simp_all
  | case7 => simp at hmatch
  | case8 literal pattern hescape hdouble hstar hone ch rest ih =>
    simp only [Bool.and_eq_true, decide_eq_true_eq] at hmatch
    simp only [List.mem_cons, not_or] at hslash hbackslash ⊢
    exact hslash.imp (fun h => h.trans hmatch.1) fun h => ih hbackslash.2 h hmatch.2
  | case9 => simp at hmatch

/-- The components that a rule without separators looks at: the last one only if it counts. -/
def tried (names : List Bytes) (lastCounts : Bool) : List Bytes := if lastCounts then names else names.dropLast

lemma exists_tried_iff {names : List Bytes} {lastCounts : Bool} {P : Bytes → Prop} :
    (∃ front back, front ≠ [] ∧ front ++ back = names ∧ (back ≠ [] ∨ lastCounts) ∧ P (front.getLast?.getD [])) ↔
      ∃ name ∈ tried names lastCounts, P name := by
  constructor
  · rintro ⟨front, back, hfront, rfl, hlast, hP⟩
    obtain ⟨init, last, rfl⟩ := (List.eq_nil_or_concat' front).resolve_left hfront
    rw [List.getLast?_concat, Option.getD_some] at hP
    refine ⟨last, ?_, hP⟩
    rw [tried]
    split_ifs with hcounts
    · simp
    · have hback := hlast.resolve_right hcounts
      rw [List.dropLast_append_of_ne_nil hback]
      simp
  · rintro ⟨name, hname, hP⟩
    rw [tried] at hname
    split_ifs at hname with hcounts
    · obtain ⟨init, back, rfl⟩ := List.append_of_mem hname
      exact ⟨init ++ [name], back, by simp, by simp, Or.inr hcounts, by simpa using hP⟩
    · obtain ⟨init, back, hsplit⟩ := List.append_of_mem hname
      have hne : names ≠ [] := by
        rintro rfl
        cases hname
      obtain ⟨front, last, rfl⟩ := (List.eq_nil_or_concat' names).resolve_left hne
      rw [List.dropLast_concat] at hsplit
      exact ⟨init ++ [name], back ++ [last], by simp, by simp [hsplit], Or.inl (by simp), by simpa using hP⟩

section Applies

variable {baseDir : FsPath} {order : ℕ} {pattern : Bytes} {directoryOnly : Bool} {names : List FileName}
  {isDirectory : Bool}

lemma ruleApplies_name (hne : names ≠ []) (hpattern : 47 ∉ pattern) :
    ruleApplies (plainRule baseDir order pattern directoryOnly) (descend baseDir names) isDirectory ↔
      Reaches baseDir ∧ ∃ name ∈ tried (names.map FileName.bytes) (isDirectory || !directoryOnly),
        wildcardMatch pattern name := by
  have hbasename : (plainRule baseDir order pattern directoryOnly).basenameOnly = true := by
    simp [plainRule, hpattern]
  have happlies := @ruleApplies_descend names isDirectory (plainRule baseDir order pattern directoryOnly) hne
  simp only [subject, hbasename, if_true] at happlies
  rw [← exists_tried_iff]
  simp only [Bool.or_eq_true, Bool.not_eq_true']
  exact happlies

lemma ruleApplies_path (hne : names ≠ []) (hpattern : 47 ∈ pattern) :
    ruleApplies (plainRule baseDir order pattern directoryOnly) (descend baseDir names) isDirectory ↔
      Reaches baseDir ∧ ∃ front back, front ≠ [] ∧ front ++ back = names.map FileName.bytes ∧
        (back ≠ [] ∨ isDirectory ∨ directoryOnly = false) ∧ wildcardMatch pattern (join front) := by
  have hbasename : (plainRule baseDir order pattern directoryOnly).basenameOnly = false := by
    simp [plainRule, hpattern]
  have happlies := @ruleApplies_descend names isDirectory (plainRule baseDir order pattern directoryOnly) hne
  simp only [subject, hbasename, Bool.false_eq_true, if_false] at happlies
  exact happlies

end Applies

section Unspelled

lemma spelled_directoryCandidates {isDirectory : Bool} {current : FsPath} (h : current.Spelled)
    (names : List Bytes) :
    ∀ candidate ∈ directoryCandidatesFrom isDirectory current names,
      ∃ p : FsPath, p.Spelled ∧ p.genericString = candidate := by
  induction names generalizing current with
  | nil => simp [directoryCandidatesFrom]
  | cons name names ih =>
    have hnext := spelled_append h (spelled_ofBytes name)
    rw [directoryCandidatesFrom, List.forall_mem_append]
    refine ⟨?_, ih hnext⟩
    intro candidate hcandidate
    split_ifs at hcandidate
    · exact ⟨_, hnext, (List.mem_singleton.mp hcandidate).symm⟩
    · cases hcandidate

lemma not_ruleApplies_of_unspelled {rule : GitIgnoreRule} (hplain : ∀ ch ∈ rule.pattern, Ordinary ch)
    (hbasename : rule.basenameOnly = false) (hunspelled : (ofBytes rule.pattern).genericString ≠ rule.pattern)
    (text : Bytes) (isDirectory : Bool) : ¬ ruleApplies rule (ofBytes text) isDirectory := by
  have hmiss : ∀ p : FsPath, p.Spelled → wildcardMatch rule.pattern p.genericString = false := by
    intro p hp
    rw [Bool.eq_false_iff, ne_eq, wildcardMatch_plain hplain]
    intro hpattern
    apply hunspelled
    rw [← hpattern, ofBytes_genericString_of_spelled hp]
  have hnormal :
      ((ofBytes text).lexicallyNormal.lexicallyRelative rule.baseDir.lexicallyNormal).lexicallyNormal.Spelled :=
    spelled_lexicallyNormal (separated_lexicallyRelative (spelled_lexicallyNormal (separated_ofBytes text)).1 _)
  have hstart : ({} : FsPath).Spelled := spelled_of_names (List.forall_mem_nil _)
  have hdirectories : (buildDirectoryCandidates
      ((ofBytes text).lexicallyNormal.lexicallyRelative rule.baseDir.lexicallyNormal) isDirectory).any
        (fun candidate => wildcardMatch rule.pattern candidate) = false := by
    rw [List.any_eq_false]
    intro candidate hcandidate
    obtain ⟨p, hp, rfl⟩ := spelled_directoryCandidates hstart _ candidate hcandidate
    exact Bool.eq_false_iff.mp (hmiss p hp)
  simp only [ruleApplies, matchesRule, hbasename, hdirectories, hmiss _ hnormal]
  simp

end Unspelled

end Patterns

end DltxtBridge.Crossref
