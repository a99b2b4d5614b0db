import DltxtBridge.FsPath
import DltxtBridge.Library.Segments

namespace DltxtBridge.FsPath

def Separated (p : FsPath) : Prop := ∀ name ∈ p.elements, 47 ∉ name

lemma separated_ofBytes (text : Bytes) : (ofBytes text).Separated := by
  intro name hname
  simp only [ofBytes] at hname
  have hpieces : ∀ piece ∈ (pieces text).filter (· ≠ []), 47 ∉ piece := by
    intro piece hpiece
    exact Segments.not_mem_of_mem_splitOn (List.mem_of_mem_filter hpiece)
  split_ifs at hname
  · rw [List.mem_append, List.mem_singleton] at hname
    rcases hname with hname | rfl
    · exact hpieces name hname
    · exact List.not_mem_nil
  · exact hpieces name hname

/-- A path that has a spelling: only its last name may be empty, unless it is the only one. -/
def Spelled (p : FsPath) : Prop := p.Separated ∧ [] ∉ p.elements.dropLast ∧ p.elements ≠ [[]]

lemma spelled_of_names {p : FsPath} (h : ∀ name ∈ p.elements, name ≠ [] ∧ 47 ∉ name) : p.Spelled := by
  refine ⟨fun name hname => (h name hname).2, fun hnil => (h [] (List.dropLast_subset _ hnil)).1 rfl, ?_⟩
  intro hsingle
  exact (h [] (by simp [hsingle])).1 rfl

lemma splitOn_genericString {p : FsPath} (hne : p.elements ≠ []) (hseparated : p.Separated) :
    p.genericString.splitOn 47 = (if p.rootDirectory then [[]] else []) ++ p.elements := by
  have helements : (List.intercalate [47] p.elements).splitOn 47 = p.elements :=
    List.splitOn_intercalate 47 hseparated hne
  rw [genericString]
  split_ifs
  · rw [List.singleton_append, Segments.splitOn_cons_self, helements]
    rfl
  · exact helements

lemma ofBytes_genericString {p : FsPath} (hne : p.elements ≠ [])
    (hnames : ∀ name ∈ p.elements, name ≠ [] ∧ 47 ∉ name) : ofBytes p.genericString = p := by
  have hsplit := splitOn_genericString hne fun name hname => (hnames name hname).2
  have hnonempty : ([] : Bytes) ∉ p.elements := fun hmem => (hnames [] hmem).1 rfl
  have hpieces : (pieces p.genericString).filter (· ≠ []) = p.elements := by
    have helements : p.elements.filter (· ≠ []) = p.elements :=
      List.filter_eq_self.mpr fun name hname => decide_eq_true (hnames name hname).1
    rw [pieces, hsplit, List.filter_append, helements]
    cases p.rootDirectory <;> rfl
  have hroot : (p.genericString.head? = some 47) ↔ p.rootDirectory = true := by
    cases hp : p.rootDirectory with
    | true => simp [genericString, hp]
    | false =>
      simp only [Bool.false_eq_true, iff_false]
      intro hhead
      obtain ⟨rest, hrest⟩ := List.head?_eq_some_iff.mp hhead
      rw [hp, hrest, Segments.splitOn_cons_self] at hsplit
      exact hnonempty (by simp [← show [] :: List.splitOn 47 rest = p.elements from hsplit])
  have hlast : p.genericString.getLast? ≠ some 47 := by
    intro hlast
    obtain ⟨init, hinit⟩ := List.getLast?_eq_some_iff.mp hlast
    rw [hinit, Segments.splitOn_concat_self] at hsplit
    have hend := congrArg List.getLast? hsplit
    rw [List.getLast?_concat, List.getLast?_append_of_ne_nil _ hne] at hend
    exact hnonempty (List.mem_of_getLast? hend.symm)
  rw [ofBytes]
  simp only [hpieces, hlast, and_false, if_false, hroot, Bool.decide_eq_true]

lemma ofBytes_concat_separator {text : Bytes} {q : FsPath} (hq : ofBytes text = q) (hne : q.elements ≠ [])
    (hnil : [] ∉ q.elements) : ofBytes (text ++ [47]) = { q with elements := q.elements ++ [[]] } := by
  have htext : text ≠ [] := by
    rintro rfl
    exact hne (by rw [← hq]; rfl)
  have hnames : (pieces text).filter (· ≠ []) = q.elements := by
    rw [← hq] at hnil ⊢
    simp only [ofBytes] at hnil ⊢
    split_ifs at hnil ⊢
    · simp at hnil
    · rfl
  have hpieces : (pieces (text ++ [47])).filter (· ≠ []) = q.elements := by
    rw [pieces, Segments.splitOn_concat_self, List.filter_append]
    exact (List.append_nil _).trans hnames
  have hroot : (text ++ [47]).head? = text.head? := List.head?_append_of_ne_nil _ htext
  rw [ofBytes]
  simp only [hpieces, hroot, List.getLast?_concat, hne, ne_eq, not_false_eq_true, and_self, if_true]
  rw [← hq]
  rfl

lemma ofBytes_genericString_of_spelled {p : FsPath} (h : p.Spelled) : ofBytes p.genericString = p := by
  obtain ⟨hseparated, hnames, hsingle⟩ := h
  rcases List.eq_nil_or_concat' p.elements with hnil | ⟨init, last, hsplit⟩
  · obtain ⟨rootDirectory, elements⟩ := p
    cases rootDirectory <;> cases hnil <;> rfl
  rw [hsplit, List.dropLast_concat] at hnames
  have hinit : ∀ name ∈ init, name ≠ [] ∧ 47 ∉ name := by
    intro name hname
    refine ⟨?_, hseparated name (by simp [hsplit, hname])⟩
    rintro rfl
    exact hnames hname
  rcases eq_or_ne last [] with rfl | hlast
  · have hne : init ≠ [] := by
      rintro rfl
      exact hsingle hsplit
    have hgeneric : p.genericString = ({ p with elements := init } : FsPath).genericString ++ [47] := by
      rw [genericString, genericString, hsplit, Segments.intercalate_append hne (List.cons_ne_nil _ _)]
      simp
    have hread := @ofBytes_genericString { p with elements := init } hne hinit
    rw [hgeneric, ofBytes_concat_separator hread hne hnames, ← hsplit]
  · apply ofBytes_genericString
    · simp [hsplit]
    · rw [hsplit, List.forall_mem_append]
      exact ⟨hinit, by simpa using ⟨hlast, hseparated last (by simp [hsplit])⟩⟩

lemma eq_of_genericString {p q : FsPath} (hp : p.Spelled) (hq : q.Spelled)
    (h : p.genericString = q.genericString) : p = q := by
  rw [← ofBytes_genericString_of_spelled hp, h, ofBytes_genericString_of_spelled hq]

lemma spelled_ofBytes (text : Bytes) : (ofBytes text).Spelled := by
  refine ⟨separated_ofBytes text, ?_, ?_⟩
  all_goals
    have hnames : [] ∉ (pieces text).filter (· ≠ []) := by simp
    simp only [ofBytes]
    generalize (pieces text).filter (· ≠ []) = names at hnames
    split_ifs with hlast
  · rwa [List.dropLast_concat]
  · exact fun h => hnames (List.dropLast_subset _ h)
  · simp [hlast.1]
  · rintro rfl
    simp at hnames

lemma names_stem {p : FsPath} (h : p.Spelled) :
    ∀ name ∈ (if p.filename = [] then p.elements.dropLast else p.elements), name ≠ [] ∧ 47 ∉ name := by
  obtain ⟨hseparated, hnames, -⟩ := h
  intro name hname
  split_ifs at hname with hlast
  · refine ⟨?_, hseparated name (List.dropLast_subset _ hname)⟩
    rintro rfl
    exact hnames hname
  · refine ⟨?_, hseparated name hname⟩
    rintro rfl
    rcases List.eq_nil_or_concat' p.elements with hnil | ⟨init, last, hsplit⟩
    · simp [hnil] at hname
    · rw [filename, hsplit, List.getLast?_concat, Option.getD_some] at hlast
      rw [hsplit, List.dropLast_concat] at hnames
      rw [hsplit, List.mem_append, List.mem_singleton] at hname
      exact hname.elim hnames fun h => hlast h.symm

lemma spelled_append {p q : FsPath} (hp : p.Spelled) (hq : q.Spelled) : (p.append q).Spelled := by
  have hstem := names_stem hp
  rw [append]
  by_cases hroot : q.rootDirectory = true
  · rwa [if_pos hroot]
  rw [if_neg hroot]
  by_cases hnil : q.elements = []
  · simp only [if_pos hnil]
    by_cases hlast : p.filename = []
    · rwa [if_pos hlast]
    · rw [if_neg hlast] at hstem ⊢
      have hne : p.elements ≠ [] := by
        intro helements
        exact hlast (by rw [filename, helements]; rfl)
      refine ⟨List.forall_mem_append.mpr ⟨fun name hname => (hstem name hname).2, by simp⟩, ?_,
        by simpa using hne⟩
      rw [List.dropLast_concat]
      exact fun h => (hstem [] h).1 rfl
  · simp only [if_neg hnil]
    generalize (if p.filename = [] then p.elements.dropLast else p.elements) = names at hstem
    refine ⟨List.forall_mem_append.mpr ⟨fun name hname => (hstem name hname).2, hq.1⟩, ?_, ?_⟩
    · rw [List.dropLast_append_of_ne_nil hnil, List.mem_append, not_or]
      exact ⟨fun h => (hstem [] h).1 rfl, hq.2.1⟩
    · intro hsingle
      rcases List.append_eq_singleton_iff.mp hsingle with ⟨-, helements⟩ | ⟨hnames, -⟩
      · exact hq.2.2 helements
      · exact (hstem [] (by simp [hnames])).1 rfl

end DltxtBridge.FsPath
