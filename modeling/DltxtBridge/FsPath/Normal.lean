import DltxtBridge.FsPath.Spelling

namespace DltxtBridge.FsPath

def Plain (name : Bytes) : Prop := name ≠ [] ∧ name ≠ dot ∧ name ≠ dotDot

def normalNames (p : FsPath) : List Bytes := (p.elements.foldl (normalStep p.rootDirectory) []).reverse

def EndsAsDirectory (p : FsPath) : Prop := p.filename = [] ∨ p.filename = dot ∨ p.filename = dotDot

instance (p : FsPath) : Decidable p.EndsAsDirectory := inferInstanceAs (Decidable (_ ∨ _ ∨ _))

section Stack

variable {rootDirectory : Bool} {names : List Bytes}

/-- What `normalStep` builds, last name first: ".." is only found below other "..". -/
def StackNormal (rootDirectory : Bool) : List Bytes → Prop
  | [] => True
  | name :: names =>
    (name ≠ [] ∧ name ≠ dot) ∧
      (name = dotDot → rootDirectory = false ∧ (names = [] ∨ names.head? = some dotDot)) ∧
      StackNormal rootDirectory names

lemma StackNormal.of_append {others : List Bytes} (h : StackNormal rootDirectory (names ++ others)) :
    StackNormal rootDirectory names := by
  induction names with
  | nil => trivial
  | cons name names ih =>
    obtain ⟨hne, hdotDot, hrest⟩ := h
    refine ⟨hne, fun hname => ⟨(hdotDot hname).1, ?_⟩, ih hrest⟩
    cases names with
    | nil => exact Or.inl rfl
    | cons last names => exact Or.inr ((hdotDot hname).2.resolve_left (List.cons_ne_nil _ _))

lemma StackNormal.relative (h : StackNormal rootDirectory names) : StackNormal false names := by
  induction names with
  | nil => trivial
  | cons name names ih => exact ⟨h.1, fun hname => ⟨rfl, (h.2.1 hname).2⟩, ih h.2.2⟩

lemma stackNormal_normalStep (h : StackNormal rootDirectory names) (name : Bytes) :
    StackNormal rootDirectory (normalStep rootDirectory names name) := by
  rw [normalStep.eq_def]
  by_cases hskip : name = [] ∨ name = dot
  · rwa [if_pos hskip]
  rw [if_neg hskip]
  by_cases hdotDot : name = dotDot
  · rw [if_pos hdotDot]
    cases names with
    | nil => cases rootDirectory <;> simp [StackNormal, dotDot, dot]
    | cons last rest =>
      by_cases hlast : last = dotDot
      · simp only [if_pos hlast]
        exact ⟨by decide, fun _ => ⟨(h.2.1 hlast).1, Or.inr (congrArg some hlast)⟩, h⟩
      · simp only [if_neg hlast]
        exact h.2.2
  · rw [if_neg hdotDot]
    exact ⟨not_or.mp hskip, fun hname => absurd hname hdotDot, h⟩

lemma stackNormal_foldl (h : StackNormal rootDirectory names) (elements : List Bytes) :
    StackNormal rootDirectory (elements.foldl (normalStep rootDirectory) names) := by
  induction elements generalizing names with
  | nil => exact h
  | cons name elements ih => exact ih (stackNormal_normalStep h name)

lemma foldl_normalStep_reverse (h : StackNormal rootDirectory names) :
    names.reverse.foldl (normalStep rootDirectory) [] = names := by
  induction names with
  | nil => rfl
  | cons name names ih =>
    obtain ⟨⟨hne, hdot⟩, hdotDot, hrest⟩ := h
    rw [List.reverse_cons, List.foldl_append, ih hrest, List.foldl_cons, List.foldl_nil, normalStep.eq_def,
      if_neg (by simp [hne, hdot])]
    by_cases hname : name = dotDot
    · obtain ⟨rfl, hnames⟩ := hdotDot hname
      rw [if_pos hname]
      cases names with
      | nil => simp [hname]
      | cons last rest =>
        have hlast : last = dotDot := by simpa using hnames
        simp [hname, hlast]
    · rw [if_neg hname]

lemma foldl_normalStep_plain (acc : List Bytes) (h : ∀ name ∈ names, Plain name) :
    names.foldl (normalStep rootDirectory) acc = names.reverse ++ acc := by
  induction names generalizing acc with
  | nil => rfl
  | cons name names ih =>
    obtain ⟨⟨hne, hdot, hdotDot⟩, hnames⟩ := List.forall_mem_cons.mp h
    have hstep : normalStep rootDirectory acc name = name :: acc := by
      rw [normalStep.eq_def, if_neg (by simp [hne, hdot]), if_neg hdotDot]
    rw [List.foldl_cons, hstep, ih _ hnames, List.reverse_cons, List.append_assoc, List.singleton_append]

lemma names_normalStep {rootDirectory : Bool} {names : List Bytes} {piece : Bytes} {I : Bytes → Prop}
    (hnames : ∀ other ∈ names, I other) (hpiece : piece ≠ [] → I piece) (hdots : I dotDot) :
    ∀ other ∈ normalStep rootDirectory names piece, I other := by
  rw [normalStep.eq_def]
  by_cases hskip : piece = [] ∨ piece = dot
  · rwa [if_pos hskip]
  rw [if_neg hskip]
  by_cases hdotDot : piece = dotDot
  · rw [if_pos hdotDot]
    cases names with
    | nil => cases rootDirectory <;> simp [hdots]
    | cons last rest =>
      by_cases hlast : last = dotDot
      · simp only [hlast, if_true]
        exact List.forall_mem_cons.mpr ⟨hdots, hlast ▸ hnames⟩
      · simp only [hlast, if_false]
        exact (List.forall_mem_cons.mp hnames).2
  · rw [if_neg hdotDot]
    exact List.forall_mem_cons.mpr ⟨hpiece fun h => hskip (Or.inl h), hnames⟩

lemma mem_foldl_normalStep {rootDirectory : Bool} {elements names : List Bytes}
    (helements : ∀ piece ∈ elements, 47 ∉ piece)
    (hnames : ∀ other ∈ names, other ≠ [] ∧ 47 ∉ other) :
    ∀ other ∈ elements.foldl (normalStep rootDirectory) names, other ≠ [] ∧ 47 ∉ other := by
  induction elements generalizing names with
  | nil => exact hnames
  | cons piece elements ih =>
    apply ih (fun other hother => helements other (List.mem_cons_of_mem _ hother))
    apply names_normalStep hnames (fun h => ⟨h, helements piece List.mem_cons_self⟩)
    exact ⟨by decide, by decide⟩

end Stack

section NormalForm

variable (p : FsPath)

lemma stackNormal_normalNames : StackNormal p.rootDirectory p.normalNames.reverse := by
  rw [normalNames, List.reverse_reverse]
  exact @stackNormal_foldl _ [] trivial p.elements

lemma nil_notMem_normalNames (p : FsPath) : [] ∉ p.normalNames := by
  have hstack := stackNormal_normalNames p
  rw [← List.mem_reverse]
  generalize p.normalNames.reverse = names at hstack
  induction names with
  | nil => exact List.not_mem_nil
  | cons name names ih =>
    rw [List.mem_cons, not_or]
    exact ⟨Ne.symm hstack.1.1, ih hstack.2.2⟩

/-- A trailing separator is kept behind the last name, unless that is "..". -/
def KeepsSeparator : Prop := p.EndsAsDirectory ∧ p.normalNames.getLast? ≠ some dotDot

variable {p}

lemma lexicallyNormal_of_empty (h : p.empty = true) : p.lexicallyNormal = p := by
  rw [lexicallyNormal, if_pos h]

lemma lexicallyNormal_of_nil (h : p.empty = false) (hnames : p.normalNames = []) :
    p.lexicallyNormal = { p with elements := if p.rootDirectory then [] else [dot] } := by
  rw [normalNames] at hnames
  rw [lexicallyNormal, if_neg (by simp [h])]
  simp only [hnames, if_true]

lemma empty_of_normalNames (hnames : p.normalNames ≠ []) : p.empty = false := by
  rw [empty, Bool.and_eq_false_iff]
  right
  rw [List.isEmpty_eq_false_iff]
  intro helements
  exact hnames (by rw [normalNames, helements]; rfl)

lemma lexicallyNormal_of_directory (hnames : p.normalNames ≠ []) (hkeeps : p.KeepsSeparator) :
    p.lexicallyNormal = { p with elements := p.normalNames ++ [[]] } := by
  rw [lexicallyNormal, if_neg (by simp [empty_of_normalNames hnames])]
  exact (if_neg hnames).trans (if_pos hkeeps)

lemma lexicallyNormal_of_name (hnames : p.normalNames ≠ []) (hkeeps : ¬ p.KeepsSeparator) :
    p.lexicallyNormal = { p with elements := p.normalNames } := by
  rw [lexicallyNormal, if_neg (by simp [empty_of_normalNames hnames])]
  exact (if_neg hnames).trans (if_neg hkeeps)

lemma rootDirectory_lexicallyNormal (p : FsPath) : p.lexicallyNormal.rootDirectory = p.rootDirectory := by
  simp only [lexicallyNormal]
  split_ifs <;> rfl

lemma normalNames_of_elements {names : List Bytes} (h : StackNormal p.rootDirectory names.reverse)
    (helements : p.elements = names ∨ p.elements = names ++ [[]]) : p.normalNames = names := by
  have hfold := foldl_normalStep_reverse h
  rw [List.reverse_reverse] at hfold
  rcases helements with helements | helements
  · rw [normalNames, helements, hfold, List.reverse_reverse]
  · rw [normalNames, helements, List.foldl_append, hfold]
    simp [normalStep]

lemma normalNames_lexicallyNormal (p : FsPath) : p.lexicallyNormal.normalNames = p.normalNames := by
  cases hempty : p.empty with
  | true => rw [lexicallyNormal_of_empty hempty]
  | false =>
    by_cases hnames : p.normalNames = []
    · rw [lexicallyNormal_of_nil hempty hnames, hnames, normalNames]
      cases p.rootDirectory <;> simp [normalStep]
    · by_cases hkeeps : p.KeepsSeparator
      · rw [lexicallyNormal_of_directory hnames hkeeps]
        exact normalNames_of_elements (stackNormal_normalNames p) (Or.inr rfl)
      · rw [lexicallyNormal_of_name hnames hkeeps]
        exact normalNames_of_elements (stackNormal_normalNames p) (Or.inl rfl)

lemma last_normalNames {name : Bytes} (h : p.normalNames.getLast? = some name) : name ≠ [] ∧ name ≠ dot := by
  have hstack := stackNormal_normalNames p
  obtain ⟨names, hnames⟩ := List.getLast?_eq_some_iff.mp h
  rw [hnames, List.reverse_append] at hstack
  exact hstack.1

lemma lexicallyNormal_lexicallyNormal (p : FsPath) : p.lexicallyNormal.lexicallyNormal = p.lexicallyNormal := by
  have hnormalNames := normalNames_lexicallyNormal p
  cases hempty : p.empty with
  | true => rw [lexicallyNormal_of_empty hempty, lexicallyNormal_of_empty hempty]
  | false =>
    by_cases hnames : p.normalNames = []
    · have hnormal := lexicallyNormal_of_nil hempty hnames
      rw [lexicallyNormal_of_nil _ (hnormalNames.trans hnames), rootDirectory_lexicallyNormal, hnormal]
      rw [hnormal]
      cases hroot : p.rootDirectory <;> simp [empty]
    · by_cases hkeeps : p.KeepsSeparator
      · have hnormal := lexicallyNormal_of_directory hnames hkeeps
        rw [lexicallyNormal_of_directory (hnormalNames ▸ hnames), hnormalNames, hnormal]
        refine ⟨Or.inl ?_, hnormalNames ▸ hkeeps.2⟩
        rw [hnormal, filename, List.getLast?_concat]
        rfl
      · have hnormal := lexicallyNormal_of_name hnames hkeeps
        rw [lexicallyNormal_of_name (hnormalNames ▸ hnames), hnormalNames, hnormal]
        rintro ⟨hdirectory, hlast⟩
        rw [hnormalNames] at hlast
        obtain ⟨name, hname⟩ := Option.isSome_iff_exists.mp (List.getLast?_isSome.mpr hnames)
        obtain ⟨hne, hdot⟩ := last_normalNames hname
        rw [EndsAsDirectory, hnormal, filename, hname] at hdirectory
        rw [hname] at hlast
        simp_all

lemma lexicallyNormal_of_stackNormal {names : List Bytes} {last : Bytes}
    (h : StackNormal false (names ++ [last]).reverse) (hlast : Plain last) :
    ({ elements := names ++ [last] } : FsPath).lexicallyNormal = { elements := names ++ [last] } := by
  have hnames := @normalNames_of_elements { elements := names ++ [last] } _ h (Or.inl rfl)
  rw [lexicallyNormal_of_name, hnames]
  · simp [hnames]
  · rintro ⟨hdirectory, -⟩
    rw [EndsAsDirectory, filename, List.getLast?_concat, Option.getD_some] at hdirectory
    exact hdirectory.elim hlast.1 (Or.rec hlast.2.1 hlast.2.2)

lemma normalNames_dropLast (p : FsPath) (h : p.filename = []) :
    ({ p with elements := p.elements.dropLast } : FsPath).normalNames = p.normalNames := by
  rcases List.eq_nil_or_concat' p.elements with hnil | ⟨init, last, hsplit⟩
  · rw [normalNames, normalNames, hnil]
    rfl
  · rw [filename, hsplit, List.getLast?_concat, Option.getD_some] at h
    rw [normalNames, normalNames, hsplit, List.dropLast_concat, List.foldl_append, h]
    simp [normalStep]

lemma normalNames_append_plain (q : FsPath) {names : List Bytes} (hplain : ∀ name ∈ names, Plain name) :
    ({ q with elements := q.elements ++ names } : FsPath).normalNames = q.normalNames ++ names := by
  rw [normalNames, List.foldl_append, foldl_normalStep_plain _ hplain, List.reverse_append,
    List.reverse_reverse]
  rfl

lemma lexicallyNormal_append_plain (q : FsPath) {names : List Bytes} (hne : names ≠ [])
    (hplain : ∀ name ∈ names, Plain name) :
    ({ q with elements := q.elements ++ names } : FsPath).lexicallyNormal =
      { q with elements := q.normalNames ++ names } := by
  have hnames := normalNames_append_plain q hplain
  rw [lexicallyNormal_of_name, hnames]
  · simp [hnames, hne]
  · rintro ⟨hdirectory, -⟩
    obtain ⟨last, hlast⟩ := Option.isSome_iff_exists.mp (List.getLast?_isSome.mpr hne)
    obtain ⟨hnil, hdot, hdotDot⟩ := hplain last (List.mem_of_getLast? hlast)
    rw [EndsAsDirectory, filename, List.getLast?_append_of_ne_nil _ hne, hlast] at hdirectory
    simp_all

lemma names_normalNames (h : p.Separated) : ∀ name ∈ p.normalNames, name ≠ [] ∧ 47 ∉ name := by
  intro name hname
  rw [normalNames, List.mem_reverse] at hname
  exact mem_foldl_normalStep h (by simp) name hname

lemma spelled_lexicallyNormal (h : p.Separated) : p.lexicallyNormal.Spelled := by
  have hnames := names_normalNames h
  cases hempty : p.empty with
  | true =>
    rw [lexicallyNormal_of_empty hempty]
    have helements : p.elements = [] := by simpa [empty] using (Bool.and_eq_true_iff.mp hempty).2
    exact spelled_of_names (by simp [helements])
  | false =>
    by_cases hnil : p.normalNames = []
    · rw [lexicallyNormal_of_nil hempty hnil]
      apply spelled_of_names
      cases p.rootDirectory <;> simp [dot]
    · by_cases hkeeps : p.KeepsSeparator
      · rw [lexicallyNormal_of_directory hnil hkeeps]
        refine ⟨List.forall_mem_append.mpr ⟨fun name hname => (hnames name hname).2, by simp⟩, ?_,
          by simpa using hnil⟩
        rw [List.dropLast_concat]
        exact fun h => (hnames [] h).1 rfl
      · rw [lexicallyNormal_of_name hnil hkeeps]
        exact spelled_of_names hnames

end NormalForm

section Relative

lemma mismatch_append (xs ys : List Bytes) : mismatch (xs ++ ys) xs = (ys, []) := by
  induction xs with
  | nil => cases ys <;> rfl
  | cons x xs ih => rw [List.cons_append, mismatch, if_pos rfl, ih]

lemma components_append (q : FsPath) (names : List Bytes) :
    ({ q with elements := q.elements ++ names } : FsPath).components = q.components ++ names := by
  rw [components, components, List.append_assoc]

lemma append_name {q : FsPath} (h : q.elements = [] ∨ q.filename ≠ []) (name : Bytes) :
    q.append { elements := [name] } = { q with elements := q.elements ++ [name] } := by
  rcases h with h | h
  · simp [append, h]
  · simp [append, h]

lemma foldl_append_names {acc names : List Bytes} (hacc : ([] : Bytes) ∉ acc) (hnames : ([] : Bytes) ∉ names) :
    names.foldl (fun q name => q.append { elements := if name = [] then [] else [name] })
        ({ elements := acc } : FsPath) = { elements := acc ++ names } := by
  induction names generalizing acc with
  | nil => rw [List.append_nil]; rfl
  | cons name names ih =>
    rw [List.mem_cons, not_or] at hnames
    have hlast : acc = [] ∨ ({ elements := acc } : FsPath).filename ≠ [] := by
      refine (eq_or_ne acc []).imp_right fun hne => ?_
      obtain ⟨last, hlast⟩ := Option.isSome_iff_exists.mp (List.getLast?_isSome.mpr hne)
      rw [filename, hlast]
      rintro rfl
      exact hacc (List.mem_of_getLast? hlast)
    rw [List.foldl_cons, if_neg (Ne.symm hnames.1), append_name hlast, ih _ hnames.2, List.append_assoc,
      List.singleton_append]
    simp [hacc, hnames.1]

lemma lexicallyRelative_append (q : FsPath) {names : List Bytes} (hne : names ≠ [])
    (hnames : ([] : Bytes) ∉ names) :
    ({ q with elements := q.elements ++ names } : FsPath).lexicallyRelative q = { elements := names } := by
  obtain ⟨name, rest, rfl⟩ := List.exists_cons_of_ne_nil hne
  have hname : name ≠ [] := fun h => hnames (h ▸ List.mem_cons_self)
  rw [lexicallyRelative, if_neg (by simp), components_append, mismatch_append]
  simp only [List.countP_nil, lt_irrefl, if_false, Nat.sub_self, List.replicate_zero, List.nil_append]
  rw [if_neg (by simp), if_neg (by simp [hname]), ← List.nil_append (name :: rest)]
  exact foldl_append_names List.not_mem_nil hnames

lemma lexicallyRelative_self (q : FsPath) : q.lexicallyRelative q = { elements := [dot] } := by
  have hmismatch := mismatch_append q.components []
  rw [List.append_nil] at hmismatch
  rw [lexicallyRelative, if_neg (by simp), hmismatch]
  simp

lemma mismatch_fst_suffix (xs ys : List Bytes) : (mismatch xs ys).1 <:+ xs := by
  induction xs generalizing ys with
  | nil => cases ys <;> exact List.suffix_rfl
  | cons x xs ih =>
    cases ys with
    | nil => exact List.suffix_rfl
    | cons y ys =>
      rw [mismatch]
      split_ifs
      · exact (ih ys).trans (List.suffix_cons x xs)
      · exact List.suffix_rfl

lemma mismatch_components {p base : FsPath} (h : p.rootDirectory = base.rootDirectory) :
    mismatch p.components base.components = mismatch p.elements base.elements := by
  rw [components, components, h]
  cases base.rootDirectory
  · rfl
  · exact if_pos rfl

lemma separated_append {p q : FsPath} (hp : p.Separated) (hq : q.Separated) : (p.append q).Separated := by
  have hstem : ∀ name ∈ (if p.filename = [] then p.elements.dropLast else p.elements), 47 ∉ name := by
    intro name hname
    refine hp name ?_
    split_ifs at hname
    · exact List.dropLast_subset _ hname
    · exact hname
  rw [append]
  by_cases hroot : q.rootDirectory = true
  · rwa [if_pos hroot]
  rw [if_neg hroot]
  by_cases hnil : q.elements = []
  · simp only [if_pos hnil, Separated]
    split_ifs
    · exact hp
    · exact List.forall_mem_append.mpr ⟨hp, by simp⟩
  · simp only [if_neg hnil]
    exact List.forall_mem_append.mpr ⟨hstem, hq⟩

lemma separated_foldl_append {acc : FsPath} {names : List Bytes} (hacc : acc.Separated)
    (hnames : ∀ name ∈ names, 47 ∉ name) :
    (names.foldl (fun q name => q.append { elements := if name = [] then [] else [name] }) acc).Separated := by
  induction names generalizing acc with
  | nil => exact hacc
  | cons name names ih =>
    obtain ⟨hname, hnames⟩ := List.forall_mem_cons.mp hnames
    refine ih (separated_append hacc ?_) hnames
    rw [Separated]
    split_ifs
    · exact List.forall_mem_nil _
    · exact List.forall_mem_singleton.mpr hname

lemma separated_lexicallyRelative {p : FsPath} (h : p.Separated) (base : FsPath) :
    (p.lexicallyRelative base).Separated := by
  have hempty : ({} : FsPath).Separated := List.forall_mem_nil _
  have hdot : ({ elements := [dot] } : FsPath).Separated := List.forall_mem_singleton.mpr (by decide)
  rw [lexicallyRelative]
  by_cases hroot : p.rootDirectory = base.rootDirectory
  · rw [if_neg (not_not_intro hroot), mismatch_components hroot]
    have hrest := (mismatch_fst_suffix p.elements base.elements).subset
    generalize mismatch p.elements base.elements = split at *
    simp only
    split_ifs
    · exact hdot
    · exact hempty
    · exact hdot
    · refine separated_foldl_append hempty
        (List.forall_mem_append.mpr ⟨?_, fun name hname => h name (hrest hname)⟩)
      intro name hname
      rw [(List.mem_replicate.mp hname).2]
      decide
  · rw [if_pos hroot]
    exact hempty

end Relative

end DltxtBridge.FsPath
