import RowStore.ColumnName
import RowStore.Proofs.Checks
import RowStore.Proofs.Infix

/-!
# Which field names survive

A column name is read from the left, so an underscore of the field can take the place of the first
underscore of a marker. That happens exactly where `_dot` stands before a dot.
-/

namespace RowStore.ColumnName

/-- Text that a dot behind it completes to a marker, with that dot. -/
def torn : List Char := ['_', 'd', 'o', 't', '.']

/-- Two markers that share an underscore. -/
def overlap : List Char := ['_', 'd', 'o', 't', '_', 'd', 'o', 't', '_']

/-! ## One character at a time -/

theorem columnChars_nil : columnChars [] = [] := rfl

theorem columnChars_dot (cs : List Char) : columnChars ('.' :: cs) = marker ++ columnChars cs := by
  simp [columnChars]

theorem columnChars_cons (c : Char) (cs : List Char) (h : c ≠ '.') :
    columnChars (c :: cs) = c :: columnChars cs := by
  simp [columnChars, h]

theorem columnChars_append (cs ds : List Char) :
    columnChars (cs ++ ds) = columnChars cs ++ columnChars ds := by
  simp [columnChars]

theorem columnChars_eq_nil (cs : List Char) : columnChars cs = [] ↔ cs = [] := by
  cases cs with
  | nil => simp [columnChars]
  | cons c cs => by_cases h : c = '.' <;> simp [columnChars, h, marker]

theorem dot_notMem_columnChars (cs : List Char) : '.' ∉ columnChars cs := by
  induction cs with
  | nil => simp [columnChars]
  | cons c cs ih =>
    by_cases h : c = '.'
    · subst h
      rw [columnChars_dot, List.mem_append]
      rintro (hm | hm)
      · simp [marker] at hm
      · exact ih hm
    · rw [columnChars_cons c cs h, List.mem_cons]
      rintro (hm | hm)
      · exact h hm.symm
      · exact ih hm

theorem fieldChars_nil : fieldChars [] = [] := by rw [fieldChars]

theorem fieldChars_marker (cs : List Char) : fieldChars (marker ++ cs) = '.' :: fieldChars cs := by
  rw [marker, List.cons_append, List.cons_append, List.cons_append, List.cons_append,
    List.cons_append, List.nil_append, fieldChars]

theorem fieldChars_cons (c : Char) (cs : List Char) (h : ¬ marker <+: c :: cs) :
    fieldChars (c :: cs) = c :: fieldChars cs := by
  rw [fieldChars]
  rintro rest rfl rfl
  exact h ⟨rest, rfl⟩

theorem fieldChars_cases (P : List Char → Prop) (nil : P [])
    (mark : ∀ cs, P cs → P (marker ++ cs))
    (char : ∀ c cs, ¬ marker <+: c :: cs → P cs → P (c :: cs)) (cs : List Char) : P cs := by
  induction cs using fieldChars.induct with
  | case1 rest ih => exact mark rest ih
  | case2 c rest hne ih =>
    refine char c rest ?_ ih
    rintro ⟨t, ht⟩
    simp only [marker, List.cons_append, List.nil_append, List.cons.injEq] at ht
    exact hne t ht.1.symm ht.2.symm
  | case3 => exact nil

/-! ## From columns to fields and back -/

theorem columnChars_fieldChars (cs : List Char) (h : '.' ∉ cs) :
    columnChars (fieldChars cs) = cs := by
  induction cs using fieldChars_cases with
  | nil => rw [fieldChars_nil, columnChars_nil]
  | mark cs ih =>
    rw [fieldChars_marker, columnChars_dot, ih (fun hm => h (List.mem_append_right _ hm))]
  | char c cs hc ih =>
    rw [List.mem_cons, not_or] at h
    rw [fieldChars_cons c cs hc, columnChars_cons _ _ (Ne.symm h.1), ih h.2]

theorem prefix_of_prefix_fieldChars (p cs : List Char) (hp : '.' ∉ p) (h : p <+: fieldChars cs) :
    p <+: cs := by
  induction p generalizing cs with
  | nil => exact List.nil_prefix
  | cons a p ih =>
    rw [List.mem_cons, not_or] at hp
    induction cs using fieldChars_cases with
    | nil => simp [fieldChars_nil] at h
    | mark cs _ =>
      rw [fieldChars_marker, List.cons_prefix_cons] at h
      exact absurd h.1.symm hp.1
    | char c cs hc _ =>
      rw [fieldChars_cons c cs hc, List.cons_prefix_cons] at h
      exact List.cons_prefix_cons.mpr ⟨h.1, ih cs hp.2 h.2⟩

theorem marker_not_infix_fieldChars (cs : List Char) : ¬ marker <:+: fieldChars cs := by
  induction cs using fieldChars_cases with
  | nil => simp [fieldChars_nil, marker]
  | mark cs ih =>
    rw [fieldChars_marker, List.infix_cons_iff]
    rintro (h | h)
    · simp [marker] at h
    · exact ih h
  | char c cs hc ih =>
    rw [fieldChars_cons c cs hc, List.infix_cons_iff]
    rintro (h | h)
    · apply hc
      rw [marker, List.cons_prefix_cons] at h ⊢
      exact ⟨h.1, prefix_of_prefix_fieldChars _ cs (by decide) h.2⟩
    · exact ih h

theorem prefix_columnChars_cons (a : Char) (p cs : List Char) (ha : a ≠ '_')
    (h : a :: p <+: columnChars cs) : ∃ rest, cs = a :: rest ∧ p <+: columnChars rest := by
  cases cs with
  | nil => simp [columnChars_nil] at h
  | cons c cs =>
    by_cases hc : c = '.'
    · subst hc
      rw [columnChars_dot, marker, List.cons_append, List.cons_prefix_cons] at h
      exact absurd h.1 ha
    · rw [columnChars_cons c cs hc, List.cons_prefix_cons] at h
      exact ⟨cs, by rw [h.1], h.2⟩

theorem underscore_prefix_columnChars (cs : List Char) :
    ['_'] <+: columnChars cs ↔ ['_'] <+: cs ∨ ['.'] <+: cs := by
  cases cs with
  | nil => simp [columnChars_nil]
  | cons c cs =>
    by_cases hc : c = '.'
    · subst hc
      simp [columnChars_dot, marker]
    · rw [columnChars_cons c cs hc]
      simp [Ne.symm hc]

theorem marker_prefix_columnChars_cons (c : Char) (cs : List Char) :
    marker <+: c :: columnChars cs ↔ marker <+: c :: cs ∨ torn <+: c :: cs := by
  simp only [marker, torn, List.cons_prefix_cons]
  constructor
  · rintro ⟨h0, h⟩
    obtain ⟨r1, rfl, h1⟩ := prefix_columnChars_cons _ _ _ (by decide) h
    obtain ⟨r2, rfl, h2⟩ := prefix_columnChars_cons _ _ _ (by decide) h1
    obtain ⟨r3, rfl, h3⟩ := prefix_columnChars_cons _ _ _ (by decide) h2
    -- The last character of the marker is in the field, or begins the marker of a dot.
    rw [underscore_prefix_columnChars] at h3
    rcases h3 with h3 | h3
    · exact Or.inl ⟨h0, by simpa using h3⟩
    · exact Or.inr ⟨h0, by simpa using h3⟩
  · rintro (⟨h0, r, rfl⟩ | ⟨h0, r, rfl⟩)
    · exact ⟨h0, by simp [columnChars]⟩
    · exact ⟨h0, by simp [columnChars, marker]⟩

theorem fieldChars_columnChars_iff (cs : List Char) :
    fieldChars (columnChars cs) = cs ↔ ¬ marker <:+: cs ∧ ¬ torn <:+: cs := by
  induction cs with
  | nil => simp [columnChars_nil, fieldChars_nil, marker, torn]
  | cons c cs ih =>
    simp only [List.infix_cons_iff, not_or]
    by_cases hc : c = '.'
    · subst hc
      rw [columnChars_dot, fieldChars_marker, List.cons_inj_right, ih]
      simp [marker, torn]
    · rw [columnChars_cons c cs hc]
      have hstart := marker_prefix_columnChars_cons c cs
      by_cases hm : marker <+: c :: columnChars cs
      · -- The reading takes a marker here and so begins with a dot.
        have hne : fieldChars (c :: columnChars cs) ≠ c :: cs := by
          obtain ⟨rest, hrest⟩ := hm
          rw [← hrest, fieldChars_marker]
          intro h
          exact hc (List.cons.inj h).1.symm
        rcases hstart.mp hm with h | h <;> simp [hne, h]
      · rw [fieldChars_cons c _ hm, List.cons_inj_right, ih]
        rw [hstart, not_or] at hm
        simp [hm]

/-! ## Fields that share a column -/

theorem overlap_infix_of_torn (cs : List Char) (h : torn <:+: cs) :
    overlap <:+: columnChars cs := by
  obtain ⟨x, y, rfl⟩ := h
  refine ⟨columnChars x, columnChars y, ?_⟩
  rw [columnChars_append, columnChars_append]
  rfl

theorem marker_not_infix_append_dot (p q : List Char) (hp : ¬ marker <:+: p)
    (hq : ¬ marker <:+: q) : ¬ marker <:+: p ++ '.' :: q := by
  rw [infix_append_cons (by decide) (by decide)]
  exact not_or.mpr ⟨hp, hq⟩

/-- A column with an overlap can be cut into markers in two ways. -/
theorem two_fields_of_overlap (x y : List Char) (hx : '.' ∉ x) (hy : '.' ∉ y) :
    ∃ as bs, as ≠ bs ∧ ¬ marker <:+: as ∧ ¬ marker <:+: bs ∧
      columnChars as = x ++ overlap ++ y ∧ columnChars bs = x ++ overlap ++ y := by
  have hx' : '.' ∉ x ++ ['_', 'd', 'o', 't'] := by simp [hx]
  have hy' : '.' ∉ ['d', 'o', 't', '_'] ++ y := by simp [hy]
  -- In one field the dot stands for the second marker, in the other for the first.
  refine ⟨fieldChars (x ++ ['_', 'd', 'o', 't']) ++ '.' :: fieldChars y,
    fieldChars x ++ '.' :: fieldChars (['d', 'o', 't', '_'] ++ y), ?_, ?_, ?_, ?_, ?_⟩
  · intro h
    have hlong := columnChars_fieldChars _ hx'
    have hshort := columnChars_fieldChars x hx
    rcases List.append_eq_append_iff.mp h with ⟨e, he, -⟩ | ⟨e, he, hdot⟩
    · rw [he, columnChars_append, hlong] at hshort
      have := congrArg List.length hshort
      simp at this
    · rw [he, columnChars_append, hshort, List.append_cancel_left_eq] at hlong
      cases e with
      | nil => simp [columnChars_nil] at hlong
      | cons c e =>
        obtain rfl : '.' = c := (List.cons.inj hdot).1
        have := congrArg List.length hlong
        simp [columnChars_dot, marker] at this
  · exact marker_not_infix_append_dot _ _ (marker_not_infix_fieldChars _)
      (marker_not_infix_fieldChars _)
  · exact marker_not_infix_append_dot _ _ (marker_not_infix_fieldChars _)
      (marker_not_infix_fieldChars _)
  · rw [columnChars_append, columnChars_dot, columnChars_fieldChars _ hx',
      columnChars_fieldChars y hy]
    simp [overlap, marker]
  · rw [columnChars_append, columnChars_dot, columnChars_fieldChars x hx,
      columnChars_fieldChars _ hy']
    simp [overlap, marker]

theorem columnChars_unique_iff (cs : List Char) (h : ¬ marker <:+: cs) :
    (∀ ds, ¬ marker <:+: ds → columnChars ds = columnChars cs → ds = cs) ↔
      ¬ overlap <:+: columnChars cs := by
  constructor
  · rintro hone ⟨x, y, hxy⟩
    have hdot := dot_notMem_columnChars cs
    rw [← hxy, List.mem_append, List.mem_append, not_or, not_or] at hdot
    obtain ⟨as, bs, hne, ha, hb, hca, hcb⟩ := two_fields_of_overlap x y hdot.1.1 hdot.2
    rw [hxy] at hca hcb
    exact hne ((hone as ha hca).trans (hone bs hb hcb).symm)
  · intro hno ds hds heq
    -- Where nothing overlaps nothing is torn, so every field is read back from the column.
    have back : ∀ es, ¬ marker <:+: es → columnChars es = columnChars cs →
        fieldChars (columnChars cs) = es := by
      intro es hes he
      rw [← he, fieldChars_columnChars_iff]
      refine ⟨hes, fun ht => hno ?_⟩
      rw [← he]
      exact overlap_infix_of_torn es ht
    rw [← back ds hds heq, back cs h rfl]

/-! ## Accepted names -/

theorem ofField?_eq_ok_iff (name column : String) :
    ofField? name = .ok column ↔
      name ≠ "" ∧ ¬ marker <:+: name.toList ∧ column = ofField name := by
  unfold ofField?
  rw [← Text.occursIn_iff, ne_eq, ← String.isEmpty_iff]
  split
  · simp [*]
  · split
    · simp [*]
    · simp only [Except.ok.injEq, *]
      simp [eq_comm]

theorem toField_ofField_iff (name : String) :
    toField (ofField name) = name ↔ ¬ marker <:+: name.toList ∧ ¬ torn <:+: name.toList := by
  rw [← fieldChars_columnChars_iff, ← String.toList_inj]
  simp [toField, ofField]

theorem mapM_ofField?_eq_ok {names columns : List String}
    (h : names.mapM ofField? = .ok columns) :
    columns = names.map ofField ∧ ∀ name ∈ names, ofField? name = .ok (ofField name) :=
  Checks.eq_map_of_mapM (fun name column h => ((ofField?_eq_ok_iff name column).mp h).2.2) h

/-! ## Columns that were read -/

/-- A column without a dot in its name. -/
def Dotless (column : String) : Prop := '.' ∉ column.toList

instance (column : String) : Decidable (Dotless column) := inferInstanceAs (Decidable (¬ _))

theorem ofField_toField {column : String} (h : Dotless column) :
    ofField (toField column) = column := by
  rw [← String.toList_inj, ofField, toField, String.toList_ofList, String.toList_ofList,
    columnChars_fieldChars _ h]

theorem toField_inj {column other : String} (h : Dotless column) (h' : Dotless other)
    (same : toField column = toField other) : column = other := by
  rw [← ofField_toField h, same, ofField_toField h']

theorem ofField?_toField {column : String} (h : Dotless column) (hne : column ≠ "") :
    ofField? (toField column) = .ok column := by
  have hcolumn := ofField_toField h
  refine (ofField?_eq_ok_iff _ _).mpr ⟨?_, ?_, hcolumn.symm⟩
  · intro hempty
    rw [hempty] at hcolumn
    exact hne hcolumn.symm
  · rw [toField, String.toList_ofList]
    exact marker_not_infix_fieldChars column.toList

/-! ## Which names come back -/

/-- A name comes back from its column exactly if it has neither a marker in it nor one that a dot
completes, and no column has a dot. -/
theorem name_comes_back_iff (name : String) :
    (toField (ofField name) = name ↔
      ¬ "_dot_".toList <:+: name.toList ∧ ¬ "_dot.".toList <:+: name.toList) ∧
    Dotless (ofField name) := by
  constructor
  · exact toField_ofField_iff name
  · unfold Dotless ofField
    rw [String.toList_ofList]
    exact dot_notMem_columnChars name.toList

example : toField (ofField "a_dot.b") = "a.dot_b" := by decide

end RowStore.ColumnName
