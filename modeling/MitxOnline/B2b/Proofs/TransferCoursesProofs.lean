import MitxOnline.B2b.Proofs.TransferTablesProofs

/-!
# Departments and courses that an import creates

Departments and courses, the latter with their pages and variant options, are found by a key or created. For
each kind of row: what is created, when it can be, and that a request that comes again finds the row as it
left it.
-/

namespace MitxOnline

open Upserts

/-! ## Departments -/

section Departments

variable {site : Site} {departments : Dict Text Text} {names : List Text}

def createDepartment (site : Site) (departments : Dict Text Text) (name : Text) : Option Text :=
  if departments.values.contains (site.slugify name) = true then none else some (site.slugify name)

theorem findsOrCreates_department :
    FindsOrCreates (getOrCreateDepartment site) id (createDepartment site) fun _ _ => True where
  found {d name slug} (hget : d.get name = some slug) _ := by
    unfold getOrCreateDepartment
    rw [hget]
  created {d name d'} (hget : d.get name = none) := by
    unfold getOrCreateDepartment createDepartment
    rw [hget]
    dsimp only
    split <;> simp [eq_comm]
  done _ := trivial

theorem consistent_id {as : List Text} : Consistent id as := fun _ _ _ _ h => h

/-- The departments can be found or created exactly if the new ones have new slugs. -/
theorem departments_ok_iff : (∃ departments', names.foldlM (getOrCreateDepartment site) departments =
    .ok departments') ↔ DepartmentsFit site departments names := by
  have hcons : Consistent id names := consistent_id
  have hknown : Known id (fun _ _ => True) departments names := fun _ _ _ _ => trivial
  have hrun := findsOrCreates_department.run_ok_iff Dict.values
    (takeFitting (fun slug slug' => slug != slug') (fun _ => true) site.slugify)
    (fun d name hget => by
      unfold takeFitting createDepartment
      by_cases hmem : site.slugify name ∈ d.values
      · rw [if_pos (List.contains_iff_mem.mpr hmem), if_neg fun h => bne_iff_ne.mp (h.2 _ hmem) rfl]
        rfl
      · rw [if_neg (mt List.contains_iff_mem.mp hmem), if_pos ⟨rfl, fun slug hslug => bne_iff_ne.mpr fun heq => hmem (heq ▸ hslug)⟩,
          Option.map_some, Dict.values_set_of_new hget])
    hknown hcons
  have hmem : ∀ name, name ∈ firstsBy id departments.keys names ↔ name ∈ names ∧ name ∉ departments.keys :=
    fun name => mem_firstsBy_iff consistent_id
  have hnodup : (firstsBy id departments.keys names).Nodup := firstsBy_id_nodup
  rw [hrun, foldlM_takeFitting_isSome_iff]
  constructor
  · rintro ⟨-, hfresh, hpairs⟩
    constructor
    · intro name hname hnew hslug
      exact bne_iff_ne.mp (hfresh name ((hmem name).mpr ⟨hname, hnew⟩) _ hslug) rfl
    · intro name hname name' hname' hnew hnew' hne
      have hsymm : Std.Symm fun a b => (site.slugify a != site.slugify b) = true :=
        ⟨fun a b h => bne_iff_ne.mpr (bne_iff_ne.mp h).symm⟩
      exact bne_iff_ne.mp (hpairs.forall ((hmem name).mpr ⟨hname, hnew⟩)
        ((hmem name').mpr ⟨hname', hnew'⟩) hne)
  · intro h
    refine ⟨fun _ _ => rfl, fun name hname slug hslug => bne_iff_ne.mpr fun heq => ?_, ?_⟩
    · obtain ⟨hname, hnew⟩ := (hmem name).mp hname
      exact h.fresh name hname hnew (heq ▸ hslug)
    · refine hnodup.imp_of_mem fun hname hname' hne => bne_iff_ne.mpr ?_
      obtain ⟨hname, hnew⟩ := (hmem _).mp hname
      obtain ⟨hname', hnew'⟩ := (hmem _).mp hname'
      exact h.different _ hname _ hname' hnew hnew' hne

end Departments

/-! ## Variant options -/

section Variants

variable {site : Site} {rows rows' : List StoredVariant} {data : List VariantOption}

/-- The row that is created for variant options. -/
def VariantOption.row (vd : VariantOption) : StoredVariant := ⟨⟨vd.options, true, vd.defaultVariant⟩, vd.b2bOnly⟩

/-- What `SupportedVariant` checks of a row by itself. -/
def VariantOption.valid (site : Site) (vd : VariantOption) : Bool :=
  (cleanLanguage site.languagesLookup (String.ofList vd.options.language)).isOk &&
    !(vd.defaultVariant && vd.b2bOnly)

theorem VariantOption.valid_iff {vd : VariantOption} : vd.valid site = true ↔
    cleanLanguage site.languagesLookup (String.ofList vd.options.language) = .ok () ∧
      (vd.defaultVariant = true → vd.b2bOnly = false) := by
  unfold VariantOption.valid
  rw [Bool.and_eq_true, Bool.not_eq_true', Bool.and_eq_false_imp]
  refine and_congr_left fun _ => ?_
  cases cleanLanguage site.languagesLookup (String.ofList vd.options.language) with
  | error e => exact iff_of_false Bool.false_ne_true (fun h => nomatch h)
  | ok u => exact iff_of_true rfl rfl

/-- Options are created if their row is valid and no other default is there. -/
def takeVariant (site : Site) : List StoredVariant → VariantOption → Option (List StoredVariant) :=
  takeFitting (fun row row' => !(row.defaultVariant && row'.defaultVariant)) (VariantOption.valid site)
    VariantOption.row

theorem takeVariant_eq {vd : VariantOption} (h : takeVariant site rows vd = some rows') :
    rows' = rows ++ [vd.row] := by
  unfold takeVariant takeFitting at h
  split at h
  · exact (Option.some.inj h).symm
  · cases h

theorem upsertVariantOption_of_new {vd : VariantOption} (h : vd.options ∉ rows.map (·.options)) :
    upsertVariantOption site rows vd = .ok rows' ↔ takeVariant site rows vd = some rows' := by
  have hnone : rows.filter (·.options == vd.options) = [] := by
    refine List.filter_eq_nil_iff.mpr fun row hrow heq => h ?_
    exact List.mem_map.mpr ⟨row, hrow, beq_iff_eq.mp heq⟩
  have hfits : (∀ row ∈ rows, (!(row.defaultVariant && vd.row.defaultVariant)) = true) ↔
      (vd.defaultVariant = true → rows.any (·.defaultVariant) = false) := by
    rw [List.any_eq_false]
    constructor
    · intro hall hdefault row hrow hrowDefault
      have hrow := hall row hrow
      rw [hrowDefault, show vd.row.defaultVariant = true from hdefault] at hrow
      cases hrow
    · intro hall row hrow
      rw [Bool.not_eq_true', Bool.and_eq_false_imp]
      intro hrowDefault
      by_contra hdefault
      exact hall (Bool.not_eq_false _ ▸ hdefault) row hrow hrowDefault
  have hcheck : checkVariant site rows vd.row = .ok () ↔
      vd.valid site = true ∧ ∀ row ∈ rows, (!(row.defaultVariant && vd.row.defaultVariant)) = true := by
    rw [VariantOption.valid_iff, hfits]
    unfold checkVariant
    rw [bind_ok_iff]
    constructor
    · rintro ⟨u, hlanguage, hif⟩
      have hnot : ¬(vd.defaultVariant = true ∧ (vd.b2bOnly = true ∨ rows.any (·.defaultVariant) = true)) := by
        intro hbad
        cases (if_pos hbad).symm.trans hif
      simp only [not_and, not_or, Bool.not_eq_true] at hnot
      exact ⟨⟨hlanguage, fun hdefault => (hnot hdefault).1⟩, fun hdefault => (hnot hdefault).2⟩
    · rintro ⟨⟨hlanguage, hb2b⟩, hdefaults⟩
      refine ⟨(), hlanguage, if_neg ?_⟩
      rintro ⟨hdefault, hor⟩
      rcases hor with hor | hor
      · exact Bool.false_ne_true ((hb2b hdefault).symm.trans hor)
      · exact Bool.false_ne_true ((hdefaults hdefault).symm.trans hor)
  unfold upsertVariantOption takeVariant takeFitting
  rw [hnone]
  dsimp only
  rw [bind_ok_iff]
  constructor
  · rintro ⟨u, hu, heq⟩
    rw [if_pos (hcheck.mp hu)]
    exact congrArg some (Except.ok.inj heq)
  · intro htake
    split at htake
    · rename_i h
      exact ⟨(), hcheck.mpr h, congrArg Except.ok (Option.some.inj htake)⟩
    · cases htake

/-- Options that have one row are left as they are. -/
theorem upsertVariantOption_of_mem {vd : VariantOption} (hnodup : (rows.map (·.options)).Nodup)
    (h : vd.options ∈ rows.map (·.options)) : upsertVariantOption site rows vd = .ok rows := by
  obtain ⟨row, hrow, hoptions⟩ := List.mem_map.mp h
  have hone : rows.filter (·.options == vd.options) = [row] := by
    obtain ⟨before, rest, rfl⟩ := List.append_of_mem hrow
    rw [List.map_append, List.map_cons, List.nodup_append, List.nodup_cons] at hnodup
    have hbefore : before.filter (·.options == vd.options) = [] := by
      refine List.filter_eq_nil_iff.mpr fun other hother heq => ?_
      have hsame := (beq_iff_eq.mp heq).trans hoptions.symm
      exact hnodup.2.2 _ (List.mem_map_of_mem hother) _ List.mem_cons_self hsame
    have hrest : rest.filter (·.options == vd.options) = [] := by
      refine List.filter_eq_nil_iff.mpr fun other hother heq => ?_
      have hsame := (beq_iff_eq.mp heq).trans hoptions.symm
      exact hnodup.2.1.1 (hsame ▸ List.mem_map_of_mem hother)
    have hpos : (row.options == vd.options) = true := beq_iff_eq.mpr hoptions
    rw [List.filter_append, hbefore, List.filter_cons, if_pos hpos, hrest]
    rfl
  unfold upsertVariantOption
  rw [hone]

/-- Different options are created one after the other. -/
theorem upsertVariantOptions_of_new (h : (rows.map (·.options) ++ data.map (·.options)).Nodup) :
    upsertVariantOptions site rows data = .ok rows' ↔ data.foldlM (takeVariant site) rows = some rows' := by
  induction data generalizing rows with
  | nil => exact foldlM_nil_ok_iff.trans (by simp)
  | cons vd rest ih =>
    have hnew : vd.options ∉ rows.map (·.options) := fun hmem =>
      (List.nodup_append.mp h).2.2 _ hmem _ List.mem_cons_self rfl
    unfold upsertVariantOptions
    rw [foldlM_cons_ok_iff, List.foldlM_cons, Option.bind_eq_bind, Option.bind_eq_some_iff]
    refine exists_congr fun rows₁ => ?_
    rw [upsertVariantOption_of_new hnew]
    refine and_congr_right fun htake => ih ?_
    rw [takeVariant_eq htake, List.map_append, List.append_assoc]
    exact h

/-- What is created for different options, and when. -/
theorem upsertVariantOptions_nil_iff (h : (data.map (·.options)).Nodup) :
    upsertVariantOptions site [] data = .ok rows ↔
      rows = data.map VariantOption.row ∧ VariantsFit site data := by
  have hnew : (([] : List StoredVariant).map (·.options) ++ data.map (·.options)).Nodup := h
  rw [upsertVariantOptions_of_new hnew, takeVariant, foldlM_takeFitting_eq_some_iff, List.nil_append]
  refine and_congr_right fun _ => ?_
  have hpair : ∀ vd vd' : VariantOption, (!(vd.row.defaultVariant && vd'.row.defaultVariant)) = true ↔
      ¬(vd.defaultVariant = true ∧ vd'.defaultVariant = true) := by
    intro vd vd'
    rw [Bool.not_eq_true', Bool.eq_false_iff, ne_eq, Bool.and_eq_true]
    rfl
  simp only [VariantOption.valid_iff, hpair]
  constructor
  · rintro ⟨hvalid, -, hpairs⟩
    exact ⟨h, fun vd hvd => (hvalid vd hvd).1, fun vd hvd => (hvalid vd hvd).2, hpairs⟩
  · rintro ⟨-, hlanguages, hb2b, hpairs⟩
    exact ⟨fun vd hvd => ⟨hlanguages vd hvd, hb2b vd hvd⟩, fun _ _ _ hrow => (List.not_mem_nil hrow).elim, hpairs⟩

/-- The options of the rows stay different, and all options of the payload are there. -/
theorem upsertVariantOptions_spec (h : upsertVariantOptions site rows data = .ok rows')
    (hnodup : (rows.map (·.options)).Nodup) :
    (rows'.map (·.options)).Nodup ∧ (∀ options ∈ rows.map (·.options), options ∈ rows'.map (·.options)) ∧
      ∀ vd ∈ data, vd.options ∈ rows'.map (·.options) := by
  induction data generalizing rows with
  | nil =>
    obtain rfl := foldlM_nil_ok_iff.mp h
    exact ⟨hnodup, fun _ hmem => hmem, by simp⟩
  | cons vd rest ih =>
    obtain ⟨rows₁, hstep, hrest⟩ := foldlM_cons_ok_iff.mp h
    have hrows₁ : (rows₁.map (·.options)).Nodup ∧
        ∀ options, options ∈ rows₁.map (·.options) ↔ options ∈ rows.map (·.options) ∨ options = vd.options := by
      by_cases hmem : vd.options ∈ rows.map (·.options)
      · obtain rfl := Except.ok.inj ((upsertVariantOption_of_mem hnodup hmem).symm.trans hstep)
        exact ⟨hnodup, fun options => (or_iff_left_of_imp fun heq => heq ▸ hmem).symm⟩
      · have htake := (upsertVariantOption_of_new hmem).mp hstep
        have hmap : rows₁.map (·.options) = rows.map (·.options) ++ [vd.options] := by
          rw [takeVariant_eq htake, List.map_append]
          rfl
        rw [hmap]
        exact ⟨OrderedSet.nodup_concat hnodup hmem, fun options => by
          rw [List.mem_append, List.mem_singleton]⟩
    obtain ⟨hnodup', hkept, hall⟩ := ih hrest hrows₁.1
    refine ⟨hnodup', fun options hmem => hkept options ((hrows₁.2 options).mpr (.inl hmem)), ?_⟩
    rw [List.forall_mem_cons]
    exact ⟨hkept _ ((hrows₁.2 _).mpr (.inr rfl)), hall⟩

/-- Options that are all there change nothing. -/
theorem upsertVariantOptions_of_mem (hnodup : (rows.map (·.options)).Nodup)
    (h : ∀ vd ∈ data, vd.options ∈ rows.map (·.options)) :
    upsertVariantOptions site rows data = .ok rows := by
  induction data with
  | nil => rfl
  | cons vd rest ih =>
    refine foldlM_cons_ok_iff.mpr ⟨rows, upsertVariantOption_of_mem hnodup (h vd List.mem_cons_self), ?_⟩
    exact ih fun vd' hvd' => h vd' (List.mem_cons_of_mem vd hvd')

end Variants

/-! ## Pages -/

section Pages

variable {site : Site} {addPage : List WagtailPage → WagtailPage → Option Text} {siblings : List WagtailPage}
  {readableId title : Text} {page : WagtailPage}

theorem ensureCoursewarePage_of_none :
    ensureCoursewarePage site addPage siblings readableId title none = .ok page ↔
      ∃ slug, addPage siblings (defaultCoursewarePage site readableId title) = some slug ∧
        page = { defaultCoursewarePage site readableId title with slug := slug } := by
  unfold ensureCoursewarePage
  dsimp only
  cases addPage siblings (defaultCoursewarePage site readableId title) with
  | none => simp
  | some slug =>
    simp only [Except.ok.injEq, Option.some.injEq, exists_eq_left']
    exact eq_comm

theorem ensureCoursewarePage_of_live (h : page.live = true) :
    ensureCoursewarePage site addPage siblings readableId title (some page) = .ok page := by
  unfold ensureCoursewarePage
  cases page
  cases h
  rfl

end Pages

/-! ## Courses -/

section Courses

variable {site : Site} {courses courses' : Dict Text CourseRecord} {data : List CourseData}

/-- The checks of a course that do not depend on the other courses. -/
def CourseData.allowed (site : Site) (data : CourseData) : Bool :=
  (upsertVariantOptions site [] data.variantOptions).isOk

/-- The row that the import creates for a course. -/
def createCourse (site : Site) (courses : Dict Text CourseRecord) (data : CourseData) : Option CourseRecord :=
  let page := defaultCoursewarePage site data.readableId data.title
  if data.allowed site = true then
    (site.addCoursePage (coursePages courses) page).map fun slug =>
      { title := data.title
        live := true
        departments := OrderedSet.empty.addAll data.departments
        page := some { page with slug := slug }
        variantOptions := (upsertVariantOptions site [] data.variantOptions).toOption.getD [] }
  else none

/-- The import of a course has nothing to do to the row. -/
structure CourseDone (data : CourseData) (course : CourseRecord) : Prop where
  departments : ∀ name ∈ data.departments, name ∈ course.departments.elements
  page : ∃ page, course.page = some page ∧ page.live = true
  different : (course.variantOptions.map (·.options)).Nodup
  variantOptions : ∀ vd ∈ data.variantOptions, vd.options ∈ course.variantOptions.map (·.options)

theorem allowed_iff {c : CourseData} : c.allowed site = true ↔
    ∃ rows, upsertVariantOptions site [] c.variantOptions = .ok rows := by
  unfold CourseData.allowed
  cases upsertVariantOptions site [] c.variantOptions with
  | error e => exact iff_of_false Bool.false_ne_true fun ⟨rows, h⟩ => nomatch h
  | ok rows => exact iff_of_true rfl ⟨rows, rfl⟩

theorem createCourse_eq_some_iff {c : CourseData} {course : CourseRecord} :
    createCourse site courses c = some course ↔
      ∃ rows slug,
        upsertVariantOptions site [] c.variantOptions = .ok rows ∧
        site.addCoursePage (coursePages courses) (defaultCoursewarePage site c.readableId c.title) = some slug ∧
        course = ⟨c.title, true, OrderedSet.empty.addAll c.departments,
          some { defaultCoursewarePage site c.readableId c.title with slug := slug }, rows⟩ := by
  unfold createCourse
  constructor
  · intro h
    by_cases hallowed : c.allowed site = true
    · rw [if_pos hallowed, Option.map_eq_some_iff] at h
      obtain ⟨slug, hslug, rfl⟩ := h
      obtain ⟨rows, hrows⟩ := allowed_iff.mp hallowed
      exact ⟨rows, slug, hrows, hslug, by rw [hrows]; rfl⟩
    · rw [if_neg hallowed] at h
      cases h
  · rintro ⟨rows, slug, hrows, hslug, rfl⟩
    rw [if_pos (allowed_iff.mpr ⟨rows, hrows⟩), hslug, hrows]
    rfl

theorem findsOrCreates_course :
    FindsOrCreates (serveCourse site) (·.readableId) (createCourse site) CourseDone where
  found {courses c course} hget hdone := by
    obtain ⟨page, hpage, hlive⟩ := hdone.page
    simp only [serveCourse, getOrCreateCourse, hget, Option.getD_some, bind_ok_iff]
    refine ⟨page, ?_, course.variantOptions, ?_, ?_⟩
    · rw [hpage]
      exact ensureCoursewarePage_of_live hlive
    · exact upsertVariantOptions_of_mem hdone.different hdone.variantOptions
    · rw [OrderedSet.addAll_of_subset hdone.departments, ← hpage]
      exact congrArg Except.ok (Dict.set_get_self hget)
  created {courses c courses'} hget := by
    simp only [serveCourse, getOrCreateCourse, hget, Option.getD_none, bind_ok_iff,
      createCourse_eq_some_iff]
    constructor
    · rintro ⟨page, hpage, rows, hrows, heq⟩
      obtain ⟨slug, hslug, rfl⟩ := ensureCoursewarePage_of_none.mp hpage
      exact ⟨_, ⟨rows, slug, hrows, hslug, rfl⟩, (Except.ok.inj heq).symm⟩
    · rintro ⟨course, ⟨rows, slug, hrows, hslug, rfl⟩, rfl⟩
      exact ⟨_, ensureCoursewarePage_of_none.mpr ⟨slug, hslug, rfl⟩, rows, hrows, rfl⟩
  done {courses c course} hcreate := by
    obtain ⟨rows, slug, hrows, -, rfl⟩ := createCourse_eq_some_iff.mp hcreate
    obtain ⟨hdifferent, -, hall⟩ := upsertVariantOptions_spec hrows List.nodup_nil
    exact ⟨fun name hname => OrderedSet.mem_addAll.mpr (.inr hname), ⟨_, rfl, rfl⟩, hdifferent, hall⟩

/-- New courses can be created exactly if each of them can be and their pages are taken one after the
other. -/
theorem courses_ok_iff (hcons : Consistent (·.readableId) data) (hnew : ∀ c ∈ data, c.readableId ∉ courses.keys) :
    (∃ courses', data.foldlM (serveCourse site) courses = .ok courses') ↔
      (∀ c ∈ data, c.allowed site = true) ∧
        PagesFit site.addCoursePage (coursePages courses) ((firstsBy (·.readableId) [] data).map fun c =>
          defaultCoursewarePage site c.readableId c.title) := by
  have hrun := findsOrCreates_course.run_ok_iff coursePages
    (fun pages c => if c.allowed site = true then placePage site.addCoursePage pages
      (defaultCoursewarePage site c.readableId c.title) else none)
    (fun d c hget => by
      by_cases hallowed : c.allowed site = true
      · unfold createCourse placePage
        rw [if_pos hallowed, if_pos hallowed, Option.map_map]
        refine Option.map_congr fun slug _ => ?_
        simp [coursePages, Dict.values_set_of_new hget]
      · unfold createCourse
        rw [if_neg hallowed, if_neg hallowed]
        rfl)
    (fun c hc v hv => absurd (Dict.mem_keys_iff.mpr ⟨v, hv⟩) (hnew c hc)) hcons
  have hfirsts : firstsBy (·.readableId) courses.keys data = firstsBy (·.readableId) [] data :=
    firstsBy_congr fun c hc => iff_of_false (hnew c hc) List.not_mem_nil
  rw [hrun, hfirsts, foldlM_guarded_isSome_iff]
  refine and_congr_left fun _ => forall_congr' fun c => ?_
  rw [mem_firstsBy_iff hcons, and_iff_left List.not_mem_nil]

end Courses

end MitxOnline
