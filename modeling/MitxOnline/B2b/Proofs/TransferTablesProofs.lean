import MitxOnline.B2b.ContractTransfer

/-!
# An import, table by table

An import asks the tables for rows in an order of its own, but what it does to one table depends on this
table alone. So it does to each table what the requests for its rows do, one after the other.
-/

namespace MitxOnline

open Upserts

/-! ## Requests -/

/-- The requests of an import, for each table. -/
structure TableRequests where
  departments : List Text
  enrollmentModes : List Text
  courses : List CourseData
  courseRuns : List (Text × RunData)
  programs : List ProgramData

def TableRequests.append (r s : TableRequests) : TableRequests where
  departments := r.departments ++ s.departments
  enrollmentModes := r.enrollmentModes ++ s.enrollmentModes
  courses := r.courses ++ s.courses
  courseRuns := r.courseRuns ++ s.courseRuns
  programs := r.programs ++ s.programs

/-- What the import of a course does to the courses. -/
def serveCourse (site : Site) (courses : Dict Text CourseRecord) (data : CourseData) :
    Except Error (Dict Text CourseRecord) := do
  let course := getOrCreateCourse courses data.readableId data.title
  let page ← ensureCoursewarePage site site.addCoursePage (coursePages courses) data.readableId
    course.title course.page
  let variantOptions ← upsertVariantOptions site course.variantOptions data.variantOptions
  let course := { course with
    departments := course.departments.addAll data.departments
    page := some page
    variantOptions := variantOptions }
  .ok (courses.set data.readableId course)

/-- What the import of a run does to the runs. -/
def serveRun (site : Site) (runs : Dict Text RunRecord) (request : Text × RunData) :
    Except Error (Dict Text RunRecord) := importSourceRun site request.1 runs request.2

/-- What the import of a program does to the programs. -/
def serveProgram (site : Site) (programs : Dict Text ProgramRecord) (data : ProgramData) :
    Except Error (Dict Text ProgramRecord) := do
  let program := getOrCreateProgram programs data.readableId data.title
  let page ← ensureCoursewarePage site site.addProgramPage (programPages programs) data.readableId
    program.title program.page
  let (requirements, _) ← (data.courses.map (·.readableId)).foldlM requireCourse
    (program.requirements, program.requirements.courses)
  let program := { program with
    departments := program.departments.addAll data.departments
    page := some page
    requirements := requirements }
  .ok (programs.set data.readableId program)

/-- The requests were served: each table is what its requests make of it. -/
structure TableRequests.Served (site : Site) (r : TableRequests) (inst inst' : Instance) : Prop where
  departments : r.departments.foldlM (getOrCreateDepartment site) inst.departments = .ok inst'.departments
  enrollmentModes : inst.enrollmentModes.addAll r.enrollmentModes = inst'.enrollmentModes
  courses : r.courses.foldlM (serveCourse site) inst.courses = .ok inst'.courses
  courseRuns : r.courseRuns.foldlM (serveRun site) inst.courseRuns = .ok inst'.courseRuns
  programs : r.programs.foldlM (serveProgram site) inst.programs = .ok inst'.programs
  organizations : inst.organizations = inst'.organizations
  contracts : inst.contracts = inst'.contracts

/-- The requests for the runs of a course. -/
def CourseData.runRequests (data : CourseData) : List (Text × RunData) :=
  data.sourceRuns.map fun rd => (data.readableId, rd)

def CourseData.modeRequests (data : CourseData) : List Text := data.sourceRuns.flatMap (·.enrollmentModes)

/-- The requests of the import of courses. -/
def courseRequests (data : List CourseData) : TableRequests where
  departments := data.flatMap (·.departments)
  enrollmentModes := data.flatMap CourseData.modeRequests
  courses := data
  courseRuns := data.flatMap CourseData.runRequests
  programs := []

/-- The requests of the import of programs. -/
def programRequests (data : List ProgramData) : TableRequests where
  departments := data.flatMap fun p => p.departments ++ p.courses.flatMap (·.departments)
  enrollmentModes := (data.flatMap (·.courses)).flatMap CourseData.modeRequests
  courses := data.flatMap (·.courses)
  courseRuns := (data.flatMap (·.courses)).flatMap CourseData.runRequests
  programs := data

section Served

variable {site : Site} {inst inst' : Instance} {r s : TableRequests}

/-- Requests are served one after the other. -/
theorem TableRequests.served_append :
    (r.append s).Served site inst inst' ↔ ∃ mid, r.Served site inst mid ∧ s.Served site mid inst' := by
  constructor
  · intro h
    obtain ⟨departments, hd, hd'⟩ := foldlM_append_ok_iff.mp h.departments
    obtain ⟨courses, hc, hc'⟩ := foldlM_append_ok_iff.mp h.courses
    obtain ⟨runs, hr, hr'⟩ := foldlM_append_ok_iff.mp h.courseRuns
    obtain ⟨programs, hp, hp'⟩ := foldlM_append_ok_iff.mp h.programs
    have hmodes : (inst.enrollmentModes.addAll r.enrollmentModes).addAll s.enrollmentModes =
        inst'.enrollmentModes := by
      rw [← h.enrollmentModes]
      exact List.foldl_append.symm
    refine ⟨⟨departments, inst.enrollmentModes.addAll r.enrollmentModes, courses, runs, programs,
      inst.organizations, inst.contracts⟩, ?_, ?_⟩
    · exact ⟨hd, rfl, hc, hr, hp, rfl, rfl⟩
    · exact ⟨hd', hmodes, hc', hr', hp', h.organizations, h.contracts⟩
  · rintro ⟨mid, h, h'⟩
    exact
      { departments := foldlM_append_ok_iff.mpr ⟨_, h.departments, h'.departments⟩
        enrollmentModes := by
          rw [← h'.enrollmentModes, ← h.enrollmentModes]
          exact List.foldl_append
        courses := foldlM_append_ok_iff.mpr ⟨_, h.courses, h'.courses⟩
        courseRuns := foldlM_append_ok_iff.mpr ⟨_, h.courseRuns, h'.courseRuns⟩
        programs := foldlM_append_ok_iff.mpr ⟨_, h.programs, h'.programs⟩
        organizations := h.organizations.trans h'.organizations
        contracts := h.contracts.trans h'.contracts }

/-- Without requests nothing changes. -/
theorem served_nil : (courseRequests []).Served site inst inst' ↔ inst = inst' := by
  constructor
  · intro h
    exact Instance.ext (foldlM_nil_ok_iff.mp h.departments) h.enrollmentModes
      (foldlM_nil_ok_iff.mp h.courses) (foldlM_nil_ok_iff.mp h.courseRuns)
      (foldlM_nil_ok_iff.mp h.programs) h.organizations h.contracts
  · rintro rfl
    exact ⟨rfl, rfl, rfl, rfl, rfl, rfl, rfl⟩

theorem courseRequests_cons (c : CourseData) (cs : List CourseData) :
    courseRequests (c :: cs) = (courseRequests [c]).append (courseRequests cs) := by
  simp [courseRequests, TableRequests.append]

theorem programRequests_cons (p : ProgramData) (ps : List ProgramData) :
    programRequests (p :: ps) = (programRequests [p]).append (programRequests ps) := by
  simp [programRequests, TableRequests.append]

/-- The import of a course serves its requests. -/
theorem importCourse_ok_iff {data : CourseData} :
    inst.importCourse site data = .ok inst' ↔ (courseRequests [data]).Served site inst inst' := by
  have hruns : ∀ runs : Dict Text RunRecord, (courseRequests [data]).courseRuns.foldlM (serveRun site) runs =
      data.sourceRuns.foldlM (importSourceRun site data.readableId) runs := by
    intro runs
    simp only [courseRequests, List.flatMap_cons, List.flatMap_nil, List.append_nil,
      CourseData.runRequests, List.foldlM_map]
    rfl
  have hmodes : (courseRequests [data]).enrollmentModes = data.sourceRuns.flatMap (·.enrollmentModes) := by
    simp [courseRequests, CourseData.modeRequests]
  have hdepartments : (courseRequests [data]).departments = data.departments := by
    simp [courseRequests]
  unfold Instance.importCourse
  simp only [bind_ok_iff]
  constructor
  · rintro ⟨departments, hd, page, hpage, runs, hr, variants, hv, heq⟩
    obtain rfl := Except.ok.inj heq
    refine ⟨hdepartments ▸ hd, hmodes ▸ rfl, ?_, (hruns _).trans hr, rfl, rfl, rfl⟩
    refine foldlM_cons_ok_iff.mpr ⟨_, ?_, foldlM_nil_ok_iff.mpr rfl⟩
    simp only [serveCourse, bind_ok_iff]
    exact ⟨page, hpage, variants, hv, rfl⟩
  · intro h
    obtain ⟨courses, hcourses, hnil⟩ := foldlM_cons_ok_iff.mp h.courses
    simp only [serveCourse, bind_ok_iff] at hcourses
    obtain ⟨page, hpage, variants, hv, heq⟩ := hcourses
    refine ⟨_, hdepartments ▸ h.departments, page, hpage, _,
      (hruns _).symm.trans h.courseRuns, variants, hv, congrArg Except.ok ?_⟩
    refine Instance.ext rfl ?_ ?_ rfl ?_ h.organizations h.contracts
    · exact hmodes ▸ h.enrollmentModes
    · exact (Except.ok.inj heq).trans (foldlM_nil_ok_iff.mp hnil)
    · exact foldlM_nil_ok_iff.mp h.programs

/-- The loop over the courses of a program serves their requests and builds the requirements. -/
theorem importRequirements_ok_iff {data : List CourseData} {state state' : NamedRequirements × List Text} :
    data.foldlM (Instance.importRequirement site) (inst, state) = .ok (inst', state') ↔
      (courseRequests data).Served site inst inst' ∧
        (data.map (·.readableId)).foldlM requireCourse state = .ok state' := by
  induction data generalizing inst state with
  | nil =>
    rw [foldlM_nil_ok_iff, Prod.mk.injEq, served_nil, List.map_nil, foldlM_nil_ok_iff]
  | cons c cs ih =>
    rw [foldlM_cons_ok_iff, courseRequests_cons, TableRequests.served_append, List.map_cons,
      foldlM_cons_ok_iff]
    simp only [Instance.importRequirement, bind_ok_iff, importCourse_ok_iff]
    constructor
    · rintro ⟨⟨mid, t⟩, ⟨inst₁, hinst, t₁, ht, heq⟩, hrest⟩
      obtain ⟨rfl, rfl⟩ := Prod.mk.inj (Except.ok.inj heq)
      obtain ⟨hserved, hloop⟩ := ih.mp hrest
      exact ⟨⟨_, hinst, hserved⟩, _, ht, hloop⟩
    · rintro ⟨⟨mid, hinst, hserved⟩, t, ht, hloop⟩
      exact ⟨(mid, t), ⟨mid, hinst, t, ht, rfl⟩, ih.mpr ⟨hserved, hloop⟩⟩

/-- The import of a program serves its requests. -/
theorem importProgram_ok_iff {data : ProgramData} :
    inst.importProgram site data = .ok inst' ↔ (programRequests [data]).Served site inst inst' := by
  have hdepartments : (programRequests [data]).departments =
      data.departments ++ (courseRequests data.courses).departments := by
    simp [programRequests, courseRequests]
  have hcourses : (programRequests [data]).courses = (courseRequests data.courses).courses := by
    simp [programRequests, courseRequests]
  have hmodes : (programRequests [data]).enrollmentModes = (courseRequests data.courses).enrollmentModes := by
    simp [programRequests, courseRequests]
  have hruns : (programRequests [data]).courseRuns = (courseRequests data.courses).courseRuns := by
    simp [programRequests, courseRequests]
  unfold Instance.importProgram
  simp only [bind_ok_iff]
  constructor
  · rintro ⟨departments, hd, page, hpage, ⟨mid, requirements, existing⟩, hloop, heq⟩
    obtain rfl := Except.ok.inj heq
    obtain ⟨hserved, hrequire⟩ := importRequirements_ok_iff.mp hloop
    refine ⟨?_, ?_, ?_, ?_, ?_, hserved.organizations, hserved.contracts⟩
    · rw [hdepartments]
      exact foldlM_append_ok_iff.mpr ⟨departments, hd, hserved.departments⟩
    · rw [hmodes]
      exact hserved.enrollmentModes
    · rw [hcourses]
      exact hserved.courses
    · rw [hruns]
      exact hserved.courseRuns
    · have hprograms : inst.programs = mid.programs := foldlM_nil_ok_iff.mp hserved.programs
      refine foldlM_cons_ok_iff.mpr ⟨_, ?_, foldlM_nil_ok_iff.mpr rfl⟩
      simp only [serveProgram, bind_ok_iff]
      exact ⟨page, hpage, (requirements, existing), hrequire, by rw [hprograms]⟩
  · intro h
    obtain ⟨programs, hprograms, hnil⟩ := foldlM_cons_ok_iff.mp h.programs
    simp only [serveProgram, bind_ok_iff] at hprograms
    obtain ⟨page, hpage, ⟨requirements, existing⟩, hrequire, heq⟩ := hprograms
    obtain ⟨departments, hd, hd'⟩ := foldlM_append_ok_iff.mp (hdepartments ▸ h.departments)
    have hserved : (courseRequests data.courses).Served site { inst with departments := departments }
        { inst' with programs := inst.programs } :=
      ⟨hd', hmodes ▸ h.enrollmentModes, hcourses ▸ h.courses, hruns ▸ h.courseRuns,
        foldlM_nil_ok_iff.mpr rfl, h.organizations, h.contracts⟩
    refine ⟨departments, hd, page, hpage, _,
      importRequirements_ok_iff.mpr ⟨hserved, hrequire⟩, congrArg Except.ok ?_⟩
    refine Instance.ext rfl rfl rfl rfl ?_ rfl rfl
    exact (Except.ok.inj heq).trans (foldlM_nil_ok_iff.mp hnil)

/-- The import of programs serves their requests. -/
theorem importPrograms_ok_iff {data : List ProgramData} :
    data.foldlM (Instance.importProgram site) inst = .ok inst' ↔
      (programRequests data).Served site inst inst' := by
  induction data generalizing inst with
  | nil =>
    rw [foldlM_nil_ok_iff]
    exact served_nil.symm
  | cons p ps ih =>
    rw [foldlM_cons_ok_iff, programRequests_cons, TableRequests.served_append]
    simp only [importProgram_ok_iff, ih]

end Served

end MitxOnline
