import MitxOnline.B2b.Proofs.TransferCoursesProofs

/-!
# Runs and programs that an import creates

Runs and programs are found by a key or created, as departments and courses are. The requirements of a new
program are built course by course.
-/

namespace MitxOnline

open Paths Upserts
open Paths.PathMap (nodes nodesOf)

/-! ## Runs -/

section Runs

variable {site : Site} {runs runs' : Dict Text RunRecord} {data : List (Text × RunData)}

/-- The slot that a run gets. -/
def runSlot (request : Text × RunData) : RunSlot := ⟨request.1, request.2.columns, none⟩

/-- What is checked of a run by itself. -/
def RunData.valid (site : Site) (rd : RunData) : Bool :=
  (rd.dates.deserialize site).isOk &&
    (cleanLanguage site.languagesLookup (String.ofList rd.columns.options.language)).isOk

/-- The slots that are taken. -/
def runSlots (runs : Dict Text RunRecord) : List RunSlot := runs.values.map RunRecord.slot

def takeRun (site : Site) : List RunSlot → Text × RunData → Option (List RunSlot) :=
  takeFitting (fun slot slot' => !slot.clash slot') (fun request => request.2.valid site) runSlot

/-- The row that the import creates for a run. -/
def createRun (site : Site) (runs : Dict Text RunRecord) (request : Text × RunData) : Option RunRecord :=
  if (takeRun site (runSlots runs) request).isSome = true then
    (request.2.dates.deserialize site).toOption.map fun dates =>
      ⟨request.1, request.2.columns, dates, none, OrderedSet.empty.addAll request.2.enrollmentModes⟩
  else none

/-- The import of a run has nothing to do to the row. -/
structure RunDone (request : Text × RunData) (run : RunRecord) : Prop where
  flagged : request.2.columns.isSourceRun = true → run.columns.isSourceRun = true
  enrollmentModes : ∀ mode ∈ request.2.enrollmentModes, mode ∈ run.enrollmentModes.elements

theorem runValid_iff {rd : RunData} : rd.valid site = true ↔
    (∃ dates, rd.dates.deserialize site = .ok dates) ∧
      cleanLanguage site.languagesLookup (String.ofList rd.columns.options.language) = .ok () := by
  unfold RunData.valid
  rw [Bool.and_eq_true]
  refine and_congr ?_ ?_
  · cases rd.dates.deserialize site with
    | error e => exact iff_of_false Bool.false_ne_true fun ⟨dates, h⟩ => nomatch h
    | ok dates => exact iff_of_true rfl ⟨dates, rfl⟩
  · cases cleanLanguage site.languagesLookup (String.ofList rd.columns.options.language) with
    | error e => exact iff_of_false Bool.false_ne_true fun h => nomatch h
    | ok u => exact iff_of_true rfl rfl

/-- A run that is saved under a new id goes together with the runs that are there. -/
theorem saveRun_ok_iff {coursewareId : Text} {run : RunRecord} (hget : runs.get coursewareId = none) :
    saveRun site runs coursewareId run = .ok runs' ↔
      cleanLanguage site.languagesLookup (String.ofList run.columns.options.language) = .ok () ∧
        (∀ slot ∈ runSlots runs, slot.clash run.slot = false) ∧ runs' = runs.set coursewareId run := by
  have hclash : (runs.entries.any fun other => other.1 != coursewareId && other.2.slot.clash run.slot) = false ↔
      ∀ slot ∈ runSlots runs, slot.clash run.slot = false := by
    have hne : ∀ other ∈ runs.entries, (other.1 != coursewareId) = true := by
      intro other hother
      refine bne_iff_ne.mpr fun heq => Dict.get_eq_none_iff.mp hget ?_
      exact heq ▸ List.mem_map_of_mem hother
    unfold runSlots Dict.values
    rw [List.any_eq_false, List.map_map, List.forall_mem_map]
    refine forall₂_congr fun other hother => ?_
    rw [hne other hother, Bool.true_and, Bool.not_eq_true]
    rfl
  unfold saveRun
  rw [bind_ok_iff]
  constructor
  · rintro ⟨u, hlanguage, hif⟩
    split at hif
    · cases hif
    · rename_i hnot
      exact ⟨hlanguage, hclash.mp (Bool.not_eq_true _ ▸ hnot), (Except.ok.inj hif).symm⟩
  · rintro ⟨hlanguage, hfree, rfl⟩
    refine ⟨(), hlanguage, if_neg ?_⟩
    rw [hclash.mpr hfree]
    exact Bool.false_ne_true

theorem takeRun_isSome_iff {slots : List RunSlot} {request : Text × RunData} :
    (takeRun site slots request).isSome = true ↔
      request.2.valid site = true ∧ ∀ slot ∈ slots, slot.clash (runSlot request) = false := by
  unfold takeRun takeFitting
  simp only [Bool.not_eq_true']
  split
  · rename_i h
    exact iff_of_true rfl h
  · rename_i h
    exact iff_of_false Bool.false_ne_true h

theorem createRun_eq_some_iff {request : Text × RunData} {run : RunRecord} :
    createRun site runs request = some run ↔ ∃ dates, request.2.dates.deserialize site = .ok dates ∧
      cleanLanguage site.languagesLookup (String.ofList request.2.columns.options.language) = .ok () ∧
      (∀ slot ∈ runSlots runs, slot.clash (runSlot request) = false) ∧
      run = ⟨request.1, request.2.columns, dates, none,
        OrderedSet.empty.addAll request.2.enrollmentModes⟩ := by
  unfold createRun
  constructor
  · intro h
    by_cases htake : (takeRun site (runSlots runs) request).isSome = true
    · obtain ⟨hvalid, hfree⟩ := takeRun_isSome_iff.mp htake
      obtain ⟨⟨dates, hdates⟩, hlanguage⟩ := runValid_iff.mp hvalid
      rw [if_pos htake, hdates] at h
      exact ⟨dates, hdates, hlanguage, hfree, (Option.some.inj h).symm⟩
    · rw [if_neg htake] at h
      cases h
  · rintro ⟨dates, hdates, hlanguage, hfree, rfl⟩
    rw [if_pos (takeRun_isSome_iff.mpr ⟨runValid_iff.mpr ⟨⟨dates, hdates⟩, hlanguage⟩, hfree⟩), hdates]
    rfl

theorem findsOrCreates_run :
    FindsOrCreates (serveRun site) (·.2.coursewareId) (createRun site) RunDone where
  found {runs request run} hget hdone := by
    have hflag : ¬(request.2.columns.isSourceRun = true ∧ run.columns.isSourceRun = false) := by
      rintro ⟨hrequest, hrun⟩
      rw [hdone.flagged hrequest] at hrun
      cases hrun
    unfold serveRun importSourceRun getOrCreateRun
    rw [hget]
    dsimp only
    rw [if_neg hflag]
    refine congrArg Except.ok ?_
    unfold addEnrollmentModes
    rw [hget]
    dsimp only
    rw [OrderedSet.addAll_of_subset hdone.enrollmentModes]
    exact Dict.set_get_self hget
  created {runs request runs'} hget := by
    unfold serveRun importSourceRun getOrCreateRun
    rw [hget]
    dsimp only
    rw [bind_ok_iff]
    simp only [bind_ok_iff, saveRun_ok_iff hget, createRun_eq_some_iff]
    have hmodes : ∀ run : RunRecord, addEnrollmentModes (runs.set request.2.coursewareId run) request.2 =
        runs.set request.2.coursewareId
          { run with enrollmentModes := run.enrollmentModes.addAll request.2.enrollmentModes } := by
      intro run
      unfold addEnrollmentModes
      rw [Dict.get_set_self]
      exact Dict.set_set_of_new hget
    constructor
    · rintro ⟨_, ⟨dates, hdates, hlanguage, hfree, rfl⟩, heq⟩
      exact ⟨_, ⟨dates, hdates, hlanguage, hfree, rfl⟩, (Except.ok.inj heq).symm.trans (hmodes _)⟩
    · rintro ⟨_, ⟨dates, hdates, hlanguage, hfree, rfl⟩, rfl⟩
      exact ⟨_, ⟨dates, hdates, hlanguage, hfree, rfl⟩, congrArg Except.ok (hmodes _)⟩
  done {runs request run} hcreate := by
    obtain ⟨dates, -, -, -, rfl⟩ := createRun_eq_some_iff.mp hcreate
    exact ⟨id, fun mode hmode => OrderedSet.mem_addAll.mpr (.inr hmode)⟩

/-- New runs can be created exactly if each is valid and goes together with the ones before it. -/
theorem runs_ok_iff (hcons : Consistent (·.2.coursewareId) data)
    (hnew : ∀ request ∈ data, request.2.coursewareId ∉ runs.keys) :
    (∃ runs', data.foldlM (serveRun site) runs = .ok runs') ↔
      (∀ request ∈ data, request.2.valid site = true) ∧
        (∀ request ∈ data, ∀ slot ∈ runSlots runs, slot.clash (runSlot request) = false) ∧
          (firstsBy (·.2.coursewareId) [] data).Pairwise fun request request' =>
            (runSlot request).clash (runSlot request') = false := by
  have hrun := findsOrCreates_run.run_ok_iff runSlots (takeRun site)
    (fun d request hget => by
      unfold createRun
      by_cases htake : (takeRun site (runSlots d) request).isSome = true
      · obtain ⟨hvalid, hfree⟩ := takeRun_isSome_iff.mp htake
        obtain ⟨⟨dates, hdates⟩, -⟩ := runValid_iff.mp hvalid
        rw [if_pos htake, hdates]
        unfold takeRun takeFitting
        rw [if_pos ⟨hvalid, fun slot hslot => (Bool.not_eq_true' _).mpr (hfree slot hslot)⟩]
        simp [runSlots, Dict.values_set_of_new hget, Except.toOption, runSlot, RunRecord.slot]
      · rw [if_neg htake]
        exact Option.not_isSome_iff_eq_none.mp htake)
    (fun c hc v hv => absurd (Dict.mem_keys_iff.mpr ⟨v, hv⟩) (hnew c hc)) hcons
  have hfirsts : firstsBy (·.2.coursewareId) runs.keys data = firstsBy (·.2.coursewareId) [] data :=
    firstsBy_congr fun c hc => iff_of_false (hnew c hc) List.not_mem_nil
  have hmem : ∀ request, request ∈ firstsBy (·.2.coursewareId) [] data ↔ request ∈ data := by
    intro request
    rw [mem_firstsBy_iff hcons, and_iff_left List.not_mem_nil]
  rw [hrun, hfirsts, takeRun, foldlM_takeFitting_isSome_iff]
  simp only [hmem, Bool.not_eq_true']

end Runs

/-! ## Requirements -/

section Requirements

variable {courses existing readableIds : List Text} {course : Text} {requirements : NamedRequirements}

def requiredCourse (course : Text) : PathTree NamedFields := .node ⟨.course course, some "", some false⟩ []

def requiredNode (children : NamedRequirements) : PathTree NamedFields :=
  .node ⟨.operator .allOf none, some "Required Courses", some false⟩ children

/-- The requirements that the import builds: all courses are below one operator. -/
def requiredCourses : List Text → NamedRequirements
  | [] => []
  | course :: rest => [requiredNode ((course :: rest).map requiredCourse)]

theorem nodes_map_requiredCourse :
    (nodes (courses.map requiredCourse)).filterMap NamedFields.course? = courses := by
  induction courses with
  | nil => rfl
  | cons course rest ih =>
    rw [List.map_cons, nodes, List.filterMap_append, ih]
    rfl

theorem requiredCourses_courses : (requiredCourses courses).courses = courses := by
  cases courses with
  | nil => rfl
  | cons course rest =>
    unfold requiredCourses requiredNode NamedRequirements.courses
    rw [nodes, nodes, List.append_nil, nodesOf, List.filterMap_cons_none rfl]
    exact nodes_map_requiredCourse

/-- Every course that the import puts below the operator is required. -/
theorem requiredCourses_courseClasses :
    (requiredCourses courses).courseClasses = courses.map fun course => (course, .required) := by
  cases courses with
  | nil => rfl
  | cons course rest =>
    unfold requiredCourses NamedRequirements.courseClasses
    rw [List.flatMap_cons, List.flatMap_nil, List.append_nil]
    exact congrArg (List.map _) nodes_map_requiredCourse

theorem maxStep_pos : 0 < maxStep := by
  unfold maxStep
  norm_num

theorem addBelowAllOf_requiredNode {children : NamedRequirements} {before : ℕ} :
    addBelowAllOf course before [requiredNode children] = .ok requirements ↔
      children.length < maxStep ∧ requirements = [requiredNode (children ++ [requiredCourse course])] := by
  have hall : (requiredNode children).value.isAllOf = true := rfl
  have hadd : addCourseTo course (requiredNode children) =
      if children.length < maxStep then .ok (requiredNode (children ++ [requiredCourse course]))
      else .error .failure := rfl
  rw [addBelowAllOf, if_pos hall, hadd, bind_ok_iff]
  by_cases hroom : children.length < maxStep
  · rw [if_pos hroom, and_iff_right hroom]
    constructor
    · rintro ⟨top, htop, heq⟩
      obtain rfl := Except.ok.inj htop
      exact (Except.ok.inj heq).symm
    · rintro rfl
      exact ⟨_, rfl, rfl⟩
  · rw [if_neg hroom]
    exact iff_of_false (fun ⟨top, htop, _⟩ => nomatch htop) fun h => hroom h.1

/-- One more course goes below the operator, if there is room. -/
theorem addRequirement_ok_iff : (requiredCourses courses).addRequirement course = .ok requirements ↔
    courses.length < maxStep ∧ requirements = requiredCourses (courses ++ [course]) := by
  cases courses with
  | nil =>
    have hadd : (requiredCourses []).addRequirement course = addBelowAllOf course 0 [requiredNode []] := by
      have hall : (requiredNode []).value.isAllOf = true := rfl
      show addBelowAllOf course 0 [] = _
      rw [addBelowAllOf, addBelowAllOf, if_pos maxStep_pos, if_pos hall]
      rfl
    rw [hadd, addBelowAllOf_requiredNode]
    rfl
  | cons first rest =>
    have hadd : (requiredCourses (first :: rest)).addRequirement course =
        addBelowAllOf course 0 [requiredNode ((first :: rest).map requiredCourse)] := rfl
    have hmap : (first :: rest).map requiredCourse ++ [requiredCourse course] =
        (first :: rest ++ [course]).map requiredCourse := by
      rw [List.map_append]
      rfl
    rw [hadd, addBelowAllOf_requiredNode, List.length_map, hmap]
    rfl

/-- The loop over the courses of a program puts each of them below the operator once. -/
theorem requireCourses_ok_iff (hexisting : ∀ course, course ∈ existing ↔ course ∈ courses)
    (hroom : courses.length ≤ maxStep) :
    (∃ existing', readableIds.foldlM requireCourse (requiredCourses courses, existing) =
      .ok (requirements, existing')) ↔
      (courses ++ firstsBy id courses readableIds).length ≤ maxStep ∧
        requirements = requiredCourses (courses ++ firstsBy id courses readableIds) := by
  induction readableIds generalizing courses existing with
  | nil =>
    simp only [foldlM_nil_ok_iff, Prod.mk.injEq, firstsBy, List.append_nil]
    constructor
    · rintro ⟨_, rfl, -⟩
      exact ⟨hroom, rfl⟩
    · rintro ⟨-, rfl⟩
      exact ⟨existing, rfl, rfl⟩
  | cons course rest ih =>
    by_cases hmem : course ∈ courses
    · have hstep : requireCourse (requiredCourses courses, existing) course =
          .ok (requiredCourses courses, existing) :=
        if_pos (List.contains_iff_mem.mpr ((hexisting course).mpr hmem))
      rw [firstsBy_cons_of_mem hmem, List.foldlM_cons, hstep]
      exact ih hexisting hroom
    · have hstep : ∀ state, requireCourse (requiredCourses courses, existing) course = .ok state ↔
          courses.length < maxStep ∧ state = (requiredCourses (courses ++ [course]), course :: existing) := by
        intro state
        unfold requireCourse
        rw [if_neg fun h => hmem ((hexisting course).mp (List.contains_iff_mem.mp h)), bind_ok_iff]
        simp only [addRequirement_ok_iff]
        constructor
        · rintro ⟨_, ⟨hlt, rfl⟩, heq⟩
          exact ⟨hlt, (Except.ok.inj heq).symm⟩
        · rintro ⟨hlt, rfl⟩
          exact ⟨_, ⟨hlt, rfl⟩, rfl⟩
      have hfirsts : courses ++ firstsBy id courses (course :: rest) =
          (courses ++ [course]) ++ firstsBy id (courses ++ [course]) rest := by
        have hnot : id course ∉ courses := hmem
        rw [firstsBy_cons_of_not_mem hnot, List.append_assoc, List.singleton_append]
        congr 2
        refine firstsBy_congr fun c _ => ?_
        rw [List.mem_cons, List.mem_append, List.mem_singleton]
        exact or_comm
      have hexisting' : ∀ c, c ∈ course :: existing ↔ c ∈ courses ++ [course] := by
        intro c
        rw [List.mem_cons, List.mem_append, List.mem_singleton, hexisting c]
        exact or_comm
      simp only [foldlM_cons_ok_iff, hstep]
      rw [hfirsts]
      constructor
      · rintro ⟨existing', _, ⟨hlt, rfl⟩, hrest⟩
        refine (ih hexisting' ?_).mp ⟨existing', hrest⟩
        rw [List.length_append, List.length_singleton]
        exact hlt
      · rintro ⟨hlength, rfl⟩
        have hlt : courses.length < maxStep := by
          simp only [List.length_append, List.length_singleton] at hlength
          omega
        obtain ⟨existing', hrest⟩ := (ih hexisting' (by
          rw [List.length_append, List.length_singleton]
          exact hlt)).mpr ⟨hlength, rfl⟩
        exact ⟨existing', _, ⟨hlt, rfl⟩, hrest⟩

/-- Courses that are all required already change nothing. -/
theorem requireCourses_of_subset {state : NamedRequirements × List Text}
    (h : ∀ course ∈ readableIds, course ∈ state.2) :
    readableIds.foldlM requireCourse state = .ok state := by
  induction readableIds with
  | nil => rfl
  | cons course rest ih =>
    refine foldlM_cons_ok_iff.mpr ⟨state, if_pos (List.contains_iff_mem.mpr (h course List.mem_cons_self)), ?_⟩
    exact ih fun c hc => h c (List.mem_cons_of_mem course hc)

end Requirements

/-! ## Programs -/

section Programs

variable {site : Site} {programs : Dict Text ProgramRecord} {data : List ProgramData}

/-- The courses of a program, each of them once. -/
def ProgramData.courseIds (data : ProgramData) : List Text :=
  firstsBy id [] (data.courses.map (·.readableId))

/-- The check of a program that does not depend on the other programs. -/
def ProgramData.allowed (data : ProgramData) : Bool := decide (data.courseIds.length ≤ maxStep)

/-- The row that the import creates for a program. -/
def createProgram (site : Site) (programs : Dict Text ProgramRecord) (data : ProgramData) :
    Option ProgramRecord :=
  let page := defaultCoursewarePage site data.readableId data.title
  if data.allowed = true then
    (site.addProgramPage (programPages programs) page).map fun slug =>
      { title := data.title
        live := true
        departments := OrderedSet.empty.addAll data.departments
        page := some { page with slug := slug }
        requirements := requiredCourses data.courseIds }
  else none

/-- The import of a program has nothing to do to the row. -/
structure ProgramDone (data : ProgramData) (program : ProgramRecord) : Prop where
  departments : ∀ name ∈ data.departments, name ∈ program.departments.elements
  page : ∃ page, program.page = some page ∧ page.live = true
  courses : ∀ c ∈ data.courses, c.readableId ∈ program.requirements.courses

theorem createProgram_eq_some_iff {p : ProgramData} {program : ProgramRecord} :
    createProgram site programs p = some program ↔
      p.courseIds.length ≤ maxStep ∧ ∃ slug,
        site.addProgramPage (programPages programs) (defaultCoursewarePage site p.readableId p.title) = some slug ∧
        program = ⟨p.title, true, OrderedSet.empty.addAll p.departments,
          some { defaultCoursewarePage site p.readableId p.title with slug := slug },
          requiredCourses p.courseIds⟩ := by
  unfold createProgram ProgramData.allowed
  constructor
  · intro h
    split at h
    · rename_i hallowed
      rw [decide_eq_true_iff] at hallowed
      obtain ⟨slug, hslug, rfl⟩ := Option.map_eq_some_iff.mp h
      exact ⟨hallowed, slug, hslug, rfl⟩
    · cases h
  · rintro ⟨hallowed, slug, hslug, rfl⟩
    rw [if_pos (decide_eq_true hallowed), hslug]
    rfl

theorem findsOrCreates_program :
    FindsOrCreates (serveProgram site) (·.readableId) (createProgram site) ProgramDone where
  found {programs p program} hget hdone := by
    obtain ⟨page, hpage, hlive⟩ := hdone.page
    simp only [serveProgram, getOrCreateProgram, hget, Option.getD_some, bind_ok_iff]
    refine ⟨page, ?_, _,
      requireCourses_of_subset (List.forall_mem_map.mpr hdone.courses), ?_⟩
    · rw [hpage]
      exact ensureCoursewarePage_of_live hlive
    · rw [OrderedSet.addAll_of_subset hdone.departments, ← hpage]
      exact congrArg Except.ok (Dict.set_get_self hget)
  created {programs p programs'} hget := by
    have hrequire : ∀ requirements,
        (∃ existing, (p.courses.map (·.readableId)).foldlM requireCourse (([] : NamedRequirements), []) =
          .ok (requirements, existing)) ↔
        p.courseIds.length ≤ maxStep ∧ requirements = requiredCourses p.courseIds := by
      intro requirements
      have hempty : ∀ course : Text, course ∈ ([] : List Text) ↔ course ∈ ([] : List Text) :=
        fun _ => Iff.rfl
      exact requireCourses_ok_iff hempty (Nat.zero_le _)
    simp only [serveProgram, getOrCreateProgram, hget, Option.getD_none, bind_ok_iff,
      createProgram_eq_some_iff]
    constructor
    · rintro ⟨page, hpage, ⟨requirements, existing⟩, hloop, heq⟩
      obtain ⟨slug, hslug, rfl⟩ := ensureCoursewarePage_of_none.mp hpage
      obtain ⟨hroom, rfl⟩ := (hrequire requirements).mp ⟨existing, hloop⟩
      exact ⟨_, ⟨hroom, slug, hslug, rfl⟩, (Except.ok.inj heq).symm⟩
    · rintro ⟨program, ⟨hroom, slug, hslug, rfl⟩, rfl⟩
      obtain ⟨existing, hloop⟩ := (hrequire _).mpr ⟨hroom, rfl⟩
      exact ⟨_, ensureCoursewarePage_of_none.mpr ⟨slug, hslug, rfl⟩, _, hloop, rfl⟩
  done {programs p program} hcreate := by
    obtain ⟨-, slug, -, rfl⟩ := createProgram_eq_some_iff.mp hcreate
    refine ⟨fun name hname => OrderedSet.mem_addAll.mpr (.inr hname), ⟨_, rfl, rfl⟩, fun c hc => ?_⟩
    show c.readableId ∈ (requiredCourses p.courseIds).courses
    rw [requiredCourses_courses, ProgramData.courseIds, mem_firstsBy_iff consistent_id]
    exact ⟨List.mem_map_of_mem hc, List.not_mem_nil⟩

/-- New programs can be created exactly if each of them can be and their pages are taken one after the
other. -/
theorem programs_ok_iff (hnodup : (data.map (·.readableId)).Nodup)
    (hnew : ∀ p ∈ data, p.readableId ∉ programs.keys) :
    (∃ programs', data.foldlM (serveProgram site) programs = .ok programs') ↔
      (∀ p ∈ data, p.allowed = true) ∧
        PagesFit site.addProgramPage (programPages programs)
          (data.map fun p => defaultCoursewarePage site p.readableId p.title) := by
  have hcons : Consistent (·.readableId) data :=
    fun a ha b hb hab => List.inj_on_of_nodup_map hnodup ha hb hab
  have hrun := findsOrCreates_program.run_ok_iff programPages
    (fun pages p => if p.allowed = true then placePage site.addProgramPage pages
      (defaultCoursewarePage site p.readableId p.title) else none)
    (fun d p hget => by
      by_cases hallowed : p.allowed = true
      · unfold createProgram placePage
        rw [if_pos hallowed, if_pos hallowed, Option.map_map]
        refine Option.map_congr fun slug _ => ?_
        simp [programPages, Dict.values_set_of_new hget]
      · unfold createProgram
        rw [if_neg hallowed, if_neg hallowed]
        rfl)
    (fun p hp v hv => absurd (Dict.mem_keys_iff.mpr ⟨v, hv⟩) (hnew p hp)) hcons
  rw [hrun, firstsBy_eq_self hnodup hnew, foldlM_guarded_isSome_iff]
  rfl

end Programs

end MitxOnline
