import MitxOnline.B2b.Proofs.CodeWithdrawalProofs
import MitxOnline.Courses.Proofs.ClosedRunsProofs

/-!
# What is left when courseware was removed from a contract

The state after any number of items is the first one with some runs removed. Which runs these are decides the
rest: their products are off, their codes have lost these products, and codes that had no others are gone. The
items still in the list stand for the runs that are missing.
-/

namespace MitxOnline

variable {lookup : String → Bool} {options : RemoveOptions} {contract : ContractId}
  {hasEnrollments : Bool} {now t : Instant} {obj : RunInstance}

/-! ## A run -/

/-- A run that was removed at `t`. -/
def RunInstance.shutAt (obj : RunInstance) (contract : ContractId) (hasEnrollments : Bool) (t : Instant) :
    RunInstance :=
  { obj with
    run := ({ obj.run with live := false, enrollmentEnd := some t } : ScheduledRun).detached contract
      hasEnrollments }

/-- The run is closed, at `now` or where it was closed before. -/
theorem deactivated_cases (run : ScheduledRun) (now : Instant) :
    ∃ t, t ≤ now ∧ (t = now ∨ run.enrollmentEnd = some t) ∧
      run.deactivated now = { run with live := false, enrollmentEnd := some t } := by
  by_cases hopen : run.live = true ∨ run.enrollmentEnd = none ∨
      (run.enrollmentEnd.any fun enrollmentEnd => decide (now < enrollmentEnd)) = true
  · exact ⟨now, le_rfl, Or.inl rfl, if_pos hopen⟩
  · obtain ⟨hlive, hend⟩ := not_or.mp hopen
    obtain ⟨hset, hafter⟩ := not_or.mp hend
    obtain ⟨closing, hclosing⟩ := Option.ne_none_iff_exists'.mp hset
    have hle : closing ≤ now := by
      rw [hclosing, Option.any_some, decide_eq_true_eq] at hafter
      exact not_lt.mp hafter
    have hlive' : run.live = false := Bool.eq_false_iff.mpr hlive
    refine ⟨closing, hle, Or.inr hclosing, ?_⟩
    unfold ScheduledRun.deactivated
    rw [if_neg hopen, ← hlive', ← hclosing]

theorem deactivated_of_closed {run : ScheduledRun} (hlive : run.live = false)
    (hend : run.enrollmentEnd = some t) (h : t ≤ now) : run.deactivated now = run := by
  have hafter : ¬now < t := not_lt.mpr h
  refine if_neg ?_
  rw [hlive, hend, Option.any_some]
  simp [hafter]

theorem detached_live (run : ScheduledRun) (contract : ContractId) (hasEnrollments : Bool) :
    (run.detached contract hasEnrollments).live = run.live := by
  unfold ScheduledRun.detached
  split_ifs <;> rfl

theorem detached_enrollmentEnd (run : ScheduledRun) (contract : ContractId) (hasEnrollments : Bool) :
    (run.detached contract hasEnrollments).enrollmentEnd = run.enrollmentEnd := by
  unfold ScheduledRun.detached
  split_ifs <;> rfl

theorem detached_clean (run : ScheduledRun) (contract : ContractId) (hasEnrollments : Bool) :
    (run.detached contract hasEnrollments).clean lookup = run.clean lookup := by
  unfold ScheduledRun.detached
  split_ifs <;> rfl

theorem detached_detached (run : ScheduledRun) (contract : ContractId) (hasEnrollments : Bool) :
    (run.detached contract hasEnrollments).detached contract hasEnrollments =
      run.detached contract hasEnrollments := by
  by_cases hdetached : hasEnrollments = false ∧ run.b2bContract = some contract
  · have hout : run.detached contract hasEnrollments = { run with b2bContract := none } := if_pos hdetached
    rw [hout]
    refine if_neg ?_
    rintro ⟨-, hcontract⟩
    cases hcontract
  · have hsame : run.detached contract hasEnrollments = run := if_neg hdetached
    rw [hsame, hsame]

theorem removed_cases (obj : RunInstance) (contract : ContractId) (hasEnrollments : Bool) (now : Instant) :
    ∃ t, t ≤ now ∧ (t = now ∨ obj.run.enrollmentEnd = some t) ∧
      obj.removed contract hasEnrollments now = obj.shutAt contract hasEnrollments t := by
  obtain ⟨t, hle, htime, hclosed⟩ := deactivated_cases obj.run now
  refine ⟨t, hle, htime, ?_⟩
  unfold RunInstance.removed RunInstance.shutAt
  rw [hclosed]

/-- A run that was removed is left as it is. -/
theorem removed_shutAt (h : t ≤ now) :
    (obj.shutAt contract hasEnrollments t).removed contract hasEnrollments now =
      obj.shutAt contract hasEnrollments t := by
  have hclosed : (obj.shutAt contract hasEnrollments t).run.deactivated now =
      (obj.shutAt contract hasEnrollments t).run :=
    deactivated_of_closed (detached_live ..) (detached_enrollmentEnd ..) h
  unfold RunInstance.removed
  rw [hclosed]
  unfold RunInstance.shutAt
  rw [detached_detached]

/-- `clean` accepts the removed run if it accepted the run. -/
theorem shutAt_clean (hlanguage : cleanLanguage lookup obj.run.language = .ok ())
    (hexpiration : obj.run.cleanExpirationDate = .ok ()) :
    (obj.shutAt contract hasEnrollments t).run.clean lookup = .ok () := by
  unfold RunInstance.shutAt
  dsimp only
  rw [detached_clean]
  have hdates : ({ obj.run with live := false, enrollmentEnd := some t } : ScheduledRun).cleanExpirationDate =
      .ok () := hexpiration
  unfold ScheduledRun.clean
  dsimp only
  rw [hlanguage, hdates]
  rfl

/-! ## Some runs removed -/

open ContractCourseware Autocommit

variable {s s0 : ContractCourseware lookup} {st st' : RemoveState lookup} {runs : Finset RunId}
  {programs : Finset ProgramId} {r r' : RunId} {n m : ℕ} {added : List RemovedItem}
  {refs : List CoursewareRef} {update : EdxUpdate}

/-- The clock does not run backwards. -/
def RemoveOptions.ClockRuns (options : RemoveOptions) : Prop :=
  ∀ n m, n ≤ m → options.now n ≤ options.now m

/-- The run was removed when `n` runs had been gone through, or before. -/
def RemoveOptions.ShutBy (options : RemoveOptions) (s0 : ContractCourseware lookup) (n : ℕ) (r : RunId)
    (obj : RunInstance) : Prop :=
  ∃ t, t ≤ options.now n ∧
    ((∃ m, t = options.now m) ∨ (s0.courseware.instance r).run.enrollmentEnd = some t) ∧
    obj = (s0.courseware.instance r).shutAt options.contract (s0.hasEnrollments r) t

theorem RemoveOptions.ShutBy.mono {obj : RunInstance} (hclock : options.ClockRuns)
    (h : options.ShutBy s0 n r obj)
    (hle : n ≤ m) : options.ShutBy s0 m r obj := by
  obtain ⟨t, ht, htime, hobj⟩ := h
  exact ⟨t, ht.trans (hclock n m hle), htime, hobj⟩

/-- A run in the list is closed, whether it was read before the command came to it or after. -/
theorem removed_shutBy (h : obj = s0.courseware.instance r ∨ options.ShutBy s0 n r obj) :
    options.ShutBy s0 n r
      (obj.removed options.contract (s0.hasEnrollments r) (options.now n)) := by
  rcases h with rfl | ⟨t, ht, htime, rfl⟩
  · obtain ⟨t, ht, htime, hremoved⟩ := removed_cases (s0.courseware.instance r) options.contract
      (s0.hasEnrollments r) (options.now n)
    exact ⟨t, ht, htime.imp (fun heq => ⟨n, heq⟩) id, hremoved⟩
  · exact ⟨t, ht, htime, removed_shutAt ht⟩

/-- The product is for one of the runs. -/
def ofRuns (db : CoursewareStore lookup) (runs : Finset RunId) (product : Option ProductId) : Bool :=
  product.any fun p => decide (p ∈ db.products.keys) && ((db.products.row p).contentType == .courseRun) &&
    decide ((db.products.row p).objectId ∈ runs)

theorem ofRuns_empty (db : CoursewareStore lookup) : ofRuns db ∅ = fun _ => false := by
  funext product
  cases product with
  | none => rfl
  | some p => simp [ofRuns]

theorem isProductOf_getRunProducts (db : CoursewareStore lookup) (r : RunId) :
    isProductOf (db.getRunProducts r) = ofRuns db {r} := by
  funext product
  cases product with
  | none => rfl
  | some p =>
    unfold isProductOf ofRuns CoursewareStore.getRunProducts
    rw [Option.any_some, Option.any_some, Bool.eq_iff_iff, decide_eq_true_eq, List.mem_filter]
    simp [and_assoc]

theorem ofRuns_insert (db : CoursewareStore lookup) (runs : Finset RunId) (r : RunId) :
    ofRuns db (insert r runs) = fun product => ofRuns db runs product || ofRuns db {r} product := by
  funext product
  cases product with
  | none => rfl
  | some p =>
    unfold ofRuns
    rw [Option.any_some, Option.any_some, Option.any_some, Bool.eq_iff_iff]
    simp only [Bool.and_eq_true, Bool.or_eq_true, decide_eq_true_eq, Finset.mem_insert, Finset.mem_singleton]
    tauto

/-- The state is `s0` without the runs and the programs. -/
structure RemoveState.Removed (options : RemoveOptions) (s0 : ContractCourseware lookup)
    (runs : Finset RunId) (programs : Finset ProgramId) (st : RemoveState lookup) : Prop where
  runIds : st.s.runIds = s0.runIds
  isSourceRun : st.s.isSourceRun = s0.isSourceRun
  hasEnrollments : st.s.hasEnrollments = s0.hasEnrollments
  hasTier : st.s.hasTier = s0.hasTier
  kept : ∀ r ∉ runs, st.s.courseware.instance r = s0.courseware.instance r
  shut : ∀ r ∈ runs, options.ShutBy s0 st.handled r (st.s.courseware.instance r)
  keys : st.s.courseware.db.products.keys = s0.courseware.db.products.keys
  row : ∀ p, st.s.courseware.db.products.row p = { s0.courseware.db.products.row p with
    isActive := (s0.courseware.db.products.row p).isActive && !ofRuns s0.courseware.db runs (some p) }
  codes : CodesWithdrawn (ofRuns s0.courseware.db runs) s0.codes st.s.codes
  contractPrograms : st.s.contractPrograms = s0.contractPrograms.filter fun item =>
    !decide (item.1 = options.contract ∧ item.2 ∈ programs)

theorem removed_none (options : RemoveOptions) (s0 : ContractCourseware lookup) :
    RemoveState.Removed options s0 ∅ ∅ ⟨s0, 0⟩ where
  runIds := rfl
  isSourceRun := rfl
  hasEnrollments := rfl
  hasTier := rfl
  kept _ _ := rfl
  shut r hr := absurd hr (Finset.notMem_empty r)
  keys := rfl
  row p := by
    rw [ofRuns_empty, Bool.not_false, Bool.and_true]
  codes := by
    rw [ofRuns_empty]
    exact codesWithdrawn_none s0.codes
  contractPrograms := by
    simp

theorem RemoveState.Removed.getRunProducts_eq (h : st.Removed options s0 runs programs) (r : RunId) :
    st.s.courseware.db.getRunProducts r = s0.courseware.db.getRunProducts r := by
  unfold CoursewareStore.getRunProducts
  rw [h.keys]
  refine List.filter_congr fun p _ => ?_
  rw [h.row p]

theorem pushRunDates_instance (courseware : SyncedCourseware lookup) (update : EdxUpdate) (run : ScheduledRun) :
    (courseware.pushRunDates update run).instance = courseware.instance := rfl

/-- The state after a run was saved as `obj` and its products and codes were withdrawn. -/
def ContractCourseware.withRun (s : ContractCourseware lookup) (update : EdxUpdate) (r : RunId)
    (obj : RunInstance) (h : obj.run.clean lookup = .ok ()) : ContractCourseware lookup :=
  let saved := s.courseware.withRun r obj h
  { s with
    codes := withdrawDiscounts (s.courseware.db.getRunProducts r) s.codes
    courseware := ({ saved with db := (deactivateRunProducts saved.db r).1 } :
      SyncedCourseware lookup).pushRunDates update obj.run }

theorem withRun_courseware_instance (h : obj.run.clean lookup = .ok ()) (r' : RunId) :
    (s.withRun update r obj h).courseware.instance r' =
      if r' = r then obj else s.courseware.instance r' := by
  have hsame : (s.withRun update r obj h).courseware.instance r' =
      (s.courseware.withRun r obj h).instance r' := by
    unfold ContractCourseware.withRun
    dsimp only
    rw [pushRunDates_instance]
    unfold SyncedCourseware.instance
    dsimp only
    rw [deactivateRunProducts_courseRun]
  rw [hsame]
  split_ifs with heq
  · rw [heq, withRun_instance_self]
  · exact withRun_instance_of_ne h heq

theorem withRun_products_keys (h : obj.run.clean lookup = .ok ()) :
    (s.withRun update r obj h).courseware.db.products.keys = s.courseware.db.products.keys :=
  (deactivateRunProducts_switchedOff _ _).keys

theorem withRun_products_row (h : obj.run.clean lookup = .ok ()) (p : ProductId) :
    (s.withRun update r obj h).courseware.db.products.row p =
      { s.courseware.db.products.row p with
        isActive := (s.courseware.db.products.row p).isActive &&
          !isProductOf (s.courseware.db.getRunProducts r) (some p) } := by
  show (deactivateRunProducts (s.courseware.withRun r obj h).db r).1.products.row p = _
  unfold deactivateRunProducts
  rw [foldl_deactivateProduct_row]
  unfold isProductOf
  rw [Option.any_some, List.contains_eq_mem]
  rfl

/-! ## A removal that stops -/

/-- Of the products each is as before or off; the others are as before. -/
structure CoursewareStore.PartlySwitchedOff (products : List ProductId) (db db' : CoursewareStore lookup) :
    Prop where
  courseRun : db'.courseRun = db.courseRun
  keys : db'.products.keys = db.products.keys
  row : ∀ p, db'.products.row p = db.products.row p ∨
    p ∈ products ∧ db'.products.row p = { db.products.row p with isActive := false }

theorem partlySwitchedOff_isFrame (products : List ProductId) :
    IsFrame fun db db' : CoursewareStore lookup => db.PartlySwitchedOff products db' := by
  constructor
  · intro db
    exact ⟨rfl, rfl, fun _ => Or.inl rfl⟩
  · intro db db' db'' h h'
    refine ⟨h'.courseRun.trans h.courseRun, h'.keys.trans h.keys, fun p => ?_⟩
    rcases h'.row p with hsame' | ⟨hp, hoff'⟩
    · rw [hsame']
      exact h.row p
    · refine Or.inr ⟨hp, ?_⟩
      rw [hoff']
      rcases h.row p with hsame | ⟨-, hoff⟩
      · rw [hsame]
      · rw [hoff]

theorem deactivateProduct_partly {products : List ProductId} {p : ProductId} (hp : p ∈ products)
    (db : CoursewareStore lookup) : db.PartlySwitchedOff products (deactivateProduct (db, []) p).1 := by
  refine ⟨deactivateProduct_courseRun _ _, deactivateProduct_keys _ _, fun q => ?_⟩
  rw [deactivateProduct_row]
  by_cases hq : q = p
  · subst hq
    right
    simp [hp]
  · left
    have hne : (q != p) = true := by simpa using hq
    rw [hne, Bool.and_true]

theorem deactivateRunProduct_partly (fate : RemoveWrite → WriteFate) {products : List ProductId}
    {p : ProductId} (hp : p ∈ products) :
    Keeps (fun db db' : CoursewareStore lookup => db.PartlySwitchedOff products db')
      (deactivateRunProduct fate p) := by
  intro db
  unfold deactivateRunProduct
  split_ifs
  · rcases write_cases (fate (.product p)) (fun db => (deactivateProduct (db, []) p).1) db with hdone | hsame
    · rw [hdone]
      exact deactivateProduct_partly hp db
    · rw [hsame]
      exact (partlySwitchedOff_isFrame products).refl db
  · exact (partlySwitchedOff_isFrame products).refl db

/-- The loop over the products of a run, wherever it stops. -/
theorem deactivateRunProduct_seq_partly (fate : RemoveWrite → WriteFate) (products : List ProductId) :
    Keeps (fun db db' : CoursewareStore lookup => db.PartlySwitchedOff products db')
      (seq (products.map (deactivateRunProduct fate))) := by
  refine keeps_seq (partlySwitchedOff_isFrame products) fun round hround => ?_
  obtain ⟨p, hp, rfl⟩ := List.mem_map.mp hround
  exact deactivateRunProduct_partly fate hp

theorem deactivateRunProduct_of_ok {fate : RemoveWrite → WriteFate} {p : ProductId}
    {acc : CoursewareStore lookup × List ProductId} (h : (deactivateRunProduct fate p acc.1).error = none) :
    (deactivateRunProduct fate p acc.1).state = (deactivateProduct acc p).1 := by
  unfold deactivateRunProduct at h ⊢
  by_cases hactive : (acc.1.products.row p).isActive = true
  · rw [if_pos hactive] at h ⊢
    rw [write_of_ok h]
    unfold deactivateProduct
    rw [if_pos hactive, if_pos hactive]
  · rw [if_neg hactive]
    unfold deactivateProduct
    rw [if_neg hactive]

theorem deactivateRunProduct_seq_of_ok {fate : RemoveWrite → WriteFate} {products : List ProductId}
    {acc : CoursewareStore lookup × List ProductId}
    (h : (seq (products.map (deactivateRunProduct fate)) acc.1).error = none) :
    (seq (products.map (deactivateRunProduct fate)) acc.1).state = (products.foldl deactivateProduct acc).1 := by
  induction products generalizing acc with
  | nil => rfl
  | cons p products ih =>
    obtain ⟨hfirst, hrest⟩ := seq_cons_error h
    have hround := deactivateRunProduct_of_ok hfirst
    rw [List.map_cons, seq_cons, andThen_of_ok hfirst, hround, List.foldl_cons]
    rw [hround] at hrest
    exact ih hrest

theorem deactivateRunProduct_seq_error {fate : RemoveWrite → WriteFate} {products : List ProductId}
    {db : CoursewareStore lookup} {e : Error}
    (h : (seq (products.map (deactivateRunProduct fate)) db).error = some e) : ∃ w, fate w ≠ .done := by
  obtain ⟨-, -, -, -, ⟨hok, -⟩ | ⟨before, p, e', -, -, hraise⟩⟩ :=
    seq_map_cases (deactivateRunProduct fate) products db
  · rw [hok] at h
    cases h
  · unfold deactivateRunProduct at hraise
    split_ifs at hraise
    exact ⟨_, write_fate hraise⟩

/-- A run in the midst of its removal: it is there as it was or as `obj`, each of its products is as before or
off, and each of its codes is as before, has lost these products, or is gone with them. All else is as before. -/
structure ContractCourseware.PartlyRemoved (r : RunId) (obj : RunInstance)
    (s s' : ContractCourseware lookup) : Prop where
  runIds : s'.runIds = s.runIds
  isSourceRun : s'.isSourceRun = s.isSourceRun
  hasEnrollments : s'.hasEnrollments = s.hasEnrollments
  hasTier : s'.hasTier = s.hasTier
  contractPrograms : s'.contractPrograms = s.contractPrograms
  kept : ∀ r' ≠ r, s'.courseware.instance r' = s.courseware.instance r'
  run : s'.courseware.instance r = s.courseware.instance r ∨ s'.courseware.instance r = obj
  keys : s'.courseware.db.products.keys = s.courseware.db.products.keys
  row : ∀ p, s'.courseware.db.products.row p = s.courseware.db.products.row p ∨
    p ∈ s.courseware.db.getRunProducts r ∧
      s'.courseware.db.products.row p = { s.courseware.db.products.row p with isActive := false }
  codes : CodesBetween (s.courseware.db.getRunProducts r)
    (discountsOf (s.courseware.db.getRunProducts r) s.codes) s.codes s'.codes

theorem partlyRemoved_none (s : ContractCourseware lookup) (r : RunId) (obj : RunInstance) :
    s.PartlyRemoved r obj s :=
  ⟨rfl, rfl, rfl, rfl, rfl, fun _ _ => rfl, Or.inl rfl, rfl, fun _ => Or.inl rfl,
    (codesBetween_isFrame _ _).refl s.codes⟩

/-- The run was saved, and then some products went and some codes. -/
theorem partlyRemoved_saved (h : obj.run.clean lookup = .ok ()) {db : CoursewareStore lookup}
    {codes : CodeStore}
    (hdb : (s.courseware.withRun r obj h).db.PartlySwitchedOff (s.courseware.db.getRunProducts r) db)
    (hcodes : CodesBetween (s.courseware.db.getRunProducts r)
      (discountsOf (s.courseware.db.getRunProducts r) s.codes) s.codes codes) :
    s.PartlyRemoved r obj
      { s with courseware := { s.courseware.withRun r obj h with db := db }, codes := codes } := by
  have hinstance (r' : RunId) : ({ s.courseware.withRun r obj h with db := db } :
      SyncedCourseware lookup).instance r' = (s.courseware.withRun r obj h).instance r' := by
    unfold SyncedCourseware.instance
    dsimp only
    rw [hdb.courseRun]
  refine ⟨rfl, rfl, rfl, rfl, rfl, fun r' hne => ?_, Or.inr ?_, hdb.keys, hdb.row, hcodes⟩
  · exact (hinstance r').trans (withRun_instance_of_ne h hne)
  · exact (hinstance r).trans (withRun_instance_self h)

/-- Where the removal of a run can stop. -/
def ContractCourseware.CanStop (s : ContractCourseware lookup) (fate : RemoveWrite → WriteFate) (r : RunId)
    (obj : RunInstance) : Prop :=
  (∃ w, fate w ≠ .done) ∨ obj.run.clean lookup ≠ .ok () ∨
    ∃ d ∈ discountsOf (s.courseware.db.getRunProducts r) s.codes, s.hasTier d = true ∧ s.codes.isUsed d = false

/-- The run is saved, or it raises before or after that. -/
theorem saveCourseware_cases (fate : RemoveWrite → WriteFate) (r : RunId) (obj : RunInstance)
    (s : ContractCourseware lookup) :
    (∃ h, saveCourseware fate r obj s = ⟨{ s with courseware := s.courseware.withRun r obj h }, none⟩) ∨
      ∃ s' e, saveCourseware fate r obj s = ⟨s', some e⟩ ∧ s.PartlyRemoved r obj s' ∧ s.CanStop fate r obj := by
  unfold saveCourseware
  by_cases hclean : obj.run.clean lookup = .ok ()
  · rw [save_of_clean hclean]
    cases hfate : fate .run with
    | done => exact Or.inl ⟨hclean, rfl⟩
    | fails =>
      refine Or.inr ⟨s, _, rfl, partlyRemoved_none s r obj, Or.inl ⟨.run, ?_⟩⟩
      rw [hfate]
      decide
    | hookFails =>
      refine Or.inr ⟨_, _, rfl, partlyRemoved_saved hclean ((partlySwitchedOff_isFrame _).refl _)
        ((codesBetween_isFrame _ _).refl _), Or.inl ⟨.run, ?_⟩⟩
      rw [hfate]
      decide
  · rcases save_cases s.courseware (fun _ => fate .run == .fails) r obj with ⟨e, hsave⟩ | ⟨h, -, -⟩
    · rw [hsave]
      exact Or.inr ⟨s, e, rfl, partlyRemoved_none s r obj, Or.inr (Or.inl hclean)⟩
    · exact absurd h hclean

theorem deactivateProducts_of_ok {fate : RemoveWrite → WriteFate}
    (h : (deactivateProducts fate r s).error = none) :
    (deactivateProducts fate r s).state.courseware.db = (deactivateRunProducts s.courseware.db r).1 := by
  let acc : CoursewareStore lookup × List ProductId := (s.courseware.db, [])
  have hrounds : (seq ((s.courseware.db.getRunProducts r).map (deactivateRunProduct fate)) acc.1).error = none := h
  exact deactivateRunProduct_seq_of_ok hrounds

/-- What is done for a run after it was saved. -/
theorem removeSaved_cases (update : EdxUpdate) (fate : RemoveWrite → WriteFate) (s : ContractCourseware lookup)
    (hclean : obj.run.clean lookup = .ok ()) :
    let saved := { s with courseware := s.courseware.withRun r obj hclean }
    let rest := seq [deactivateProducts fate r, removeDiscounts fate (s.courseware.db.getRunProducts r),
      fun s => ⟨{ s with courseware := s.courseware.pushRunDates update obj.run }, none⟩] saved
    rest = ⟨s.withRun update r obj hclean, none⟩ ∨
      ∃ s' e, rest = ⟨s', some e⟩ ∧ s.PartlyRemoved r obj s' ∧ s.CanStop fate r obj := by
  intro saved rest
  have hswitched := deactivateRunProduct_seq_partly fate (s.courseware.db.getRunProducts r)
    (s.courseware.withRun r obj hclean).db
  cases hproducts : (deactivateProducts fate r saved).error with
  | some e =>
    refine Or.inr ⟨_, e, andThen_of_error hproducts, partlyRemoved_saved hclean hswitched ?_,
      Or.inl (deactivateRunProduct_seq_error hproducts)⟩
    exact (codesBetween_isFrame _ _).refl _
  | none =>
    have hcodes := removeDiscounts_between fate s.hasTier (s.courseware.db.getRunProducts r)
      (discountsOf (s.courseware.db.getRunProducts r) s.codes) s.codes
    cases hremoved : (removeDiscounts fate (s.courseware.db.getRunProducts r)
        (deactivateProducts fate r saved).state).error with
    | some e =>
      refine Or.inr ⟨_, e, (andThen_of_ok hproducts).trans (andThen_of_error hremoved),
        partlyRemoved_saved hclean hswitched hcodes, ?_⟩
      exact (removeDiscounts_error hremoved).imp_right Or.inr
    | none =>
      have hoff := deactivateProducts_of_ok hproducts
      have hgone := removeDiscounts_of_ok hremoved
      refine Or.inl ((andThen_of_ok hproducts).trans ((andThen_of_ok hremoved).trans ?_))
      exact congrArg₂ (fun db codes => (⟨{ s with
        courseware := ({ s.courseware.withRun r obj hclean with db := db } :
          SyncedCourseware lookup).pushRunDates update obj.run
        codes := codes }, none⟩ : Outcome (ContractCourseware lookup) Error)) hoff hgone

/-- A run is removed, or its removal stops on the way. -/
theorem removeRun_cases (options : RemoveOptions) (handled : ℕ) (r : RunId) (obj : RunInstance)
    (s : ContractCourseware lookup) :
    let obj' := obj.removed options.contract (s.hasEnrollments r) (options.now handled)
    (∃ h, removeRun options handled r obj s = ⟨s.withRun (options.edxUpdate handled) r obj' h, none⟩) ∨
      ∃ s' e, removeRun options handled r obj s = ⟨s', some e⟩ ∧ s.PartlyRemoved r obj' s' ∧
        s.CanStop (options.fate handled) r obj' := by
  intro obj'
  unfold removeRun
  dsimp only
  rcases saveCourseware_cases (options.fate handled) r obj' s with ⟨hclean, hsave⟩ | ⟨s', e, hsave, hpart, hstop⟩
  · rw [andThen_of_ok (congrArg Outcome.error hsave), hsave]
    -- the products of the run are those that it had before it was saved
    exact (removeSaved_cases (options.edxUpdate handled) (options.fate handled) s hclean).imp_left
      fun hdone => ⟨hclean, hdone⟩
  · rw [andThen_of_error (congrArg Outcome.error hsave), hsave]
    exact Or.inr ⟨s', e, rfl, hpart, hstop⟩

/-- The run of an item is removed, if nothing fails. -/
theorem withRun_removed (hclock : options.ClockRuns) (h : st.Removed options s0 runs programs)
    (hclean : obj.run.clean lookup = .ok ()) (hshut : options.ShutBy s0 st.handled r obj) :
    RemoveState.Removed options s0 (insert r runs) programs
      ⟨st.s.withRun update r obj hclean, st.handled + 1⟩ := by
  have hproducts : isProductOf (st.s.courseware.db.getRunProducts r) = ofRuns s0.courseware.db {r} := by
    rw [h.getRunProducts_eq r, isProductOf_getRunProducts]
  have hlater : st.handled ≤ st.handled + 1 := Nat.le_succ st.handled
  constructor
  · exact h.runIds
  · exact h.isSourceRun
  · exact h.hasEnrollments
  · exact h.hasTier
  · intro r' hr'
    obtain ⟨hne, hunmet⟩ := not_or.mp (mt Finset.mem_insert.mpr hr')
    rw [withRun_courseware_instance, if_neg hne]
    exact h.kept r' hunmet
  · intro r' hr'
    rw [withRun_courseware_instance]
    split_ifs with heq
    · rw [heq]
      exact hshut.mono hclock hlater
    · have hmet := (Finset.mem_insert.mp hr').resolve_left heq
      exact (h.shut r' hmet).mono hclock hlater
  · rw [withRun_products_keys]
    exact h.keys
  · intro p
    rw [withRun_products_row, h.row p, hproducts, ofRuns_insert, Bool.not_or, Bool.and_assoc]
  · rw [ofRuns_insert]
    refine h.codes.trans ?_
    rw [← hproducts]
    exact withdrawDiscounts_withdrawn _ _
  · exact h.contractPrograms

/-- An item that changes no rows leaves what is removed. -/
theorem RemoveState.Removed.mono (hclock : options.ClockRuns) (h : st.Removed options s0 runs programs)
    (hle : st.handled ≤ n) : RemoveState.Removed options s0 runs programs ⟨st.s, n⟩ :=
  { h with shut := fun r hr => (h.shut r hr).mono hclock hle }

/-! ## What the list stands for -/

/-- The run is in the contract. -/
def ContractCourseware.IsContractRun (s : ContractCourseware lookup) (contract : ContractId)
    (r : RunId) : Prop :=
  r ∈ s.runIds ∧ (s.courseware.db.courseRun r).b2bContract = some contract

/-- What the command is given stands for the run. -/
def RemoveOptions.Means (options : RemoveOptions) (s : ContractCourseware lookup) (r : RunId) :
    CoursewareRef → Prop
  | .run run => run = r
  | .course course => s.IsContractRun options.contract r ∧ (s.courseware.db.courseRun r).course = course
  | .program program => s.IsContractRun options.contract r ∧ options.removeProgramRuns = true ∧
      s.isSourceRun r = false ∧ (s.courseware.db.courseRun r).course ∈ options.programCourses program
  | .missing => False

/-- The run is to be removed. -/
def RemoveOptions.Targets (options : RemoveOptions) (s : ContractCourseware lookup)
    (refs : List CoursewareRef) (r : RunId) : Prop :=
  ∃ ref ∈ refs, options.Means s r ref

/-- An item without what was read of the run. -/
def RemovedItem.ref : RemovedItem → CoursewareRef
  | .program p => .program p
  | .course c => .course c
  | .run r _ => .run r
  | .missing => .missing

theorem resolve_ref (s : ContractCourseware lookup) (ref : CoursewareRef) : (s.resolve ref).ref = ref := by
  cases ref with
  | program program => rfl
  | course course => rfl
  | run run => rfl
  | missing => rfl

/-- The state and the list while the command goes on: what is not removed yet is in the list. -/
structure RemoveState.Progress (options : RemoveOptions) (s0 : ContractCourseware lookup)
    (refs : List CoursewareRef) (runs : Finset RunId) (programs : Finset ProgramId) (st : RemoveState lookup)
    (queue : List RemovedItem) : Prop where
  removed : st.Removed options s0 runs programs
  targets : ∀ r ∈ runs, options.Targets s0 refs r
  queued : ∀ item ∈ queue, ∀ r, options.Means s0 r item.ref → options.Targets s0 refs r
  read : ∀ r obj, RemovedItem.run r obj ∈ queue →
    obj = s0.courseware.instance r ∨ options.ShutBy s0 st.handled r obj
  complete : ∀ r, options.Targets s0 refs r → r ∈ runs ∨ ∃ item ∈ queue, options.Means s0 r item.ref
  programs_iff : ∀ program, .program program ∈ refs ↔
    program ∈ programs ∨ RemovedItem.program program ∈ queue
  missing : RemovedItem.missing ∈ queue → .missing ∈ refs

/-- Where the command can fail: an id is unknown, something fails in a write or after it, a run does not
satisfy the checks of its table, or a tier refers to a code for a run that is to be removed. -/
def RemoveOptions.CanFail (options : RemoveOptions) (s0 : ContractCourseware lookup)
    (refs : List CoursewareRef) : Prop :=
  .missing ∈ refs ∨ (∃ n w, options.fate n w ≠ .done) ∨
    (∃ r, (s0.courseware.db.courseRun r).cleanExpirationDate ≠ .ok ()) ∨
    ∃ d ∈ s0.codes.discounts.keys, s0.hasTier d = true ∧ s0.codes.isUsed d = false ∧
      ∃ r, options.Targets s0 refs r ∧
        (s0.codes.discounts.row d).products.any (ofRuns s0.courseware.db {r}) = true

theorem progress_start (options : RemoveOptions) (s0 : ContractCourseware lookup) (refs : List CoursewareRef) :
    RemoveState.Progress options s0 refs ∅ ∅ ⟨s0, 0⟩ (refs.map s0.resolve) := by
  have hqueue : ∀ item ∈ refs.map s0.resolve, item.ref ∈ refs := by
    intro item hitem
    obtain ⟨ref, href, rfl⟩ := List.mem_map.mp hitem
    rw [resolve_ref]
    exact href
  constructor
  · exact removed_none options s0
  · exact fun r hr => absurd hr (Finset.notMem_empty r)
  · exact fun item hitem r hmeans => ⟨item.ref, hqueue item hitem, hmeans⟩
  · intro r obj hrun
    obtain ⟨ref, -, heq⟩ := List.mem_map.mp hrun
    cases ref with
    | run run =>
      obtain ⟨rfl, rfl⟩ := RemovedItem.run.inj heq
      exact Or.inl rfl
    | program program => cases heq
    | course course => cases heq
    | missing => cases heq
  · rintro r ⟨ref, href, hmeans⟩
    refine Or.inr ⟨s0.resolve ref, List.mem_map_of_mem href, ?_⟩
    rw [resolve_ref]
    exact hmeans
  · intro program
    constructor
    · exact fun href => Or.inr (List.mem_map.mpr ⟨.program program, href, rfl⟩)
    · rintro (hprogram | hitem)
      · exact absurd hprogram (Finset.notMem_empty program)
      · exact hqueue _ hitem
  · exact fun hitem => hqueue _ hitem

theorem mem_contractRuns {test : RunId → Bool} {item : RemovedItem} : item ∈ s.contractRuns contract test ↔
    ∃ r, s.IsContractRun contract r ∧ test r = true ∧ item = .run r (s.courseware.instance r) := by
  unfold contractRuns IsContractRun
  rw [List.mem_map]
  constructor
  · rintro ⟨r, hr, rfl⟩
    obtain ⟨hid, hcond⟩ := List.mem_filter.mp hr
    obtain ⟨hcontract, htest⟩ := Bool.and_eq_true_iff.mp hcond
    exact ⟨r, ⟨hid, beq_iff_eq.mp hcontract⟩, htest, rfl⟩
  · rintro ⟨r, ⟨hid, hcontract⟩, htest, rfl⟩
    exact ⟨r, List.mem_filter.mpr ⟨hid, by simp [hcontract, htest]⟩, rfl⟩

variable {queue : List RemovedItem} {item : RemovedItem}

/-- A run that was not removed is as it was. -/
theorem RemoveState.Removed.courseRun_eq (h : st.Removed options s0 runs programs) (hr : r ∉ runs) :
    st.s.courseware.db.courseRun r = s0.courseware.db.courseRun r :=
  congrArg RunInstance.run (h.kept r hr)

/-- An item other than a run gives way to runs as they are in the database. -/
theorem progress_added {st' : RemoveState lookup} {programs' : Finset ProgramId} (hclock : options.ClockRuns)
    (h : st.Progress options s0 refs runs programs (item :: queue))
    (hremoved : st'.Removed options s0 runs programs') (hlater : st.handled ≤ st'.handled)
    (hadded : ∀ new ∈ added, ∃ r, new = .run r (st.s.courseware.instance r) ∧
      (r ∈ runs ∨ options.Means s0 r item.ref))
    (hmeans : ∀ r ∉ runs, options.Means s0 r item.ref → ∃ obj, RemovedItem.run r obj ∈ added)
    (hprograms : ∀ program, program ∈ programs' ↔ program ∈ programs ∨ item = .program program) :
    st'.Progress options s0 refs runs programs' (queue ++ added) := by
  have htail : ∀ other ∈ queue, other ∈ item :: queue := fun other hother => List.mem_cons_of_mem item hother
  constructor
  · exact hremoved
  · exact h.targets
  · intro new hnew r hr
    rcases List.mem_append.mp hnew with hold | hnew
    · exact h.queued new (htail new hold) r hr
    · obtain ⟨r', rfl, hr'⟩ := hadded new hnew
      have heq : r' = r := hr
      subst heq
      rcases hr' with hmet | hitem
      · exact h.targets r' hmet
      · exact h.queued item List.mem_cons_self r' hitem
  · intro r obj hrun
    rcases List.mem_append.mp hrun with hold | hnew
    · exact (h.read r obj (htail _ hold)).imp_right fun hbefore => hbefore.mono hclock hlater
    · obtain ⟨r', heq, -⟩ := hadded _ hnew
      obtain ⟨rfl, rfl⟩ := RemovedItem.run.inj heq
      by_cases hmet : r ∈ runs
      · exact Or.inr ((h.removed.shut r hmet).mono hclock hlater)
      · exact Or.inl (h.removed.kept r hmet)
  · intro r htarget
    rcases h.complete r htarget with hmet | ⟨other, hother, hr⟩
    · exact Or.inl hmet
    · by_cases hmet : r ∈ runs
      · exact Or.inl hmet
      · right
        rcases List.mem_cons.mp hother with rfl | hold
        · obtain ⟨obj, hnew⟩ := hmeans r hmet hr
          exact ⟨_, List.mem_append.mpr (Or.inr hnew), rfl⟩
        · exact ⟨other, List.mem_append.mpr (Or.inl hold), hr⟩
  · intro program
    have hnone : RemovedItem.program program ∉ added := by
      intro hnew
      obtain ⟨r, heq, -⟩ := hadded _ hnew
      cases heq
    rw [h.programs_iff program, hprograms program, List.mem_cons, List.mem_append]
    tauto
  · intro hmissing
    rcases List.mem_append.mp hmissing with hold | hnew
    · exact h.missing (htail _ hold)
    · obtain ⟨r, heq, -⟩ := hadded _ hnew
      cases heq

/-- The runs of the contract that a course or a program adds: those that it stood for, and removed ones. -/
theorem contractRuns_added (test : RunId → Bool) (means : RunId → Prop)
    (h : st.Removed options s0 runs programs)
    (htest : ∀ r ∉ runs, (s0.IsContractRun options.contract r ∧ test r = true ↔ means r)) :
    (∀ new ∈ st.s.contractRuns options.contract test, ∃ r, new = .run r (st.s.courseware.instance r) ∧
      (r ∈ runs ∨ means r)) ∧
    ∀ r ∉ runs, means r → ∃ obj, RemovedItem.run r obj ∈ st.s.contractRuns options.contract test := by
  have hcontract : ∀ r ∉ runs, (st.s.IsContractRun options.contract r ↔
      s0.IsContractRun options.contract r) := by
    intro r hr
    unfold IsContractRun
    rw [h.runIds, h.courseRun_eq hr]
  constructor
  · intro new hnew
    obtain ⟨r, hr, hpasses, rfl⟩ := mem_contractRuns.mp hnew
    refine ⟨r, rfl, ?_⟩
    by_cases hmet : r ∈ runs
    · exact Or.inl hmet
    · exact Or.inr ((htest r hmet).mp ⟨(hcontract r hmet).mp hr, hpasses⟩)
  · intro r hmet hmeans
    obtain ⟨hr, hpasses⟩ := (htest r hmet).mpr hmeans
    exact ⟨_, mem_contractRuns.mpr ⟨r, (hcontract r hmet).mpr hr, hpasses, rfl⟩⟩

/-- A course gives way to its runs in the contract. -/
theorem progress_course {course : CourseId} (hclock : options.ClockRuns)
    (h : st.Progress options s0 refs runs programs (.course course :: queue)) :
    RemoveState.Progress options s0 refs runs programs ⟨st.s, st.handled + 1⟩
      (queue ++ st.s.contractRuns options.contract fun r =>
        (st.s.courseware.db.courseRun r).course == course) := by
  obtain ⟨hadded, hmeans⟩ := contractRuns_added
    (fun r => (st.s.courseware.db.courseRun r).course == course)
    (fun r => options.Means s0 r (.course course)) h.removed fun r hr => by
      rw [h.removed.courseRun_eq hr, beq_iff_eq]
      rfl
  have hlater : st.handled ≤ st.handled + 1 := Nat.le_succ st.handled
  refine progress_added hclock h (h.removed.mono hclock hlater) hlater hadded hmeans fun program => ?_
  simp

theorem RemoveState.Removed.unlinkProgram (hclock : options.ClockRuns)
    (h : st.Removed options s0 runs programs) (program : ProgramId) :
    RemoveState.Removed options s0 runs (insert program programs)
      ⟨st.s.unlinkProgram options.contract program, st.handled + 1⟩ := by
  have hlater : st.handled ≤ st.handled + 1 := Nat.le_succ st.handled
  refine { h with shut := fun r hr => (h.shut r hr).mono hclock hlater, contractPrograms := ?_ }
  show st.s.contractPrograms.filter _ = _
  rw [h.contractPrograms, List.filter_filter]
  refine List.filter_congr fun item _ => ?_
  obtain ⟨contract, program'⟩ := item
  rw [Bool.eq_iff_iff, Bool.and_eq_true, bne_iff_ne, Bool.not_eq_true', Bool.not_eq_true',
    decide_eq_false_iff_not, decide_eq_false_iff_not, Finset.mem_insert, Ne, Prod.mk.injEq]
  tauto

/-- A program is taken out of the contract, and gives way to its runs in the contract if it is to. -/
theorem progress_program {program : ProgramId} (hclock : options.ClockRuns)
    (h : st.Progress options s0 refs runs programs (.program program :: queue)) :
    RemoveState.Progress options s0 refs runs (insert program programs)
      ⟨st.s.unlinkProgram options.contract program, st.handled + 1⟩
      (queue ++ st.s.programRuns options program) := by
  have hremoved := h.removed.unlinkProgram hclock program
  have hlater : st.handled ≤ st.handled + 1 := Nat.le_succ st.handled
  have hprograms : ∀ program', program' ∈ insert program programs ↔
      program' ∈ programs ∨ (RemovedItem.program program) = .program program' := by
    intro program'
    rw [Finset.mem_insert, RemovedItem.program.injEq, eq_comm, or_comm]
  unfold programRuns
  by_cases hruns : options.removeProgramRuns = true
  · rw [if_pos hruns]
    obtain ⟨hnew, hmeans⟩ := contractRuns_added
      (fun r => (options.programCourses program).contains (st.s.courseware.db.courseRun r).course &&
        !st.s.isSourceRun r)
      (fun r => options.Means s0 r (.program program)) h.removed fun r hr => by
        rw [h.removed.courseRun_eq hr, h.removed.isSourceRun, Bool.and_eq_true, Bool.not_eq_true',
          List.contains_iff_mem]
        unfold RemoveOptions.Means
        tauto
    exact progress_added hclock h hremoved hlater hnew hmeans hprograms
  · rw [if_neg hruns]
    refine progress_added hclock h hremoved hlater (fun new hnew => absurd hnew List.not_mem_nil)
      (fun r _ hmeans => ?_) hprograms
    exact absurd hmeans.2.1 hruns

/-- A run in the list is a run to be removed, and closed when it is removed. -/
theorem RemoveState.Progress.next (h : st.Progress options s0 refs runs programs (.run r obj :: queue)) :
    options.Targets s0 refs r ∧ options.ShutBy s0 st.handled r
      (obj.removed options.contract (st.s.hasEnrollments r) (options.now st.handled)) := by
  rw [h.removed.hasEnrollments]
  exact ⟨h.queued _ List.mem_cons_self r rfl, removed_shutBy (h.read r obj List.mem_cons_self)⟩

/-- A run is removed. -/
theorem progress_run (hclock : options.ClockRuns)
    (h : st.Progress options s0 refs runs programs (.run r obj :: queue))
    (hclean : (obj.removed options.contract (st.s.hasEnrollments r)
      (options.now st.handled)).run.clean lookup = .ok ()) :
    RemoveState.Progress options s0 refs (insert r runs) programs
      ⟨st.s.withRun update r _ hclean, st.handled + 1⟩ queue := by
  obtain ⟨htarget, hshut⟩ := h.next
  have htail : ∀ other ∈ queue, other ∈ RemovedItem.run r obj :: queue := fun other hother =>
    List.mem_cons_of_mem _ hother
  constructor
  · exact withRun_removed hclock h.removed hclean hshut
  · intro r' hr'
    rcases Finset.mem_insert.mp hr' with rfl | hmet
    · exact htarget
    · exact h.targets r' hmet
  · exact fun other hother => h.queued other (htail other hother)
  · intro r' obj' hrun
    refine (h.read r' obj' (htail _ hrun)).imp_right fun hbefore => ?_
    exact hbefore.mono hclock (Nat.le_succ st.handled)
  · intro r' htarget'
    rcases h.complete r' htarget' with hmet | ⟨other, hother, hr'⟩
    · exact Or.inl (Finset.mem_insert_of_mem hmet)
    · rcases List.mem_cons.mp hother with rfl | hold
      · have heq : r = r' := hr'
        rw [heq]
        exact Or.inl (Finset.mem_insert_self r' runs)
      · exact Or.inr ⟨other, hold, hr'⟩
  · intro program
    rw [h.programs_iff program, List.mem_cons]
    simp
  · exact fun hmissing => h.missing (htail _ hmissing)

/-- A run is read with the checks that it satisfied in the database, so only these can refuse it. -/
theorem read_clean (h : st.Progress options s0 refs runs programs (.run r obj :: queue))
    (hexpiration : (s0.courseware.db.courseRun r).cleanExpirationDate = .ok ()) :
    (obj.removed options.contract (st.s.hasEnrollments r) (options.now st.handled)).run.clean lookup =
      .ok () := by
  obtain ⟨-, t, -, -, hshut⟩ := h.next
  rw [hshut]
  exact shutAt_clean (s0.courseware.db.clean_language r) hexpiration

/-- Where the removal of a run in the list can stop, the command can fail. -/
theorem canFail_of_canStop (h : st.Progress options s0 refs runs programs (.run r obj :: queue))
    (hstop : st.s.CanStop (options.fate st.handled) r
      (obj.removed options.contract (st.s.hasEnrollments r) (options.now st.handled))) :
    options.CanFail s0 refs := by
  rcases hstop with ⟨w, hw⟩ | hunclean | ⟨d, hd, htier, hunused⟩
  · exact Or.inr (Or.inl ⟨st.handled, w, hw⟩)
  · exact Or.inr (Or.inr (Or.inl ⟨r, fun hexpiration => hunclean (read_clean h hexpiration)⟩))
  · obtain ⟨hkey, hany⟩ := mem_discountsOf.mp hd
    obtain ⟨product, hproduct, hof⟩ := List.any_eq_true.mp hany
    have hkey0 := ((h.removed.codes.mem_keys d).mp hkey).1
    rw [h.removed.codes.row d hkey] at hproduct
    rw [h.removed.hasTier] at htier
    rw [h.removed.codes.isUsed] at hunused
    rw [h.removed.getRunProducts_eq r, isProductOf_getRunProducts] at hof
    refine Or.inr (Or.inr (Or.inr ⟨d, hkey0, htier, hunused, r, h.next.1, ?_⟩))
    exact List.any_eq_true.mpr ⟨product, (List.mem_filter.mp hproduct).1, hof⟩

/-! ## The command -/

theorem after_ok {st' : RemoveState lookup} {outcome : Outcome (ContractCourseware lookup) Error}
    {items : List RemovedItem} (h : st.after outcome items = (st', .ok added)) :
    outcome.error = none ∧ st' = ⟨outcome.state, st.handled + 1⟩ ∧ added = items := by
  obtain ⟨hstate, hresult⟩ := Prod.mk.inj h
  cases herror : outcome.error with
  | none =>
    rw [herror] at hresult
    exact ⟨rfl, hstate.symm, (Except.ok.inj hresult).symm⟩
  | some e =>
    rw [herror] at hresult
    cases hresult

theorem after_error {st' : RemoveState lookup} {outcome : Outcome (ContractCourseware lookup) Error}
    {items : List RemovedItem} {e : Error} (h : st.after outcome items = (st', .error e)) :
    outcome.error = some e ∧ st'.s = outcome.state := by
  obtain ⟨hstate, hresult⟩ := Prod.mk.inj h
  cases herror : outcome.error with
  | none =>
    rw [herror] at hresult
    cases hresult
  | some e' =>
    rw [herror] at hresult
    exact ⟨congrArg some (Except.error.inj hresult), congrArg RemoveState.s hstate.symm⟩

/-- What an item that returns leaves and adds. -/
theorem removeCourseware_ok {st' : RemoveState lookup}
    (h : removeCourseware options st item = (st', .ok added)) :
    (∃ program, item = .program program ∧ added = st.s.programRuns options program ∧
      st' = ⟨st.s.unlinkProgram options.contract program, st.handled + 1⟩) ∨
    (∃ course, item = .course course ∧ st' = ⟨st.s, st.handled + 1⟩ ∧
      added = st.s.contractRuns options.contract fun r =>
        (st.s.courseware.db.courseRun r).course == course) ∨
    ∃ r obj hclean, item = .run r obj ∧ added = [] ∧
      st' = ⟨st.s.withRun (options.edxUpdate st.handled) r
        (obj.removed options.contract (st.s.hasEnrollments r) (options.now st.handled)) hclean,
        st.handled + 1⟩ := by
  cases item with
  | program program =>
    obtain ⟨hok, rfl, rfl⟩ := after_ok h
    rw [write_of_ok hok]
    exact Or.inl ⟨program, rfl, rfl, rfl⟩
  | course course =>
    obtain ⟨-, rfl, rfl⟩ := after_ok h
    exact Or.inr (Or.inl ⟨course, rfl, rfl, rfl⟩)
  | run r obj =>
    obtain ⟨hok, rfl, rfl⟩ := after_ok h
    rcases removeRun_cases options st.handled r obj st.s with ⟨hclean, hremove⟩ | ⟨s', e, hraise, -, -⟩
    · rw [hremove]
      exact Or.inr (Or.inr ⟨r, obj, hclean, rfl, rfl, rfl⟩)
    · rw [hraise] at hok
      cases hok
  | missing => cases (Prod.mk.inj h).2

/-- What an item that raises leaves, and why it raises. -/
theorem removeCourseware_error {st' : RemoveState lookup} {e : Error}
    (h : removeCourseware options st item = (st', .error e)) :
    (item = .missing ∧ st'.s = st.s) ∨
    (∃ program, item = .program program ∧ (∃ n w, options.fate n w ≠ .done) ∧
      (st'.s = st.s ∨ st'.s = st.s.unlinkProgram options.contract program)) ∨
    ∃ r obj, item = .run r obj ∧
      st.s.PartlyRemoved r (obj.removed options.contract (st.s.hasEnrollments r) (options.now st.handled))
        st'.s ∧
      st.s.CanStop (options.fate st.handled) r
        (obj.removed options.contract (st.s.hasEnrollments r) (options.now st.handled)) := by
  obtain ⟨st', handled⟩ := st'
  cases item with
  | program program =>
    obtain ⟨herror, rfl⟩ := after_error h
    have hwritten := write_cases (options.fate st.handled .contractPrograms)
      (fun s => s.unlinkProgram options.contract program) st.s
    exact Or.inr (Or.inl ⟨program, rfl, ⟨_, _, write_fate herror⟩, hwritten.symm⟩)
  | course course => cases (after_error h).1
  | run r obj =>
    obtain ⟨herror, rfl⟩ := after_error h
    rcases removeRun_cases options st.handled r obj st.s with ⟨hclean, hremove⟩ | ⟨s', e', hraise, hpart, hstop⟩
    · rw [hremove] at herror
      cases herror
    · rw [hraise]
      exact Or.inr (Or.inr ⟨r, obj, rfl, hpart, hstop⟩)
  | missing => exact Or.inl ⟨rfl, (congrArg RemoveState.s (Prod.mk.inj h).1).symm⟩

/-- The state and the list, for some runs and programs. -/
def RemoveOptions.GoesOn (options : RemoveOptions) (s0 : ContractCourseware lookup) (refs : List CoursewareRef)
    (st : RemoveState lookup) (queue : List RemovedItem) : Prop :=
  ∃ runs programs, st.Progress options s0 refs runs programs queue

theorem goesOn_step (hclock : options.ClockRuns) {st' : RemoveState lookup}
    (h : options.GoesOn s0 refs st (item :: queue))
    (hstep : removeCourseware options st item = (st', .ok added)) :
    options.GoesOn s0 refs st' (queue ++ added) := by
  obtain ⟨runs, programs, hprogress⟩ := h
  rcases removeCourseware_ok hstep with ⟨program, rfl, rfl, rfl⟩ | ⟨course, rfl, rfl, rfl⟩ |
    ⟨r, obj, hclean, rfl, rfl, rfl⟩
  · exact ⟨runs, _, progress_program hclock hprogress⟩
  · exact ⟨runs, programs, progress_course hclock hprogress⟩
  · rw [List.append_nil]
    exact ⟨_, programs, progress_run hclock hprogress hclean⟩

/-- The state `s` is that of `before`, or a run is in the midst of its removal. -/
def RemoveOptions.StoppedFrom (options : RemoveOptions) (s0 : ContractCourseware lookup)
    (refs : List CoursewareRef) (before : RemoveState lookup) (s : ContractCourseware lookup) : Prop :=
  s = before.s ∨ ∃ r obj, options.Targets s0 refs r ∧ options.ShutBy s0 before.handled r obj ∧
    before.s.PartlyRemoved r obj s

/-- An item that raises is one that can, and leaves the state as it was but for itself. -/
theorem goesOn_error (hclock : options.ClockRuns) {st' : RemoveState lookup} {e : Error}
    (h : options.GoesOn s0 refs st (item :: queue))
    (hstep : removeCourseware options st item = (st', .error e)) :
    (∃ before queue', options.GoesOn s0 refs before queue' ∧ options.StoppedFrom s0 refs before st'.s) ∧
      options.CanFail s0 refs := by
  have hbefore := h
  obtain ⟨runs, programs, hprogress⟩ := h
  rcases removeCourseware_error hstep with ⟨rfl, hsame⟩ | ⟨program, rfl, hfate, hwritten⟩ |
    ⟨r, obj, rfl, hpart, hstop⟩
  · exact ⟨⟨st, _, hbefore, Or.inl hsame⟩, Or.inl (hprogress.missing List.mem_cons_self)⟩
  · refine ⟨?_, Or.inr (Or.inl hfate)⟩
    rcases hwritten with hsame | hunlinked
    · exact ⟨st, _, hbefore, Or.inl hsame⟩
    · exact ⟨_, _, ⟨runs, _, progress_program hclock hprogress⟩, Or.inl hunlinked⟩
  · obtain ⟨htarget, hshut⟩ := hprogress.next
    exact ⟨⟨st, _, hbefore, Or.inr ⟨r, _, htarget, hshut, hpart⟩⟩, canFail_of_canStop hprogress hstop⟩

theorem contractRuns_weight (s : ContractCourseware lookup) (contract : ContractId) (test : RunId → Bool)
    (runs : ℕ) : ((s.contractRuns contract test).map (RemovedItem.weight runs)).sum ≤ s.runIds.length := by
  have hones : (s.contractRuns contract test).map (RemovedItem.weight runs) =
      List.replicate (s.contractRuns contract test).length 1 := by
    refine List.eq_replicate_iff.mpr ⟨List.length_map _, fun weight hweight => ?_⟩
    obtain ⟨item, hitem, rfl⟩ := List.mem_map.mp hweight
    obtain ⟨r, -, -, rfl⟩ := mem_contractRuns.mp hitem
    rfl
  rw [hones, List.sum_replicate_nat, Nat.mul_one]
  unfold contractRuns
  rw [List.length_map]
  exact List.length_filter_le _ _

/-- An item stands for more than it adds. -/
theorem removeCourseware_weight {st' : RemoveState lookup}
    (hstep : removeCourseware options st item = (st', .ok added)) :
    st'.s.runIds = st.s.runIds ∧
      (added.map (RemovedItem.weight st.s.runIds.length)).sum < item.weight st.s.runIds.length := by
  rcases removeCourseware_ok hstep with ⟨program, rfl, rfl, rfl⟩ | ⟨course, rfl, rfl, rfl⟩ |
    ⟨r, obj, hclean, rfl, rfl, rfl⟩
  · refine ⟨rfl, ?_⟩
    unfold programRuns
    split_ifs
    · exact Nat.lt_succ_of_le (contractRuns_weight _ _ _ _)
    · exact Nat.succ_pos _
  · exact ⟨rfl, Nat.lt_succ_of_le (contractRuns_weight _ _ _ _)⟩
  · exact ⟨rfl, Nat.one_pos⟩

/-- The command comes to an end, although its list grows while it goes through it. -/
theorem handleRemove_isSome (options : RemoveOptions) (refs : List CoursewareRef)
    (s : ContractCourseware lookup) : (handleRemove options refs s).isSome = true := by
  refine Worklist.drain_isSome (fun st => st.s.runIds = s.runIds)
    (RemovedItem.weight s.runIds.length) (fun item => ?_) (fun st item st' added hids hstep => ?_)
    rfl le_rfl
  · cases item with
    | program program => exact Nat.succ_pos _
    | course course => exact Nat.succ_pos _
    | run r obj => exact Nat.one_pos
    | missing => exact Nat.one_pos
  · obtain ⟨hids', hweight⟩ := removeCourseware_weight hstep
    rw [hids] at hweight
    exact ⟨hids'.trans hids, hweight⟩

/-- The command ends with an empty list, or it stops on the way. -/
theorem handleRemove_cases (options : RemoveOptions) (refs : List CoursewareRef)
    (s : ContractCourseware lookup) (hclock : options.ClockRuns) :
    ∃ st result, handleRemove options refs s = some (st, result) ∧
      ((result = .ok () ∧ options.GoesOn s refs st []) ∨
        ((∃ e, result = .error e) ∧
          (∃ before queue, options.GoesOn s refs before queue ∧ options.StoppedFrom s refs before st.s) ∧
          options.CanFail s refs)) := by
  obtain ⟨⟨st, result⟩, hresult⟩ := Option.isSome_iff_exists.mp (handleRemove_isSome options refs s)
  have hstart : options.GoesOn s refs ⟨s, 0⟩ (refs.map s.resolve) :=
    ⟨∅, ∅, progress_start options s refs⟩
  exact ⟨st, result, hresult, Worklist.drain_of_step (options.GoesOn s refs)
    (fun st' => (∃ before queue, options.GoesOn s refs before queue ∧ options.StoppedFrom s refs before st'.s) ∧
      options.CanFail s refs)
    (fun st item queue st' added h hstep => goesOn_step hclock h hstep)
    (fun st item queue st' e h hstep => goesOn_error hclock h hstep) hresult hstart⟩

/-- Where nothing can fail the command returns. -/
theorem handleRemove_returns (hclock : options.ClockRuns) (hsafe : ¬options.CanFail s refs) :
    ∃ st, handleRemove options refs s = some (st, .ok ()) := by
  obtain ⟨st, result, hresult, ⟨rfl, -⟩ | ⟨-, -, hfail⟩⟩ := handleRemove_cases options refs s hclock
  · exact ⟨st, hresult⟩
  · exact absurd hfail hsafe

/-- When the list is empty all is removed. -/
theorem RemoveState.Progress.done (h : st.Progress options s0 refs runs programs []) :
    (∀ r, options.Targets s0 refs r → r ∈ runs) ∧
      ∀ program, CoursewareRef.program program ∈ refs → program ∈ programs := by
  constructor
  · intro r htarget
    rcases h.complete r htarget with hmet | ⟨item, hitem, -⟩
    · exact hmet
    · cases hitem
  · intro program href
    rcases (h.programs_iff program).mp href with hmet | hitem
    · exact hmet
    · cases hitem

/-- The command ends. If it returns it has removed exactly the runs and the programs that it was given or
that stand for these in the contract. If it raises it has removed some of them, but for one run at most whose
removal stopped on the way; and an id was unknown, a write failed or what hangs on it, a run did not satisfy the
checks of its table before, or a tier refers to a code that was to go. -/
theorem courseware_removed (options : RemoveOptions) (refs : List CoursewareRef)
    (s : ContractCourseware lookup) (hclock : options.ClockRuns) :
    ∃ st result, handleRemove options refs s = some (st, result) ∧
      ∃ before runs programs, before.Removed options s runs programs ∧
        (∀ r ∈ runs, options.Targets s refs r) ∧ (∀ program ∈ programs, .program program ∈ refs) ∧
        ((result = .ok () ∧ before = st ∧ (∀ r, options.Targets s refs r → r ∈ runs) ∧
            ∀ program, .program program ∈ refs → program ∈ programs) ∨
          ((∃ e, result = .error e) ∧ options.StoppedFrom s refs before st.s ∧ options.CanFail s refs)) := by
  obtain ⟨st, result, hresult, ⟨hok, runs, programs, hdone⟩ |
    ⟨herror, ⟨before, queue, ⟨runs, programs, hpart⟩, hstopped⟩, hwhy⟩⟩ :=
    handleRemove_cases options refs s hclock
  · exact ⟨st, result, hresult, st, runs, programs, hdone.removed, hdone.targets,
      fun program hprogram => (hdone.programs_iff program).mpr (Or.inl hprogram),
      Or.inl ⟨hok, rfl, hdone.done⟩⟩
  · exact ⟨st, result, hresult, before, runs, programs, hpart.removed, hpart.targets,
      fun program hprogram => (hpart.programs_iff program).mpr (Or.inl hprogram),
      Or.inr ⟨herror, hstopped, hwhy⟩⟩

/-- One live run of the contract, with a product and a code for it. -/
def oneContractRun : ContractCourseware (fun _ => true) where
  courseware := { laterEnd with
    db := { laterEnd.db with
      courseRun := fun r => { laterEnd.db.courseRun r with b2bContract := some 0 }
      clean_language := fun _ => rfl } }
  runIds := [1]
  isSourceRun _ := false
  hasEnrollments _ := false
  contractPrograms := [(0, 7)]
  codes := ⟨Store.empty, Table.single 3 (CodeStore.newCode 1 ⟨0⟩ .oneTime)⟩
  hasTier _ := false

/-- The program of the run is to be removed, with its runs. -/
def removeProgram : RemoveOptions where
  contract := 0
  removeProgramRuns := true
  programCourses _ := [1]
  now _ := 50
  edxUpdate _ := keepingEdx
  fate _ _ := .done

theorem removeProgram_clock : removeProgram.ClockRuns := fun _ _ _ => le_rfl

theorem removeProgram_targets : removeProgram.Targets oneContractRun [.program 7] 1 :=
  ⟨.program 7, List.mem_singleton.mpr rfl, ⟨List.mem_singleton.mpr rfl, rfl⟩, rfl, rfl,
    List.mem_singleton.mpr rfl⟩

theorem removeProgram_safe : ¬removeProgram.CanFail oneContractRun [.program 7] := by
  rintro (hmissing | ⟨n, w, hfate⟩ | ⟨r, hunclean⟩ | ⟨d, -, htier, -⟩)
  · cases List.mem_singleton.mp hmissing
  · exact hfate rfl
  · exact hunclean rfl
  · cases htier

theorem courseware_removed_oneContractRun :
    ∃ st runs programs, handleRemove removeProgram [.program 7] oneContractRun = some (st, .ok ()) ∧
      st.Removed removeProgram oneContractRun runs programs ∧ 1 ∈ runs ∧ 7 ∈ programs := by
  obtain ⟨st, result, hresult, before, runs, programs, hremoved, -, -, ⟨rfl, rfl, hruns, hprograms⟩ |
    ⟨-, -, hfail⟩⟩ := courseware_removed removeProgram [.program 7] oneContractRun removeProgram_clock
  · exact ⟨before, runs, programs, hresult, hremoved, hruns 1 removeProgram_targets,
      hprograms 7 (List.mem_singleton.mpr rfl)⟩
  · exact absurd hfail removeProgram_safe

/-! ## Afterwards -/

theorem RemoveOptions.ShutBy.live {obj : RunInstance} (h : options.ShutBy s0 n r obj) :
    obj.run.live = false := by
  obtain ⟨t, -, -, rfl⟩ := h
  exact detached_live ..

/-- A removed run has nothing for sale, and no code for what it had. -/
theorem RemoveState.Removed.withdrawn (h : st.Removed options s0 runs programs) (hr : r ∈ runs)
    {p : ProductId} (hp : p ∈ s0.courseware.db.getRunProducts r) :
    (st.s.courseware.db.products.row p).isActive = false ∧
      ∀ d ∈ st.s.codes.discounts.keys, some p ∉ (st.s.codes.discounts.row d).products := by
  have hof : ofRuns s0.courseware.db runs (some p) = true := by
    obtain ⟨hkey, hcond⟩ := List.mem_filter.mp hp
    obtain ⟨htype, hobject⟩ := Bool.and_eq_true_iff.mp hcond
    unfold ofRuns
    rw [Option.any_some, htype, beq_iff_eq.mp hobject, decide_eq_true hkey, decide_eq_true hr]
    rfl
  constructor
  · rw [h.row p, hof, Bool.not_true, Bool.and_false]
  · intro d hd hcode
    rw [h.codes.row d hd] at hcode
    have hkept := (List.mem_filter.mp hcode).2
    rw [hof] at hkept
    cases hkept

/-- A run that was removed takes no learners again, has nothing to sell and no codes, whatever syncs,
retirements and edits in edX follow: a sync may bring its dates back, but nothing makes it live. -/
theorem removed_runs_stay_closed (options : RemoveOptions) (refs : List CoursewareRef)
    (s : ContractCourseware lookup) (hclock : options.ClockRuns) (st : RemoveState lookup)
    (hok : handleRemove options refs s = some (st, .ok ())) (r : RunId) (hr : options.Targets s refs r)
    (update : EdxUpdate) (isCourseKey : String → Bool) (events : List CoursewareEvent) (t : Instant) :
    let later := Trace.run (coursewareStep update isCourseKey) st.s.courseware events
    (later.db.courseRun r).isEnrollable t = false ∧
      (∀ hasProduct, (later.db.courseRun r).isUpgradable hasProduct t = false) ∧
      ∀ p ∈ later.db.getRunProducts r, (later.db.products.row p).isActive = false ∧
        ∀ d ∈ st.s.codes.discounts.keys, some p ∉ (st.s.codes.discounts.row d).products := by
  obtain ⟨runs, programs, hdone⟩ : options.GoesOn s refs st [] := by
    obtain ⟨st', result, hresult, hend⟩ := handleRemove_cases options refs s hclock
    obtain ⟨rfl, rfl⟩ := Prod.mk.inj (Option.some.inj (hok.symm.trans hresult))
    rcases hend with ⟨-, hdone⟩ | ⟨⟨e, herror⟩, -⟩
    · exact hdone
    · cases herror
  have hremoved := hdone.removed
  have hmet : r ∈ runs := hdone.done.1 r hr
  intro later
  have hlive : (later.db.courseRun r).live = false := by
    let Inv : SyncedCourseware lookup → Prop := fun later => (later.db.courseRun r).live = false
    have hstep : ∀ later e, Inv later → Inv (coursewareStep update isCourseKey later e) := fun _ e h =>
      coursewareStep_live update isCourseKey e h
    exact Trace.run_of_invariant Inv hstep (hremoved.shut r hmet).live events
  have hswitched : st.s.courseware.db.SwitchedOff later.db := by
    let Inv : SyncedCourseware lookup → Prop := fun later => st.s.courseware.db.SwitchedOff later.db
    have hstep : ∀ later e, Inv later → Inv (coursewareStep update isCourseKey later e) := fun later e h =>
      h.trans (coursewareStep_switchedOff update isCourseKey later e)
    exact Trace.run_of_invariant Inv hstep (switchedOff_of_products rfl) events
  refine ⟨?_, fun hasProduct => ?_, fun p hp => ?_⟩
  · unfold ScheduledRun.isEnrollable
    rw [hlive, Bool.and_false, Bool.false_and]
  · unfold ScheduledRun.isUpgradable
    rw [hlive, Bool.false_and, Bool.false_and, Bool.false_and]
  · rw [hswitched.getRunProducts_eq r, hremoved.getRunProducts_eq r] at hp
    obtain ⟨hoff, hcodes⟩ := hremoved.withdrawn hmet hp
    exact ⟨hswitched.isActive_eq_false hoff, hcodes⟩

theorem removed_runs_stay_closed_oneContractRun :
    ∃ st, handleRemove removeProgram [.program 7] oneContractRun = some (st, .ok ()) ∧
      ((Trace.run (coursewareStep keepingEdx fun _ => true) st.s.courseware
        [.sync [1] oneAnswer]).db.courseRun 1).isEnrollable 40 = false := by
  obtain ⟨st, hok⟩ := handleRemove_returns removeProgram_clock removeProgram_safe
  exact ⟨st, hok, (removed_runs_stay_closed removeProgram [.program 7] oneContractRun removeProgram_clock st
    hok 1 removeProgram_targets keepingEdx (fun _ => true) [.sync [1] oneAnswer] 40).1⟩

end MitxOnline
