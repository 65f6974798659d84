import MitxOnline.Courses.Proofs.ActiveModesProofs
import MitxOnline.Ecommerce.Proofs.OrderFlowProofs

/-!
# The modes that a fulfilled order leaves

Whatever fails while an order is fulfilled, an enrollment in one of its runs keeps its mode or becomes verified,
and every other enrollment keeps its mode.
-/

namespace MitxOnline

open Autocommit

variable {f : Faults} {cat : Catalog} {now : Instant} {user : UserId} {r : RunId} {o : OrderId}
  {s s' : Store} {runs : List RunId}

/-- The mode of an enrollment, active or not. -/
def Store.storedMode (s : Store) (user : UserId) (r : RunId) : Option EnrollmentMode :=
  (s.enrollments user r).map (·.enrollmentMode)

theorem storedMode_of_enrollments (h : s'.enrollments = s.enrollments) (user : UserId) (r : RunId) :
    s'.storedMode user r = s.storedMode user r := by
  rw [Store.storedMode, Store.storedMode, h]

theorem storedMode_setEnrollment_self (e : CourseRunEnrollment) (s : Store) :
    (setEnrollment user r e s).storedMode user r = some e.enrollmentMode := by
  simp [Store.storedMode, setEnrollment]

theorem storedMode_setEnrollment_of_ne {user' : UserId} {r' : RunId} (e : CourseRunEnrollment) (s : Store)
    (h : ¬(user' = user ∧ r' = r)) :
    (setEnrollment user r e s).storedMode user' r' = s.storedMode user' r' := by
  simp [Store.storedMode, setEnrollment, h]

/-- The enrollments keep their modes, but those of the user in the runs may become verified. -/
def MayVerify (user : UserId) (runs : List RunId) (s s' : Store) : Prop :=
  ∀ user' r, s'.storedMode user' r = s.storedMode user' r ∨
    (user' = user ∧ r ∈ runs ∧ s'.storedMode user' r = some .verified)

theorem isFrame_mayVerify (user : UserId) (runs : List RunId) : IsFrame (MayVerify user runs) := by
  constructor
  · intro s user' r
    exact Or.inl rfl
  · intro s t u hst htu user' r
    rcases htu user' r with hsame | hverified
    · rw [hsame]
      exact hst user' r
    · exact Or.inr hverified

theorem MayVerify.mono {runs' : List RunId} (h : MayVerify user runs s s') (hsubset : runs ⊆ runs') :
    MayVerify user runs' s s' := by
  intro user' r
  rcases h user' r with hsame | ⟨huser, hr, hverified⟩
  · exact Or.inl hsame
  · exact Or.inr ⟨huser, hsubset hr, hverified⟩

theorem mayVerify_of_enrollments (h : s'.enrollments = s.enrollments) : MayVerify user runs s s' :=
  fun user' r => Or.inl (storedMode_of_enrollments h user' r)

/-- A round for a run keeps the mode of the enrollment or verifies it. -/
theorem recordRunEnrollment_mayVerify (changeStatus : Option String) (success : Bool) :
    Keeps (MayVerify user [r]) (recordRunEnrollment f cat now user changeStatus .verified success r) := by
  intro s
  -- what holds before and after every statement of the round
  let Stays : Store → Prop := fun t => MayVerify user [r] s t
  have hframe : IsFrame fun t t' => Stays t → Stays t' := isFrame_preserves Stays
  have hstart : Stays s := (isFrame_mayVerify user [r]).refl s
  have hkept : ∀ {t t' : Store}, t'.enrollments = t.enrollments → Stays t → Stays t' := by
    intro t t' heq ht
    exact (isFrame_mayVerify user [r]).trans _ _ _ ht (mayVerify_of_enrollments heq)
  have hwrite : ∀ e : CourseRunEnrollment,
      e.enrollmentMode = .verified ∨ s.storedMode user r = some e.enrollmentMode →
      ∀ t, Stays t → Stays (setEnrollment user r e t) := by
    intro e hmode t ht user' r'
    by_cases hself : user' = user ∧ r' = r
    · obtain ⟨rfl, rfl⟩ := hself
      rw [storedMode_setEnrollment_self]
      rcases hmode with hverified | hsame
      · exact Or.inr ⟨rfl, List.mem_singleton_self _, by rw [hverified]⟩
      · exact Or.inl hsame.symm
    · rw [storedMode_setEnrollment_of_ne e t hself]
      exact ht user' r'
  have hjoin : Keeps (fun t t' => Stays t → Stays t') (joinContract f cat now user r) :=
    keeps_joinContract hframe (fun _ _ _ => hkept rfl) fun _ _ => hkept rfl
  unfold recordRunEnrollment
  split
  · refine keeps_attempt (keeps_seq_cons hframe ?_ (keeps_seq_cons hframe (keeps_mayFail hframe)
      (keeps_seq_cons hframe hjoin (keeps_seq_nil hframe)))) s hstart
    exact keeps_write hframe (hwrite _ (Or.inl rfl))
  · rename_i e he
    have hmode : s.storedMode user r = some e.enrollmentMode := by
      unfold Store.storedMode
      rw [he]
      rfl
    refine keeps_attempt (keeps_seq_cons hframe (keeps_mayFail hframe) (keeps_seq_cons hframe hjoin
      (keeps_seq_cons hframe ?_ (keeps_seq_cons hframe ?_ (keeps_seq_nil hframe))))) s hstart
    · exact keeps_write hframe (hwrite _ (Or.inr hmode))
    · exact keeps_write hframe (hwrite _ (Or.inl (withMode_enrollmentMode _ _)))

theorem createRunEnrollments_mayVerify (changeStatus : Option String) (keep : Bool) :
    Keeps (MayVerify user runs) (createRunEnrollments f cat now user runs changeStatus keep .verified) := by
  refine keeps_createRunEnrollments_of_record (isFrame_mayVerify user runs) fun success r hr s => ?_
  exact (recordRunEnrollment_mayVerify changeStatus success s).mono (by simpa using hr)

/-- The lines are for course runs among the given ones, or for nothing. -/
def OnlyRuns (runs : List RunId) (lines : List Line) : Prop :=
  ∀ l ∈ lines, l.purchasesNothing ∨ ∃ r ∈ runs, l.purchases .courseRun r = true

/-- The hook of a line for a run verifies at most the enrollment in the run. -/
theorem processTransactionLine_mayVerify {l : Line}
    (h : l.purchasesNothing ∨ ∃ r ∈ runs, l.purchases .courseRun r = true) :
    Keeps (MayVerify user runs) (processTransactionLine f cat now user o l) := by
  have hframe := isFrame_mayVerify user runs
  rcases processTransactionLine_cases f cat now user o l with
    ⟨r, hr, heq⟩ | ⟨p, hp, heq⟩ | ⟨-, heq⟩
  · rw [heq]
    have hmem : r ∈ runs := by
      rcases h with hnothing | ⟨r', hr', hline⟩
      · rw [not_purchases_of_nothing hnothing] at hr
        cases hr
      · exact (purchases_inj hline hr).2 ▸ hr'
    refine keeps_seq_cons hframe ?_ (keeps_seq_cons hframe ?_ (keeps_seq_nil hframe))
    · intro s
      exact (createRunEnrollments_mayVerify none true s).mono (by simpa using hmem)
    · exact keeps_createPaidCourseRun hframe fun s _ => mayVerify_of_enrollments rfl
  · exfalso
    rcases h with hnothing | ⟨r, -, hline⟩
    · rw [not_purchases_of_nothing hnothing] at hp
      cases hp
    · cases (purchases_inj hline hp).1
  · rw [heq]
    exact keeps_skip hframe

/-- Fulfilling an order verifies at most the enrollments in its runs. -/
theorem fulfill_mayVerify {data : PaymentData} {opts : FulfillOptions} {inTransaction : Bool}
    (h : OnlyRuns runs (s.order o).lines.rows) (hpurchaser : (s.order o).purchaser = user) :
    MayVerify user runs s (fulfill f cat now o data opts inTransaction s).state := by
  -- the lines and the purchaser stay those of the order while it is fulfilled
  let Stays : Store → Prop := fun t => MayVerify user runs s t ∧ OnlyRecords o s t
  have hframe : IsFrame fun t t' => Stays t → Stays t' := isFrame_preserves Stays
  have hmay := isFrame_mayVerify user runs
  have hrecords := onlyRecords_frame o
  have henrollments : Keeps (fun t t' => Stays t → Stays t') (createEnrollments f cat now o) := by
    intro t ht
    have hlines : (t.order o).lines = (s.order o).lines := ht.2.lines
    have huser : (t.order o).purchaser = user := ht.2.purchaser.trans hpurchaser
    refine ⟨hmay.trans _ _ _ ht.1 ?_, hrecords.trans _ _ _ ht.2 ?_⟩
    · refine keeps_seq hmay (fun a ha => ?_) t
      obtain ⟨l, hl, rfl⟩ := List.mem_map.mp ha
      rw [hlines] at hl
      rw [huser]
      exact processTransactionLine_mayVerify (h l hl)
    · exact onlyRecords_of_ordersKept (createEnrollments_orders t)
  have hbody : Keeps (fun t t' => Stays t → Stays t')
      (fulfillBody f cat now o data opts inTransaction) := by
    refine keeps_fulfillBody hframe (fun transaction t ht => ?_) henrollments
    exact ⟨hmay.trans _ _ _ ht.1 (mayVerify_of_enrollments rfl),
      hrecords.trans _ _ _ ht.2 (onlyRecords_addTransaction t transaction)⟩
  have hstart : Stays s := ⟨hmay.refl s, hrecords.refl s⟩
  unfold fulfill
  rcases callTransition_cases f ⟨some [.pending], .fulfilled⟩ o
    (fulfillBody f cat now o data opts inTransaction) s with ⟨-, heq⟩ | ⟨-, -, heq, -⟩ | ⟨-, heq⟩
  · rw [heq]
    exact hmay.refl s
  · rw [heq]
    exact (hbody s hstart).1
  · rw [heq]
    exact hmay.trans _ _ _ (hbody s hstart).1 (mayVerify_of_enrollments rfl)

end MitxOnline
