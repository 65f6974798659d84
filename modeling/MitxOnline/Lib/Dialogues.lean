import Mathlib.Logic.Function.Basic
import MitxOnline.Lib.Trace

/-!
# Programs that ask a service

A program sends requests to a service, one after the other. A request may fail before the service does
anything, and an answer may get lost after the service did it: the program sees an exception in both cases.
Many programs run at once, and in each step one of them sends its next request.
-/

namespace Dialogues

/-- A program with requests `q : Q` that are answered by values of `A q`, and with exceptions in `ε`. -/
inductive Program (Q : Type) (A : Q → Type) (ε α : Type) : Type where
  | done (outcome : Except ε α)
  | ask (q : Q) (next : Except ε (A q) → Program Q A ε α)

variable {Q : Type} {A : Q → Type} {ε α β : Type}

def Program.bind : Program Q A ε α → (α → Program Q A ε β) → Program Q A ε β
  | .done (.ok a), f => f a
  | .done (.error e), _ => .done (.error e)
  | .ask q next, f => .ask q fun answer => (next answer).bind f

def Program.tryCatch : Program Q A ε α → (ε → Program Q A ε α) → Program Q A ε α
  | .done (.ok a), _ => .done (.ok a)
  | .done (.error e), handler => handler e
  | .ask q next, handler => .ask q fun answer => (next answer).tryCatch handler

instance : Monad (Program Q A ε) where
  pure a := .done (.ok a)
  bind := Program.bind

instance : MonadExcept ε (Program Q A ε) where
  throw e := .done (.error e)
  tryCatch := Program.tryCatch

/-- Send a request; a failure is raised. -/
def request (q : Q) : Program Q A ε (A q) := .ask q .done

/-- What becomes of a request. -/
inductive Transmission (ε : Type) where
  | answered
  /-- The service does nothing. -/
  | failed (e : ε)
  /-- The service does its work, and its answer gets lost. -/
  | lost (e : ε)
  deriving DecidableEq, Repr

def Transmission.apply {σ : Type} (work : σ × Except ε β) (s : σ) : Transmission ε → σ × Except ε β
  | .answered => work
  | .failed e => (s, .error e)
  | .lost e => (work.1, .error e)

theorem Transmission.apply_fst {σ : Type} (work : σ × Except ε β) (s : σ) (sent : Transmission ε) :
    (sent.apply work s).1 = work.1 ∨ (sent.apply work s).1 = s := by
  cases sent with
  | answered => exact Or.inl rfl
  | failed e => exact Or.inr rfl
  | lost e => exact Or.inl rfl

/-- A program that gets an answer knows that the service did its work. -/
theorem Transmission.apply_of_ok {σ : Type} {work : σ × Except ε β} {s : σ} {sent : Transmission ε} {b : β}
    (h : (sent.apply work s).2 = .ok b) : sent.apply work s = work := by
  cases sent with
  | answered => rfl
  | failed e => simp [Transmission.apply] at h
  | lost e => simp [Transmission.apply] at h

/-! ## Programs that run at once -/

/-- The service, and the programs that are under way or have ended with the jobs that they are for. -/
structure Pool (κ σ J : Type) (Q : Type) (A : Q → Type) (ε α : Type) where
  service : σ
  programs : κ → Option (J × Program Q A ε α)

inductive Event (κ J ε χ : Type) where
  | start (k : κ) (job : J)
  /-- A program sends its next request. -/
  | step (k : κ) (sent : Transmission ε)
  /-- A program dies. -/
  | stop (k : κ)
  /-- Somebody else changes the service. -/
  | outside (c : χ)

section Pools

variable {κ σ J χ : Type} [DecidableEq κ]

def Pool.set (pool : Pool κ σ J Q A ε α) (k : κ) (entry : Option (J × Program Q A ε α)) :
    Pool κ σ J Q A ε α :=
  { pool with programs := Function.update pool.programs k entry }

/-- One event; the code of a job, the work of the service and the changes of others are parameters. -/
def Pool.step (code : J → Program Q A ε α) (work : (q : Q) → σ → σ × Except ε (A q)) (change : χ → σ → σ)
    (pool : Pool κ σ J Q A ε α) : Event κ J ε χ → Pool κ σ J Q A ε α
  | .start k job =>
    match pool.programs k with
    | none => pool.set k (some (job, code job))
    | some _ => pool
  | .step k sent =>
    match pool.programs k with
    | some (job, .ask q next) =>
      let (service, answer) := sent.apply (work q pool.service) pool.service
      { pool.set k (some (job, next answer)) with service := service }
    | _ => pool
  | .stop k => pool.set k none
  | .outside c => { pool with service := change c pool.service }

end Pools

/-!
## What a program may ask

A protocol says what a program may ask next, as far as it has come, and how far an answer takes it.
`Follows` holds of a program that keeps to it whatever is answered.
-/

structure Protocol (Q : Type) (A : Q → Type) (ε γ : Type) where
  may : γ → Q → Prop
  next : γ → (q : Q) → Except ε (A q) → γ

variable {γ : Type} {P : Protocol Q A ε γ} {g : γ}

/-- From `g` on the program keeps to the protocol, and where it ends `post` holds. -/
def Follows (P : Protocol Q A ε γ) : γ → Program Q A ε α → (γ → Except ε α → Prop) → Prop
  | g, .done outcome, post => post g outcome
  | g, .ask q next, post => P.may g q ∧ ∀ answer, Follows P (P.next g q answer) (next answer) post

theorem follows_pure {post : γ → Except ε α → Prop} {a : α} (h : post g (.ok a)) :
    Follows P g (pure a) post := h

theorem follows_throw {post : γ → Except ε α → Prop} {e : ε} (h : post g (.error e)) :
    Follows P g (throw e) post := h

theorem follows_request {q : Q} {post : γ → Except ε (A q) → Prop} (hmay : P.may g q)
    (h : ∀ answer, post (P.next g q answer) answer) : Follows P g (request q) post := ⟨hmay, h⟩

theorem follows_mono {program : Program Q A ε α} {post post' : γ → Except ε α → Prop}
    (h : Follows P g program post) (himp : ∀ g outcome, post g outcome → post' g outcome) :
    Follows P g program post' := by
  induction program generalizing g with
  | done outcome => exact himp g outcome h
  | ask q next ih => exact ⟨h.1, fun answer => ih answer (h.2 answer)⟩

/-- What follows has to hold where the first program returns. -/
theorem follows_bind {program : Program Q A ε α} {f : α → Program Q A ε β} {post : γ → Except ε β → Prop}
    (mid : γ → Except ε α → Prop) (h : Follows P g program mid)
    (hok : ∀ g a, mid g (.ok a) → Follows P g (f a) post)
    (herror : ∀ g e, mid g (.error e) → post g (.error e)) : Follows P g (program >>= f) post := by
  show Follows P g (program.bind f) post
  induction program generalizing g with
  | done outcome =>
    cases outcome with
    | ok a => exact hok g a h
    | error e => exact herror g e h
  | ask q next ih => exact ⟨h.1, fun answer => ih answer (h.2 answer)⟩

theorem follows_tryCatch {program : Program Q A ε α} {handler : ε → Program Q A ε α}
    {post : γ → Except ε α → Prop} (mid : γ → Except ε α → Prop) (h : Follows P g program mid)
    (hok : ∀ g a, mid g (.ok a) → post g (.ok a))
    (herror : ∀ g e, mid g (.error e) → Follows P g (handler e) post) :
    Follows P g (tryCatch program handler) post := by
  show Follows P g (program.tryCatch handler) post
  induction program generalizing g with
  | done outcome =>
    cases outcome with
    | ok a => exact hok g a h
    | error e => exact herror g e h
  | ask q next ih => exact ⟨h.1, fun answer => ih answer (h.2 answer)⟩

/-!
## A resource of the service that a program can take

A program that is idle has not taken the resource and leaves it as it is, unless nobody has it. A program
that owns it may change it. However the programs are interleaved, one of them owns the resource at most, and
a resource that is taken and that no program owns stays as it is.
-/

section Resources

variable {κ σ J χ : Type} [DecidableEq κ]

structure Resource (σ J Q : Type) (A : Q → Type) (ε α β : Type) where
  view : σ → β
  Free : β → Prop
  Idle : J → Program Q A ε α → Prop
  Owns : J → Program Q A ε α → β → Prop

/-- What the code of the jobs and the service have to satisfy. -/
structure Resource.Sound (R : Resource σ J Q A ε α β) (code : J → Program Q A ε α)
    (work : (q : Q) → σ → σ × Except ε (A q)) : Prop where
  start : ∀ job, R.Idle job (code job)
  taken : ∀ job program b, R.Owns job program b → ¬R.Free b
  idle : ∀ job q next s (sent : Transmission ε), R.Idle job (.ask q next) →
    R.Idle job (next (sent.apply (work q s) s).2) ∧
        (R.view (sent.apply (work q s) s).1 = R.view s ∨ R.Free (R.view s)) ∨
      R.Free (R.view s) ∧
        R.Owns job (next (sent.apply (work q s) s).2) (R.view (sent.apply (work q s) s).1)
  owner : ∀ job q next s (sent : Transmission ε), R.Owns job (.ask q next) (R.view s) →
    R.Owns job (next (sent.apply (work q s) s).2) (R.view (sent.apply (work q s) s).1)

variable {R : Resource σ J Q A ε α β} {code : J → Program Q A ε α}
  {work : (q : Q) → σ → σ × Except ε (A q)} {change : χ → σ → σ} {pool : Pool κ σ J Q A ε α}

/-- The programs other than `k` are idle. -/
def Resource.IdleBut (R : Resource σ J Q A ε α β) (pool : Pool κ σ J Q A ε α) (k : κ) : Prop :=
  ∀ k' entry, k' ≠ k → pool.programs k' = some entry → R.Idle entry.1 entry.2

def Resource.AllIdle (R : Resource σ J Q A ε α β) (pool : Pool κ σ J Q A ε α) : Prop :=
  ∀ k entry, pool.programs k = some entry → R.Idle entry.1 entry.2

/-- Program `k` owns the resource, and no other does. -/
def Resource.OwnedBy (R : Resource σ J Q A ε α β) (pool : Pool κ σ J Q A ε α) (k : κ) : Prop :=
  (∃ job program, pool.programs k = some (job, program) ∧ R.Owns job program (R.view pool.service)) ∧
    R.IdleBut pool k

/-- One program owns the resource, or none does. -/
def Resource.Exclusive (R : Resource σ J Q A ε α β) (pool : Pool κ σ J Q A ε α) : Prop :=
  R.AllIdle pool ∨ ∃ k, R.OwnedBy pool k

/-- The event is no change of the resource by others. -/
def Resource.Leaves (R : Resource σ J Q A ε α β) (change : χ → σ → σ) : Event κ J ε χ → Prop
  | .outside c => ∀ s, R.view (change c s) = R.view s
  | _ => True

/-! ## One event -/

theorem set_programs_self (pool : Pool κ σ J Q A ε α) (k : κ) (entry : Option (J × Program Q A ε α)) :
    (pool.set k entry).programs k = entry := Function.update_self _ _ _

theorem set_programs_ne (pool : Pool κ σ J Q A ε α) {k k' : κ} (h : k' ≠ k)
    (entry : Option (J × Program Q A ε α)) : (pool.set k entry).programs k' = pool.programs k' :=
  Function.update_of_ne h _ _

/-- Where the owner changes, the others stay idle. -/
theorem Resource.IdleBut.set {k : κ} (h : R.IdleBut pool k) (entry : Option (J × Program Q A ε α)) (s : σ) :
    R.IdleBut { pool.set k entry with service := s } k := by
  intro k' entry' hne hentry
  exact h k' entry' hne ((set_programs_ne pool hne entry).symm.trans hentry)

/-- What holds of all entries holds of them after one is set for which it holds. -/
theorem forall_set {M : κ → J × Program Q A ε α → Prop} (h : ∀ k e, pool.programs k = some e → M k e) {k : κ}
    {entry : Option (J × Program Q A ε α)} (hentry : ∀ e, entry = some e → M k e) (k' : κ)
    (e : J × Program Q A ε α) (he : (pool.set k entry).programs k' = some e) : M k' e := by
  by_cases heq : k' = k
  · rw [heq] at he ⊢
    exact hentry e ((set_programs_self pool k entry).symm.trans he)
  · exact h k' e ((set_programs_ne pool heq entry).symm.trans he)

/-- Where another program changes and is idle then, all but the owner are. -/
theorem Resource.IdleBut.set_other {k k' : κ} (h : R.IdleBut pool k) {entry : Option (J × Program Q A ε α)}
    (hentry : ∀ e, entry = some e → R.Idle e.1 e.2) (s : σ) :
    R.IdleBut { pool.set k' entry with service := s } k := by
  intro k'' e hne he
  exact forall_set (M := fun k'' e => k'' ≠ k → R.Idle e.1 e.2) (fun k'' e he hne => h k'' e hne he)
    (fun e he _ => hentry e he) k'' e he hne

theorem Resource.AllIdle.set {k : κ} (h : R.AllIdle pool) {entry : Option (J × Program Q A ε α)}
    (hentry : ∀ e, entry = some e → R.Idle e.1 e.2) (s : σ) :
    R.AllIdle { pool.set k entry with service := s } :=
  forall_set (M := fun _ e => R.Idle e.1 e.2) h hentry

theorem idle_of_some {job : J} {program : Program Q A ε α} (h : R.Idle job program) :
    ∀ e, some (job, program) = some e → R.Idle e.1 e.2 := by
  intro e he
  rw [← Option.some.inj he]
  exact h

/-- An idle program takes a step. -/
theorem exclusive_idle_step (hsound : R.Sound code work) (h : R.AllIdle pool) {k : κ} {job : J} {q : Q}
    {next : Except ε (A q) → Program Q A ε α} (hk : pool.programs k = some (job, .ask q next))
    (sent : Transmission ε) : R.Exclusive (pool.step code work change (.step k sent)) := by
  simp only [Pool.step, hk]
  rcases hsound.idle job q next pool.service sent (h k _ hk) with ⟨hidle, -⟩ | ⟨-, howns⟩
  · exact Or.inl (h.set (idle_of_some hidle) _)
  · have hbut : R.IdleBut pool k := fun k' entry _ hentry => h k' entry hentry
    exact Or.inr ⟨k, ⟨job, _, set_programs_self pool k _, howns⟩, hbut.set _ _⟩

/-- A program takes a step while `k` owns the resource: the owner does with it what it may, and any other
program leaves it. -/
theorem exclusive_owned_step (hsound : R.Sound code work) {k k' : κ} (h : R.OwnedBy pool k) {job' : J} {q : Q}
    {next : Except ε (A q) → Program Q A ε α} (hk' : pool.programs k' = some (job', .ask q next))
    (sent : Transmission ε) : R.OwnedBy (pool.step code work change (.step k' sent)) k := by
  obtain ⟨⟨job, program, hk, howns⟩, hbut⟩ := h
  simp only [Pool.step, hk']
  by_cases heq : k' = k
  · rw [heq] at hk' ⊢
    obtain ⟨rfl, rfl⟩ := Prod.mk.inj (Option.some.inj (hk.symm.trans hk'))
    exact ⟨⟨job, _, set_programs_self pool k _, hsound.owner job q next pool.service sent howns⟩,
      hbut.set _ _⟩
  · have hnotFree := hsound.taken job program _ howns
    rcases hsound.idle job' q next pool.service sent (hbut k' _ heq hk') with ⟨hidle, hview⟩ | ⟨hfree, -⟩
    · have hsame : R.view (sent.apply (work q pool.service) pool.service).1 = R.view pool.service :=
        hview.resolve_right hnotFree
      refine ⟨⟨job, program, (set_programs_ne pool (Ne.symm heq) _).trans hk, ?_⟩,
        hbut.set_other (idle_of_some hidle) _⟩
      rw [hsame]
      exact howns
    · exact absurd hfree hnotFree

/-- A program that is started is idle, and one that has died owns nothing. -/
theorem exclusive_step (hsound : R.Sound code work) (h : R.Exclusive pool) (event : Event κ J ε χ)
    (hleaves : R.Leaves change event) : R.Exclusive (pool.step code work change event) := by
  cases event with
  | start k job =>
    cases hk : pool.programs k with
    | some entry => simpa [Pool.step, hk] using h
    | none =>
      simp only [Pool.step, hk]
      have hstart := idle_of_some (hsound.start job)
      rcases h with hidle | ⟨owner, ⟨job', program, howner, howns⟩, hbut⟩
      · exact Or.inl (hidle.set hstart pool.service)
      · have hne : owner ≠ k := by
          rintro rfl
          rw [howner] at hk
          exact absurd hk (by simp)
        exact Or.inr ⟨owner, ⟨job', program, (set_programs_ne pool hne _).trans howner, howns⟩,
          hbut.set_other hstart pool.service⟩
  | step k sent =>
    rcases hk : pool.programs k with _ | ⟨job, _ | ⟨q, next⟩⟩
    · simpa [Pool.step, hk] using h
    · simpa [Pool.step, hk] using h
    · rcases h with hidle | ⟨owner, howned⟩
      · exact exclusive_idle_step hsound hidle hk sent
      · exact Or.inr ⟨owner, exclusive_owned_step hsound howned hk sent⟩
  | stop k =>
    have hnone : ∀ e : J × Program Q A ε α, none = some e → R.Idle e.1 e.2 := fun e he => absurd he (by simp)
    rcases h with hidle | ⟨owner, ⟨job, program, howner, howns⟩, hbut⟩
    · exact Or.inl (hidle.set hnone pool.service)
    · by_cases heq : owner = k
      · -- the resource stays taken, and no program owns it
        refine Or.inl fun k' entry hentry => ?_
        by_cases heq' : k' = k
        · rw [heq'] at hentry
          exact hnone entry ((set_programs_self pool k none).symm.trans hentry)
        · have hne : k' ≠ owner := fun h => heq' (h.trans heq)
          exact hbut k' entry hne ((set_programs_ne pool heq' none).symm.trans hentry)
      · exact Or.inr ⟨owner, ⟨job, program, (set_programs_ne pool heq none).trans howner, howns⟩,
          hbut.set_other hnone pool.service⟩
  | outside c =>
    rcases h with hidle | ⟨owner, ⟨job, program, howner, howns⟩, hbut⟩
    · exact Or.inl hidle
    · have hsame : R.view (change c pool.service) = R.view pool.service := hleaves pool.service
      refine Or.inr ⟨owner, ⟨job, program, howner, ?_⟩, hbut⟩
      show R.Owns job program (R.view (change c pool.service))
      rw [hsame]
      exact howns

/-- Since `before` the resource is as it was: the programs are idle, or they had ended. -/
structure Resource.Settled (R : Resource σ J Q A ε α β) (before pool : Pool κ σ J Q A ε α) : Prop where
  view : R.view pool.service = R.view before.service
  programs : ∀ k entry, pool.programs k = some entry →
    R.Idle entry.1 entry.2 ∨ (∃ outcome, entry.2 = .done outcome) ∧ before.programs k = some entry

theorem settled_step (hsound : R.Sound code work) {before : Pool κ σ J Q A ε α}
    (htaken : ¬R.Free (R.view before.service)) (h : R.Settled before pool) (event : Event κ J ε χ)
    (hleaves : R.Leaves change event) : R.Settled before (pool.step code work change event) := by
  cases event with
  | start k job =>
    cases hk : pool.programs k with
    | some entry => simpa [Pool.step, hk] using h
    | none =>
      simp only [Pool.step, hk]
      exact ⟨h.view, forall_set h.programs fun e he => Or.inl (idle_of_some (hsound.start job) e he)⟩
  | step k sent =>
    rcases hk : pool.programs k with _ | ⟨job, _ | ⟨q, next⟩⟩
    · simpa [Pool.step, hk] using h
    · simpa [Pool.step, hk] using h
    · simp only [Pool.step, hk]
      rw [← h.view] at htaken
      rcases h.programs k _ hk with hidle | ⟨⟨outcome, hdone⟩, -⟩
      · rcases hsound.idle job q next pool.service sent hidle with ⟨hnext, hsame⟩ | ⟨hfree, -⟩
        · exact ⟨(hsame.resolve_right htaken).trans h.view,
            forall_set h.programs fun e he => Or.inl (idle_of_some hnext e he)⟩
        · exact absurd hfree htaken
      · exact absurd hdone (by simp)
  | stop k => exact ⟨h.view, forall_set h.programs fun e he => absurd he (by simp)⟩
  | outside c => exact ⟨(hleaves pool.service).trans h.view, h.programs⟩

/-! ## Runs -/

theorem exclusive_run (hsound : R.Sound code work) (h : R.Exclusive pool) {events : List (Event κ J ε χ)}
    (hleaves : ∀ event ∈ events, R.Leaves change event) :
    R.Exclusive (Trace.run (Pool.step code work change) pool events) :=
  Trace.run_of_along R.Exclusive (fun _ event hs hevent => exclusive_step hsound hs event hevent) h
    (Trace.along_of_forall hleaves)

theorem settled_run (hsound : R.Sound code work) (htaken : ¬R.Free (R.view pool.service))
    (h : R.Settled pool pool) {events : List (Event κ J ε χ)}
    (hleaves : ∀ event ∈ events, R.Leaves change event) :
    R.Settled pool (Trace.run (Pool.step code work change) pool events) :=
  Trace.run_of_along (R.Settled pool) (fun _ event hs hevent => settled_step hsound htaken hs event hevent) h
    (Trace.along_of_forall hleaves)

end Resources

end Dialogues
