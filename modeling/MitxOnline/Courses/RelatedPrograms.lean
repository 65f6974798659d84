import MitxOnline.Catalog
import MitxOnline.Lib.Table
import MitxOnline.FlexiblePricing.Approval
import MitxOnline.Lib.Trace

/-!
# Related programs (`Program.related_programs` and `Program.add_related_program` in `courses/models.py`)

Financial assistance for a program applies to its related programs, too. A relation is stored once, as a link from
a first to a second program, and looked up in both directions. No constraint of the database keeps links apart.
-/

namespace MitxOnline

/-- A row of `RelatedProgram`. -/
structure RelatedProgram where
  firstProgram : ProgramId
  secondProgram : ProgramId
  deriving DecidableEq, Repr

abbrev RelatedProgramId := ℕ

inductive RelatedProgramError where
  | multipleObjectsReturned
  deriving DecidableEq, Repr

/-- The test of the filters on a program, in either position. -/
def RelatedProgram.involves (link : RelatedProgram) (p : ProgramId) : Bool :=
  decide (link.firstProgram = p) || decide (link.secondProgram = p)

/-- The program at the other end of a link. -/
def RelatedProgram.other (link : RelatedProgram) (p : ProgramId) : ProgramId :=
  if link.firstProgram = p then link.secondProgram else link.firstProgram

/-- `Program.related_programs_qs` -/
def Program.relatedProgramsQs (p : ProgramId) (links : Table RelatedProgram) : List RelatedProgramId :=
  links.keysWhere fun _ link => link.involves p

/-- `Program.related_programs`; the order of the list is that of the database, and nothing depends on it. -/
def Program.relatedPrograms (p : ProgramId) (links : Table RelatedProgram) : List ProgramId :=
  (Program.relatedProgramsQs p links).map fun k => (links.row k).other p

/-- `Program.add_related_program`: the table afterwards, and the relation that is returned. -/
def Program.addRelatedProgram (p program : ProgramId) (links : Table RelatedProgram) :
    Except RelatedProgramError (Table RelatedProgram × RelatedProgramId) :=
  match (Program.relatedProgramsQs p links).filter fun k => (links.row k).involves program with
  | [] => .ok (links.create ⟨p, program⟩, links.nextKey)
  | [k] => .ok (links, k)
  | _ => .error .multipleObjectsReturned

/-- `p.add_related_program(program)` -/
structure RelatedProgramCall where
  p : ProgramId
  program : ProgramId
  deriving DecidableEq, Repr

/-- What a call leaves; one that raises changes nothing. -/
def relateStep (links : Table RelatedProgram) (call : RelatedProgramCall) : Table RelatedProgram :=
  match Program.addRelatedProgram call.p call.program links with
  | .ok (links', _) => links'
  | .error _ => links

/-- No program is related to another one. -/
def noRelatedPrograms : Table RelatedProgram := ⟨[], fun _ => ⟨0, 0⟩, Table.sorted_nil⟩

/-!
## Related programs are related to each other

The links of different programs form a simple graph: there is at most one between two of them, and both ends see
it. A program may also be linked to itself, and then more than one link can be found for it.
-/

open Trace

variable {p q : ProgramId} {links : Table RelatedProgram} {link : RelatedProgram} {call : RelatedProgramCall}
  {k : RelatedProgramId}

/-! ## Links -/

/-- The link is between the two programs, in one of the directions. -/
def RelatedProgram.Joins (link : RelatedProgram) (p q : ProgramId) : Prop :=
  link = ⟨p, q⟩ ∨ link = ⟨q, p⟩

instance : Decidable (link.Joins p q) := inferInstanceAs (Decidable (_ ∨ _))

theorem RelatedProgram.joins_comm : link.Joins p q ↔ link.Joins q p := or_comm

theorem RelatedProgram.involves_iff :
    link.involves p = true ↔ link.firstProgram = p ∨ link.secondProgram = p := by
  unfold RelatedProgram.involves
  rw [Bool.or_eq_true, decide_eq_true_iff, decide_eq_true_iff]

theorem RelatedProgram.joins_iff_other : link.Joins p q ↔ link.involves p = true ∧ link.other p = q := by
  obtain ⟨first, second⟩ := link
  unfold RelatedProgram.Joins RelatedProgram.other
  rw [RelatedProgram.involves_iff, RelatedProgram.mk.injEq, RelatedProgram.mk.injEq]
  constructor
  · rintro (⟨rfl, rfl⟩ | ⟨rfl, rfl⟩)
    · exact ⟨.inl rfl, if_pos rfl⟩
    · refine ⟨.inr rfl, ?_⟩
      split
      · rename_i heq
        exact heq.symm
      · rfl
  · rintro ⟨hinvolves, hother⟩
    split at hother
    · rename_i heq
      exact .inl ⟨heq, hother⟩
    · rename_i hne
      exact .inr ⟨hother, hinvolves.resolve_left hne⟩

/-- A link that involves two different programs joins them. -/
theorem RelatedProgram.joins_of_involves (hne : p ≠ q) :
    link.Joins p q ↔ link.involves p = true ∧ link.involves q = true := by
  obtain ⟨first, second⟩ := link
  unfold RelatedProgram.Joins
  rw [RelatedProgram.involves_iff, RelatedProgram.involves_iff, RelatedProgram.mk.injEq, RelatedProgram.mk.injEq]
  constructor
  · rintro (⟨rfl, rfl⟩ | ⟨rfl, rfl⟩)
    · exact ⟨.inl rfl, .inr rfl⟩
    · exact ⟨.inr rfl, .inl rfl⟩
  · rintro ⟨rfl | rfl, hq⟩
    · exact .inl ⟨rfl, hq.resolve_left hne⟩
    · exact .inr ⟨hq.resolve_right hne, rfl⟩

/-- The links between two programs. -/
def linksBetween (p q : ProgramId) (links : Table RelatedProgram) : List RelatedProgramId :=
  links.keysWhere fun _ link => decide (link.Joins p q)

theorem mem_linksBetween : k ∈ linksBetween p q links ↔ k ∈ links.keys ∧ (links.row k).Joins p q := by
  unfold linksBetween
  rw [Table.mem_keysWhere, decide_eq_true_iff]

theorem linksBetween_comm : linksBetween p q links = linksBetween q p links := by
  unfold linksBetween
  congr 1
  funext k link
  exact decide_eq_decide.mpr RelatedProgram.joins_comm

/-- A program is related to those it has a link with. -/
theorem mem_relatedPrograms : q ∈ Program.relatedPrograms p links ↔ linksBetween p q links ≠ [] := by
  have hmem : q ∈ Program.relatedPrograms p links ↔ ∃ k, k ∈ linksBetween p q links := by
    unfold Program.relatedPrograms Program.relatedProgramsQs
    rw [List.mem_map]
    refine exists_congr fun k => ?_
    rw [Table.mem_keysWhere, mem_linksBetween, RelatedProgram.joins_iff_other, and_assoc]
  rw [hmem]
  constructor
  · rintro ⟨k, hk⟩
    exact List.ne_nil_of_mem hk
  · exact List.exists_mem_of_ne_nil _

/-- Relations are symmetric in every table. -/
theorem mem_relatedPrograms_comm : q ∈ Program.relatedPrograms p links ↔ p ∈ Program.relatedPrograms q links := by
  rw [mem_relatedPrograms, mem_relatedPrograms, linksBetween_comm]

/-! ## Calls -/

/-- At most one link between two different programs. -/
def AtMostOneLink (links : Table RelatedProgram) : Prop :=
  ∀ p q, p ≠ q → (linksBetween p q links).length ≤ 1

theorem linksBetween_create : linksBetween p q (links.create link) =
    linksBetween p q links ++ if link.Joins p q then [links.nextKey] else [] := by
  unfold linksBetween Table.keysWhere
  rw [Table.create_keys, List.filter_append]
  congr 1
  · refine List.filter_congr fun k hk => ?_
    rw [Table.create_row_of_ne _ _ (Nat.ne_of_lt (links.lt_nextKey hk))]
  · by_cases hjoins : link.Joins p q
    · simp [hjoins]
    · simp [hjoins]

/-- What a call that looks for the links of two different programs finds. -/
theorem filter_relatedProgramsQs (hne : p ≠ q) :
    ((Program.relatedProgramsQs p links).filter fun k => (links.row k).involves q) = linksBetween p q links := by
  unfold Program.relatedProgramsQs linksBetween Table.keysWhere
  rw [List.filter_filter]
  refine List.filter_congr fun k _ => ?_
  rw [Bool.eq_iff_iff, Bool.and_eq_true, decide_eq_true_iff, RelatedProgram.joins_of_involves hne, and_comm]

/-- What a call can do: it leaves the table as it is, or creates a link where none was found. -/
theorem relateStep_cases (links : Table RelatedProgram) (call : RelatedProgramCall) :
    (relateStep links call = links ∧
      ((Program.relatedProgramsQs call.p links).filter fun k => (links.row k).involves call.program) ≠ []) ∨
    (relateStep links call = links.create ⟨call.p, call.program⟩ ∧
      ((Program.relatedProgramsQs call.p links).filter fun k => (links.row k).involves call.program) = []) := by
  unfold relateStep Program.addRelatedProgram
  split
  · rename_i links' k hok
    split at hok
    · rename_i hnone
      obtain ⟨rfl, -⟩ := Prod.mk.inj (Except.ok.inj hok)
      exact .inr ⟨rfl, hnone⟩
    · rename_i hone
      obtain ⟨rfl, -⟩ := Prod.mk.inj (Except.ok.inj hok)
      exact .inl ⟨rfl, by simp [hone]⟩
    · cases hok
  · rename_i herror
    split at herror
    · cases herror
    · cases herror
    · rename_i hnone _
      exact .inl ⟨rfl, hnone⟩

/-- No call makes a second link. -/
theorem AtMostOneLink.step (h : AtMostOneLink links) (call : RelatedProgramCall) :
    AtMostOneLink (relateStep links call) := by
  intro p q hne
  rcases relateStep_cases links call with ⟨hsame, -⟩ | ⟨hcreate, hnone⟩
  · rw [hsame]
    exact h p q hne
  · rw [hcreate, linksBetween_create]
    split
    · rename_i hjoins
      -- the programs of the call are the two of the pair
      have hempty : linksBetween p q links = [] := by
        rcases hjoins with hjoins | hjoins
        · obtain ⟨rfl, rfl⟩ := RelatedProgram.mk.inj hjoins
          rw [← filter_relatedProgramsQs hne]
          exact hnone
        · obtain ⟨rfl, rfl⟩ := RelatedProgram.mk.inj hjoins
          rw [linksBetween_comm, ← filter_relatedProgramsQs hne.symm]
          exact hnone
      rw [hempty]
      exact Nat.le_refl 1
    · rw [List.append_nil]
      exact h p q hne

/-- Which different programs are related after a call. -/
theorem mem_relatedPrograms_relateStep (hne : p ≠ q) : q ∈ Program.relatedPrograms p (relateStep links call) ↔
    q ∈ Program.relatedPrograms p links ∨ call = ⟨p, q⟩ ∨ call = ⟨q, p⟩ := by
  have hcall : (⟨call.p, call.program⟩ : RelatedProgram).Joins p q ↔ call = ⟨p, q⟩ ∨ call = ⟨q, p⟩ := by
    obtain ⟨a, b⟩ := call
    unfold RelatedProgram.Joins
    simp only [RelatedProgram.mk.injEq, RelatedProgramCall.mk.injEq]
  rw [← hcall, mem_relatedPrograms, mem_relatedPrograms]
  rcases relateStep_cases links call with ⟨hsame, hsome⟩ | ⟨hcreate, -⟩
  · rw [hsame]
    refine ⟨.inl, fun h => h.elim id fun hjoins => ?_⟩
    rcases hjoins with hjoins | hjoins
    · obtain ⟨rfl, rfl⟩ := RelatedProgram.mk.inj hjoins
      rwa [filter_relatedProgramsQs hne] at hsome
    · obtain ⟨rfl, rfl⟩ := RelatedProgram.mk.inj hjoins
      rwa [filter_relatedProgramsQs hne.symm, linksBetween_comm] at hsome
  · rw [hcreate, linksBetween_create]
    split
    · rename_i hjoins
      exact iff_of_true (by simp) (.inr hjoins)
    · rename_i hnot
      rw [List.append_nil]
      exact ⟨.inl, fun h => h.resolve_right hnot⟩

/-! ## All calls -/

/-- After calls two different programs are related exactly if one of the calls has related them. -/
theorem mem_relatedPrograms_run (calls : List RelatedProgramCall) (links : Table RelatedProgram) (hne : p ≠ q) :
    q ∈ Program.relatedPrograms p (run relateStep links calls) ↔
      q ∈ Program.relatedPrograms p links ∨ ⟨p, q⟩ ∈ calls ∨ ⟨q, p⟩ ∈ calls := by
  induction calls generalizing links with
  | nil => simp [run]
  | cons call rest ih =>
    have hrun : run relateStep links (call :: rest) = run relateStep (relateStep links call) rest := rfl
    rw [hrun, ih, mem_relatedPrograms_relateStep hne, List.mem_cons, List.mem_cons]
    tauto

theorem atMostOneLink_none : AtMostOneLink noRelatedPrograms := fun _ _ _ => Nat.zero_le 1

/-- The links form a simple symmetric relation after every sequence of calls. -/
theorem relatedPrograms_simple (calls : List RelatedProgramCall) :
    (∀ p q, p ≠ q → (linksBetween p q (run relateStep noRelatedPrograms calls)).length ≤ 1) ∧
      ∀ p q, q ∈ Program.relatedPrograms p (run relateStep noRelatedPrograms calls) ↔
        p ∈ Program.relatedPrograms q (run relateStep noRelatedPrograms calls) := by
  have hlinks := run_of_invariant AtMostOneLink (fun _ call h => h.step call) atMostOneLink_none calls
  exact ⟨hlinks, fun p q => mem_relatedPrograms_comm⟩

/-- Financial assistance reads the same related programs. -/
theorem related_eq_relatedPrograms (fin : Finaid) (links : Table RelatedProgram)
    (hrows : fin.relatedPrograms = links.keys.map fun k => ((links.row k).firstProgram, (links.row k).secondProgram))
    (p : ProgramId) : fin.related p = Program.relatedPrograms p links := by
  unfold Finaid.related Program.relatedPrograms Program.relatedProgramsQs Table.keysWhere
  rw [hrows, List.filterMap_map, ← List.filterMap_eq_map, List.filterMap_filter]
  refine List.filterMap_congr fun k _ => ?_
  unfold RelatedProgram.involves RelatedProgram.other
  by_cases hfirst : (links.row k).firstProgram = p
  · simp [hfirst]
  · by_cases hsecond : (links.row k).secondProgram = p
    · simp [hfirst, hsecond]
    · simp [hfirst, hsecond]

end MitxOnline
