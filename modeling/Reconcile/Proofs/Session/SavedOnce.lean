/-
Reconcile.Proofs.Session.SavedOnce — an edit that is saved is saved once,
and none is left out.

When pending edits are dealt with by saving, and that works out, the saves
that are made are `dueSaves`: of each side that is flagged and may be
edited, left before right, with the bytes that its pane shows. Two things
have to be followed through the pair of saves. The right side is normalised
against what the left save has stored (`FlushedSide.due`), and what the left
save has stored is still there after the right one (`FlushedSides.due`).

For a whole run there is an account instead: each flag that is raised pays
for one successful save (`paid_step`, `paid_run`).

`saved_edits_are_saved_once` is both, over every run.
-/
import Reconcile.Proofs.Session.KnownInputs

namespace Reconcile.Session

variable {σ : Type} {m : Model σ} {known : σ → Place → Prop}

/-! ## The account of a run -/

/-- How many saves of a side of the view an operation makes that succeed. -/
def savesOf (m : Model σ) (side : Side) (s : Session σ) (op : Operation σ) : Nat :=
  m.succeeded (side.oriented s.mirrored) s.state (s.callsOf m op)

/-- 1 if an operation flags a side of the view that was clean. -/
def raisedBy (m : Model σ) (side : Side) (s : Session σ) (op : Operation σ) : Nat :=
  (!s.dirty.get side && (s.step m op).1.dirty.get side).toNat

/-- What the operations of a run add up to. -/
def total (m : Model σ) (count : Session σ → Operation σ → Nat) :
    Session σ → List (Operation σ) → Nat
  | _, [] => 0
  | s, op :: ops => count s op + total m count (s.step m op).1 ops

/-- A save that succeeds is paid for by a flag, and a flag is raised or was
there before. -/
theorem paid_step (side : Side) (s : Session σ) (op : Operation σ) :
    s.savesOf m side op + ((s.step m op).1.dirty.get side).toNat
      ≤ (s.dirty.get side).toNat + s.raisedBy m side op := by
  have hraise : ((s.step m op).1.dirty.get side).toNat
      ≤ (s.dirty.get side).toNat + s.raisedBy m side op := by
    unfold raisedBy
    generalize s.dirty.get side = before, (s.step m op).1.dirty.get side = after
    revert before after
    decide
  by_cases hop : ∃ change, op = .elsewhere change
  · obtain ⟨change, rfl⟩ := hop
    have hnone : s.callsOf m (.elsewhere change) = [] := callsOf_eq (by simp [step])
    simpa [savesOf, hnone, Model.succeeded] using hraise
  obtain ⟨dealing, more, hsplit, -, -, -, hquiet, hpaid⟩ :=
    callsOf_split m s op fun change h => hop ⟨change, h⟩
  have hsaves : s.savesOf m side op
      = m.succeeded (side.oriented s.mirrored) s.state dealing := by
    rw [savesOf, hsplit, Model.succeeded_append, Model.succeeded_eq_zero _ hquiet,
      Nat.add_zero]
  rw [hsaves]
  rcases hpaid with rfl | hpaid
  · simpa [Model.succeeded] using hraise
  · have hside := hpaid side
    omega

theorem paid_run (side : Side) (ops : List (Operation σ)) :
    ∀ s : Session σ, total m (savesOf m side) s ops
        + ((s.run m ops).dirty.get side).toNat
      ≤ (s.dirty.get side).toNat + total m (raisedBy m side) s ops := by
  induction ops with
  | nil => simp [total]
  | cons op ops ih =>
    intro s
    have hfirst := paid_step (m := m) side s op
    have hrest := ih (s.step m op).1
    rw [run_cons, total, total]
    omega

/-! ## The saves that are due -/

/-- The save that the pending edits of a side call for, given what is stored.
There is none for a side that is clean or may not be edited. -/
def dueSave (m : Model σ) (input : Place) (side : Side) (stored : σ)
    (s : Session σ) : List Call :=
  if s.pending m input side then
    [.save input (side.oriented s.mirrored)
      (savedBytes (s.panes.side side)
        (m.content stored (side.oriented s.mirrored).opposite.pane input))]
  else []

/-- The saves that all pending edits call for, one after the other. -/
def dueSaves (m : Model σ) (input : Place) (s : Session σ) : List Call :=
  s.dueSave m input .left s.state ++
    s.dueSave m input .right (m.carryOut s.state (s.dueSave m input .left s.state))

/-- The saves of a log. -/
def saves (s : Session σ) : List Call := s.calls.filter Call.isSave

theorem saves_eq_of_calls {s t : Session σ} {more : List Call}
    (h : t.calls = s.calls ++ more) (hquiet : ∀ c ∈ more, c.isSave = false) :
    t.saves = s.saves := by
  have hnone : more.filter Call.isSave = [] := by
    simpa [List.filter_eq_nil_iff] using hquiet
  simp [saves, h, hnone]

/-- The saves of a log are those that were made before and those that the
last operation has made. -/
theorem saves_step (m : Model σ) (s : Session σ) (op : Operation σ) :
    (s.step m op).1.saves
      = s.saves ++ (s.callsOf m op).filter Call.isSave := by
  rw [saves, calls_step, List.filter_append, saves]

theorem Follows.saves_eq {s t : Session σ} (h : Follows s t) :
    t.saves = s.saves := by
  obtain ⟨more, hcalls, hquiet⟩ := h.calls
  exact saves_eq_of_calls hcalls hquiet

/-- A flush of a side makes the save that is due, whether or not it works. -/
theorem FlushedSide.due {input : Place} {side : Side} {s t : Session σ}
    {r : Except SaveError Unit} (ends : FlushedSide m input side s t r) :
    t.saves = s.saves ++ s.dueSave m input side s.state ∧
      t.state = m.carryOut s.state (s.dueSave m input side s.state) := by
  have hsaved : (s.saveCall m input side).isSave = true := rfl
  have hdue : s.pending m input side = true →
      s.dueSave m input side s.state = [s.saveCall m input side] := by
    intro h
    rw [dueSave, if_pos h, saveCall, pendingBytes_eq]
  cases ends with
  | skipped h => simp [dueSave, h, Model.carryOut]
  | saved h state hsave =>
    have hevents : (s.flagCalls side false).filter Call.isSave = [] := by
      refine List.filter_eq_nil_iff.mpr fun c hc => ?_
      obtain ⟨l, rfl⟩ := eq_event_of_mem_flagCalls hc
      simp [Call.isSave]
    rw [hdue h]
    refine ⟨?_, by simp [Model.carryOut, saveCall, Model.obey, hsave]⟩
    rw [saves, List.filter_append, List.filter_cons_of_pos hsaved, hevents, saves]
  | refused h e hsave =>
    rw [hdue h]
    refine ⟨?_, by simp [Model.carryOut, saveCall, Model.obey, hsave]⟩
    rw [saves, List.filter_append, List.filter_cons_of_pos hsaved, saves]
    rfl

/-- What is due of a side is stored when its flush does not fail, and the
other side reads as before. -/
theorem FlushedSide.stored (hm : m.Keeps known) {input : Place} {side : Side}
    {s t : Session σ} (ends : FlushedSide m input side s t (.ok ()))
    (hknown : known s.state input) :
    (∀ modelSide bytes,
      .save input modelSide bytes ∈ s.dueSave m input side s.state →
        modelSide = side.oriented s.mirrored ∧
          m.content t.state modelSide.pane input = bytes) ∧
    m.content t.state (side.oriented s.mirrored).opposite.pane input
      = m.content s.state (side.oriented s.mirrored).opposite.pane input := by
  cases ends with
  | skipped h => simp [dueSave, h]
  | saved h state hsave =>
    refine ⟨fun modelSide bytes hmem => ?_, hm.content_opposite hsave hknown⟩
    rw [dueSave, if_pos h, List.mem_singleton, Call.save.injEq] at hmem
    obtain ⟨-, rfl, rfl⟩ := hmem
    refine ⟨rfl, ?_⟩
    rw [← pendingBytes_eq]
    exact hm.content_saved hsave hknown

/-- What is due of a side is the same before and after the other one is
saved, but for what is stored by then. -/
theorem FlushedSide.dueSave_opposite (he : m.KeepsEditable) {input : Place}
    {side : Side} {s t : Session σ} {r : Except SaveError Unit}
    (ends : FlushedSide m input side s t r) (stored : σ) :
    t.dueSave m input side.opposite stored
      = s.dueSave m input side.opposite stored := by
  have hpending := ends.pending_opposite he
  simp only [dueSave, hpending, ends.settled.mirrored_eq, ends.settled.panes_eq]

/-- **A flush of both sides** makes the saves that are due, whether or not
they work. -/
theorem FlushedSides.makes (he : m.KeepsEditable) {input : Place}
    {s t : Session σ} {r : Except SaveError Unit}
    (ends : FlushedSides m input s t r) :
    t.saves = s.saves ++ s.dueSaves m input := by
  cases ends with
  | @both u _ _ _ left right =>
    have hright := left.dueSave_opposite he u.state
    simp only [Side.opposite] at hright
    rw [right.due.1, left.due.1, hright, dueSaves, left.due.2, List.append_assoc]

/-- When it does not fail, all of them are stored. -/
theorem FlushedSides.due (hm : m.Keeps known) (he : m.KeepsEditable)
    {input : Place} {s t : Session σ}
    (ends : FlushedSides m input s t (.ok ())) (hknown : known s.state input) :
    t.saves = s.saves ++ s.dueSaves m input ∧
      ∀ side bytes, .save input side bytes ∈ s.dueSaves m input →
        m.content t.state side.pane input = bytes := by
  refine ⟨ends.makes he, ?_⟩
  obtain ⟨u, left, right⟩ := ends.of_ok
  have hmirrored : u.mirrored = s.mirrored := left.settled.mirrored_eq
  have huknown : known u.state input := by
    rw [left.due.2]
    exact hm.known_carryOut hknown
  have hright := left.dueSave_opposite he u.state
  simp only [Side.opposite] at hright
  intro side bytes hmem
  obtain ⟨lstored, -⟩ := left.stored hm hknown
  obtain ⟨rstored, rother⟩ := right.stored hm huknown
  rw [dueSaves, ← left.due.2, ← hright] at hmem
  rcases List.mem_append.mp hmem with hmem | hmem
  · obtain ⟨rfl, hcontent⟩ := lstored side bytes hmem
    rw [hmirrored, ← Side.opposite_oriented] at rother
    exact rother.trans hcontent
  · exact (rstored side bytes hmem).2

/-- Pending edits that are dealt with by saving are saved as they are due. -/
theorem Resolved.due (hm : m.Keeps known) (he : m.KeepsEditable)
    {input : Place} {kind : PromptKind} {s t : Session σ} {done : Resolution}
    (h : Resolved m input kind s t (.ok done))
    (hsave : (s.decision m input kind).2 = .save)
    (hknown : known s.state input) :
    t.saves = s.saves ++ s.dueSaves m input ∧
      ∀ side bytes, .save input side bytes ∈ s.dueSaves m input →
        m.content t.state side.pane input = bytes := by
  cases h with
  | clean hclean =>
    simp [dueSaves, dueSave, pending, Sided.get, isDirty_eq_false_iff.mp hclean]
  | saved _ _ flushed =>
    rw [decision_eq] at flushed
    have hasked : ∀ c ∈ s.questionCalls m input kind, c.isSave = false := by
      intro c hc
      unfold questionCalls at hc
      split at hc <;> simp_all [Call.isSave]
    obtain ⟨hsaves, hstored⟩ := flushed.due hm he hknown
    refine ⟨?_, fun side bytes hmem => ?_⟩
    · rw [(follows_clearDirty _).saves_eq, hsaves,
        saves_eq_of_calls rfl hasked]
      rfl
    · rw [(follows_clearDirty _).state]
      exact hstored side bytes hmem
  | discarded _ answer => simp [hsave] at answer
  | cancelled _ answer => simp [hsave] at answer

/-! ## Operations that deal with pending edits first -/

/-- An operation that replaces what is shown of a bound input, and the
question that is asked before it does. -/
inductive Replaces (s : Session σ) (input : Place) :
    PromptKind → Operation σ → Prop where
  | bind (other : Option Place) (h : other ≠ some input) :
      Replaces s input .inputSwitch (.bind other)
  | setMirrored (value : Bool) (h : value ≠ s.mirrored) :
      Replaces s input .inputSwitch (.setMirrored value)
  /-- No save is running. -/
  | externalChange (idle : s.registry.isSaving = false) :
      Replaces s input .externalChange .externalChange
  | inputChanged (idle : s.registry.isSaving = false) :
      Replaces s input .externalChange (.inputChanged input)

/-- The session after an operation in which pending edits have been dealt
with. -/
def Cleared (m : Model σ) (input : Place) (kind : PromptKind)
    (s u : Session σ) : Prop :=
  ∃ t done, Resolved m input kind s t (.ok done) ∧ Follows t u ∧
    u.dirty = ⟨false, false⟩

theorem Switching.cleared {next : Session σ → Session σ} {s u : Session σ}
    {r : Except SaveError SwitchOutcome} (ends : Switching m next s u r)
    {input : Place} (hin : s.input = some input)
    (hsave : (s.decision m input .inputSwitch).2 = .save)
    (hok : ∀ e, r ≠ .error e) (hfollows : ∀ t, Follows t (next t))
    (hdirty : ∀ t : Session σ, t.dirty = ⟨false, false⟩ →
      (next t).dirty = ⟨false, false⟩) :
    Cleared m input .inputSwitch s u := by
  cases ends with
  | failed => exact absurd rfl (hok _)
  | cancelled resolved =>
    cases resolved with
    | bound h resolved =>
      obtain rfl := Option.some.inj (hin.symm.trans h)
      cases resolved with
      | cancelled _ answer => simp [hsave] at answer
  | switched resolved hr =>
    cases resolved with
    | unbound h => simp [hin] at h
    | bound h resolved =>
      obtain rfl := Option.some.inj (hin.symm.trans h)
      exact ⟨_, _, resolved, hfollows _, hdirty _ (resolved.dirty_eq hr)⟩

theorem ChangedOutside.cleared {s u : Session σ} {r : Except SaveError Unit}
    (ends : ChangedOutside m s u r) {input : Place} (hin : s.input = some input)
    (hidle : s.registry.isSaving = false)
    (hsave : (s.decision m input .externalChange).2 = .save)
    (hok : ∀ e, r ≠ .error e) : Cleared m input .externalChange s u := by
  cases ends with
  | unbound h => simp [hin] at h
  | saving h => simp [hidle] at h
  | failed => exact absurd rfl (hok _)
  | dropped h _ resolved =>
    obtain rfl := Option.some.inj (hin.symm.trans h)
    cases resolved with
    | cancelled _ answer => simp [hsave] at answer
  | shown h _ resolved hr =>
    obtain rfl := Option.some.inj (hin.symm.trans h)
    refine ⟨_, _, resolved, follows_refresh m _, ?_⟩
    rw [refresh_eq]
    exact resolved.dirty_eq hr

theorem Replaces.cleared {s : Session σ} {input : Place} {kind : PromptKind}
    {op : Operation σ} (h : s.Replaces input kind op)
    (hin : s.input = some input) (hsave : (s.decision m input kind).2 = .save)
    (hok : ∀ e, (s.step m op).2 ≠ .failed e) :
    Cleared m input kind s (s.step m op).1 := by
  cases h with
  | bind other h =>
    have hne : s.input ≠ other := fun heq => h (heq.symm.trans hin)
    refine (bind_ends hne).cleared hin hsave (fun e he => hok e ?_)
      (follows_rebind m other) fun t _ => by rw [rebind_eq]
    simp [step, he, Reply.ofOutcome]
  | setMirrored value h =>
    refine (setMirrored_ends h.symm).cleared hin hsave (fun e he => hok e ?_)
      (follows_turn m value) fun t ht => by rwa [turn, refresh_eq]
    simp [step, he, Reply.ofOutcome]
  | externalChange idle =>
    refine (externalChange_ends m s).cleared hin idle hsave fun e he => hok e ?_
    simp [step, he, Reply.ofUnit]
  | inputChanged idle =>
    have hchange : s.inputChanged m input = s.externalChange m := if_pos hin
    have hcleared : Cleared m input .externalChange s (s.externalChange m).1 := by
      refine (externalChange_ends m s).cleared hin idle hsave fun e he => hok e ?_
      simp [step, hchange, he, Reply.ofUnit]
    simpa [step, hchange] using hcleared

/-- **An edit that is saved is saved once, and none is left out.** Over any
run from the start, a side of the view is saved successfully at most as often
as it goes from clean to flagged. And where a run has led, an operation
before which pending edits are dealt with by saving makes, unless it fails,
exactly the saves that are due; afterwards they are stored, and no flag is
left. That takes a model that keeps what is saved to it, and a host that
binds what the model knows. -/
theorem saved_edits_are_saved_once {settings : Settings} {state : σ}
    {confirmer : Confirmer} {start : Session σ}
    (hstart : start? settings state confirmer = .ok start)
    (past : List (Operation σ)) :
    (∀ side, total m (savesOf m side) start past
      ≤ total m (raisedBy m side) start past) ∧
    ∀ known, m.Keeps known → m.KeepsEditable →
      (∀ op ∈ past, op.Knows known state) →
      ∀ input kind op, (start.run m past).input = some input →
        (start.run m past).Replaces input kind op →
        ((start.run m past).decision m input kind).2 = .save →
        (∀ e, ((start.run m past).step m op).2 ≠ .failed e) →
        ((start.run m past).callsOf m op).filter Call.isSave
            = (start.run m past).dueSaves m input ∧
          (∀ side bytes,
            .save input side bytes ∈ (start.run m past).dueSaves m input →
            m.content (start.run m (past ++ [op])).state side.pane input
              = bytes) ∧
          (start.run m (past ++ [op])).dirty = ⟨false, false⟩ := by
  refine ⟨fun side => ?_, ?_⟩
  · have hpaid := paid_run (m := m) side past start
    have hclean : start.dirty.get side = false := by
      rw [(start?_eq hstart).2.1]
      cases side <;> rfl
    simp only [hclean, Bool.toNat_false, Nat.zero_add] at hpaid
    exact Nat.le_trans (Nat.le_add_right _ _) hpaid
  · intro known hm he hknows input kind op hin hreplaces hsave hok
    rw [run_snoc]
    have hknown := (knownInputs_run hm hstart hknows).bound_known hin
    obtain ⟨t, done, hresolved, hfollows, hdirty⟩ :=
      hreplaces.cleared hin hsave hok
    obtain ⟨hsaves, hstored⟩ := hresolved.due hm he hsave hknown
    refine ⟨?_, fun side bytes hmem => ?_, hdirty⟩
    · have hlog := saves_step m (start.run m past) op
      rw [hfollows.saves_eq, hsaves] at hlog
      exact (List.append_cancel_left hlog).symm
    · rw [hfollows.state]
      exact hstored side bytes hmem

/-- A document that is emptied on the left and filled on the right before it
is unbound. -/
theorem both_sides_saved_once :
    let m := Model.shelf Document
    let shelf : Shelf Document :=
      ⟨[{ contents := ⟨none, some ⟨#[97]⟩, none⟩ }], ⟨true, true⟩⟩
    let past : List (Operation (Shelf Document)) :=
      [.bind (some 0), .applyEdit .left .empty, .applyEdit .right ⟨#[98]⟩]
    ∃ start, start? {} shelf (.fixed .save) = .ok start ∧
      (∀ side, total m (savesOf m side) start past
        ≤ total m (raisedBy m side) start past) ∧
      ((start.run m past).callsOf m (.bind none)).filter Call.isSave
        = [.save 0 .left none, .save 0 .right (some ⟨#[98]⟩)] ∧
      m.content (start.run m (past ++ [.bind none])).state .right 0
        = some ⟨#[98]⟩ := by
  intro m shelf past
  obtain ⟨start, hstart, hin, hsave, hok, hdue⟩ : ∃ start,
      start? {} shelf (.fixed .save) = .ok start ∧
      (start.run m past).input = some 0 ∧
      ((start.run m past).decision m 0 .inputSwitch).2 = .save ∧
      ((start.run m past).step m (.bind none)).2 = .outcome .switched ∧
      (start.run m past).dueSaves m 0
        = [.save 0 .left none, .save 0 .right (some ⟨#[98]⟩)] :=
    ⟨_, rfl, by decide +kernel, by decide +kernel, by decide +kernel,
      by decide +kernel⟩
  have hknows : ∀ op ∈ past,
      op.Knows (fun s place => place < s.items.length) shelf := by
    simp [past, Operation.Knows, shelf]
  obtain ⟨hpaid, hsaved⟩ := saved_edits_are_saved_once (m := m) hstart past
  obtain ⟨hcalls, hstored, -⟩ := hsaved _ keeps_shelf keepsEditable_shelf hknows
    0 .inputSwitch (.bind none) hin (.bind none (by simp)) hsave (by simp [hok])
  rw [hdue] at hcalls hstored
  exact ⟨start, hstart, hpaid, hcalls, hstored .right _ (by simp)⟩

end Reconcile.Session
