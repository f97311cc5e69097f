/-
Reconcile.Proofs.Session.CalledOff — a switch that is declined, or that has
nothing to do, is as if it had not been asked for.

An operation that may replace what is shown has nothing to do when that is
shown already (`Vacuous`), and else ends as `Switching` says
(`step_outcome`). Of its endings, only the one that is called off leaves the
edits pending: the question has been asked, and nothing else has happened
(`ResolvedBound.declined`).

`GoesOnAs` is what that means for the rest of a run: a session that differs
from another one in its log alone does, answers and records the same.
-/
import Reconcile.Proofs.Session.Forgetful

namespace Reconcile.Session

variable {σ : Type} {m : Model σ}

/-! ## What comes after -/

/-- Whatever happens next, `t` answers as `s` does, becomes the same
session, and adds the same calls to its log. -/
def GoesOnAs (m : Model σ) (t s : Session σ) : Prop :=
  ∀ more, t.replies m more = s.replies m more ∧
    ∃ made, (s.run m more).calls = s.calls ++ made ∧
      t.run m more = { s.run m more with calls := t.calls ++ made }

/-- What was called so far has no bearing on what comes after. -/
theorem goesOnAs_of_calls {s t : Session σ}
    (h : t = { s with calls := t.calls }) : GoesOnAs m t s := by
  intro more
  -- Both are the session with an empty log, each after its own calls.
  have hs : s = preceded s.calls { s with calls := [] } := by simp [preceded]
  have ht : t = preceded t.calls { s with calls := [] } := by
    rw [h]
    simp [preceded]
  have hsrun := run_preceded m s.calls { s with calls := [] } more
  have htrun := run_preceded m t.calls { s with calls := [] } more
  have hsreplies := replies_preceded m s.calls { s with calls := [] } more
  have htreplies := replies_preceded m t.calls { s with calls := [] } more
  rw [← hs] at hsrun hsreplies
  rw [← ht] at htrun htreplies
  refine ⟨htreplies.trans hsreplies.symm, _, congrArg Session.calls hsrun, ?_⟩
  rw [htrun, hsrun]
  rfl

/-! ## How a switch is called off -/

/-- Whether an operation asks for what is shown already. -/
def Vacuous (s : Session σ) (op : Operation σ) : Prop :=
  op = .bind s.input ∨ op = .setMirrored s.mirrored

theorem Vacuous.step_eq {s : Session σ} {op : Operation σ} (h : s.Vacuous op) :
    s.step m op = (s, .outcome .unchanged) := by
  rcases h with rfl | rfl
  · simp [step, bind, Reply.ofOutcome]
  · simp [step, setMirrored, Reply.ofOutcome]

/-- The two operations that answer with an outcome had nothing to do, or end
as a switch does. -/
theorem step_outcome {s : Session σ} {op : Operation σ} {o : SwitchOutcome}
    (h : (s.step m op).2 = .outcome o) :
    (s.Vacuous op ∧ o = .unchanged) ∨
      ∃ next, Switching m next s (s.step m op).1 (.ok o) := by
  cases op with
  | bind input =>
    have hr : (s.bind m input).2 = .ok o := Reply.ok_of_ofOutcome h
    by_cases hin : s.input = input
    · rw [bind, if_pos hin] at hr
      exact .inl ⟨.inl (by rw [hin]), (Except.ok.inj hr).symm⟩
    · have hends := bind_ends (m := m) hin
      rw [hr] at hends
      exact .inr ⟨_, hends⟩
  | setMirrored value =>
    have hr : (s.setMirrored m value).2 = .ok o := Reply.ok_of_ofOutcome h
    by_cases hv : s.mirrored = value
    · rw [setMirrored, if_pos hv] at hr
      exact .inl ⟨.inr (by rw [hv]), (Except.ok.inj hr).symm⟩
    · have hends := setMirrored_ends (m := m) hv
      rw [hr] at hends
      exact .inr ⟨_, hends⟩
  | flush | flushAll | externalChange | inputChanged =>
    exact absurd h (Reply.ofUnit_ne_outcome _ _)
  | setDirty | applyEdit | copy | refresh | labelsChanged | setAncestorVisible
  | setIgnoreAncestor | addListener | removeListener | dispose | beginSave
  | endSave | elsewhere =>
    simp [step] at h

/-- An operation finds nothing to do exactly if it asks for what is shown
already. -/
theorem step_unchanged_iff {s : Session σ} {op : Operation σ} :
    (s.step m op).2 = .outcome .unchanged ↔ s.Vacuous op := by
  refine ⟨fun h => ?_, fun h => by rw [h.step_eq]⟩
  rcases step_outcome h with ⟨hvacuous, -⟩ | ⟨next, hends⟩
  · exact hvacuous
  · generalize (s.step m op).1 = t at hends
    cases hends

/-- The edits are left pending only if the question was asked and declined,
and then nothing but that has happened. -/
theorem ResolvedBound.declined {kind : PromptKind} {s t : Session σ}
    (h : ResolvedBound m kind s t (.ok .cancelled)) :
    ∃ input, s.input = some input ∧ s.isDirty = true ∧
      t = { s with
        confirmer := s.confirmer.next
        calls := s.calls ++ [.prompt (s.question m input kind)] } := by
  cases h with
  | @bound input _ _ hin resolved =>
    cases resolved with
    | cancelled hdirty answer =>
      refine ⟨input, hin, hdirty, ?_⟩
      unfold decision at answer ⊢
      -- A policy that does not ask saves, so the question must have been asked.
      cases hp : s.settings.viewer.savePolicy with
      | silentFlush => simp [hp] at answer
      | alwaysFlush => simp [hp] at answer
      | confirm => rfl

/-! ## The switch -/

/-- **A switch that is declined or vacuous is atomic.** Whatever the session
is like: if there is nothing to do, it stays as it is, log and all. If the
switch is called off, it is the same but for one question more in the log,
which names the input that stays bound and its flags, and for who answers
next; and from there on everything goes as it would have gone without the
question. -/
theorem called_off_switch_is_atomic (m : Model σ) (s : Session σ)
    (op : Operation σ) :
    ((s.step m op).2 = .outcome .unchanged → (s.step m op).1 = s) ∧
    ((s.step m op).2 = .outcome .cancelled →
      ∃ input prompt, s.input = some input ∧
        prompt.kind = .inputSwitch ∧
        prompt.input = m.name s.state input ∧
        prompt.leftDirty = s.dirty.left ∧ prompt.rightDirty = s.dirty.right ∧
        (s.step m op).1 = { s with
          confirmer := s.confirmer.next
          calls := s.calls ++ [.prompt prompt] } ∧
        GoesOnAs m (s.step m op).1 { s with confirmer := s.confirmer.next }) := by
  constructor
  · intro h
    rw [(step_unchanged_iff.mp h).step_eq]
  · intro h
    rcases step_outcome h with ⟨-, ho⟩ | ⟨next, hends⟩
    · simp at ho
    · generalize (s.step m op).1 = t at hends ⊢
      cases hends with
      | cancelled resolved =>
        obtain ⟨input, hin, -, rfl⟩ := resolved.declined
        exact ⟨input, s.question m input .inputSwitch, hin, rfl, rfl, rfl, rfl,
          rfl, goesOnAs_of_calls rfl⟩

/-- A document with an edit on the right: binding nothing in its place is
called off, so is turning the view, and binding it once more is vacuous. -/
theorem called_off_switch_of_a_document :
    let m := Model.shelf Document
    let state : Shelf Document :=
      ⟨[{ contents := ⟨none, some ⟨#[97]⟩, some ⟨#[98]⟩⟩ }], ⟨true, true⟩⟩
    let past : List (Operation (Shelf Document)) :=
      [.bind (some 0), .applyEdit .right ⟨#[99]⟩]
    ∃ start, start? {} state (.fixed .cancel) = .ok start ∧
      (start.run m (past ++ [.bind (some 0)])) = start.run m past ∧
      ∀ op ∈ [Operation.bind none, Operation.setMirrored true],
        ∃ prompt : Prompt, prompt.input = "document" ∧
          prompt.leftDirty = false ∧ prompt.rightDirty = true ∧
          (start.run m (past ++ [op])).calls
            = (start.run m past).calls ++ [.prompt prompt] := by
  intro m state past
  obtain ⟨start, hstart, hagain, hbind, hturn, hin, hname, hdirty⟩ : ∃ start,
      start? {} state (.fixed .cancel) = .ok start ∧
      ((start.run m past).step m (.bind (some 0))).2 = .outcome .unchanged ∧
      ((start.run m past).step m (.bind none)).2 = .outcome .cancelled ∧
      ((start.run m past).step m (.setMirrored true)).2 = .outcome .cancelled ∧
      (start.run m past).input = some 0 ∧
      m.name (start.run m past).state 0 = "document" ∧
      (start.run m past).dirty = ⟨false, true⟩ :=
    ⟨_, rfl, by decide +kernel, by decide +kernel, by decide +kernel,
      by decide +kernel, by decide +kernel, by decide +kernel⟩
  refine ⟨start, hstart, ?_, fun op hop => ?_⟩
  · rw [run_snoc]
    exact (called_off_switch_is_atomic m _ _).1 hagain
  · have hcancelled : ((start.run m past).step m op).2 = .outcome .cancelled := by
      simp only [List.mem_cons, List.not_mem_nil, or_false] at hop
      rcases hop with rfl | rfl
      · exact hbind
      · exact hturn
    obtain ⟨input, prompt, hbound, -, hasked, hleft, hright, hafter, -⟩ :=
      (called_off_switch_is_atomic m _ _).2 hcancelled
    obtain rfl := Option.some.inj (hin.symm.trans hbound)
    rw [hname] at hasked
    rw [hdirty] at hleft hright
    refine ⟨prompt, hasked, hleft, hright, ?_⟩
    rw [run_snoc, hafter]

end Reconcile.Session
