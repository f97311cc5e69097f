/-
Reconcile.Proofs.Session.Runs — what runs of operations have in common.

* `Reply.ok_of_ofUnit`, … — an answer tells how the operation ended.
* `start?_eq`, `start?_told`, `start?_ancestor` — where a run begins.
* `run_append`, `run_snoc` — a run cut in two, and its last operation.
* `replies` — what the operations of a run answer.
* `Throughout`, `Since` — what holds before and after every operation of a
  run, and what has held since one of them.
* `run_induction` — what a start provides and every operation keeps.
-/
import Reconcile.Proofs.Session.Steps

namespace Reconcile.Reply

/-! ## What an answer says -/

theorem ok_of_ofUnit {r : Except SaveError Unit}
    (h : ofUnit r = .done) : r = .ok () := by
  cases r with
  | ok _ => rfl
  | error _ => simp [ofUnit] at h

theorem ok_of_ofOutcome {r : Except SaveError Session.SwitchOutcome}
    {o : Session.SwitchOutcome} (h : ofOutcome r = .outcome o) :
    r = .ok o := by
  cases r with
  | ok o' => exact congrArg Except.ok (outcome.inj h)
  | error _ => simp [ofOutcome] at h

theorem ofUnit_ne_outcome (r : Except SaveError Unit)
    (o : Session.SwitchOutcome) : ofUnit r ≠ .outcome o := by
  cases r <;> simp [ofUnit]

theorem error_of_ofUnit {r : Except SaveError Unit} {e : SaveError}
    (h : ofUnit r = .failed e) : r = .error e := by
  cases r with
  | ok _ => simp [ofUnit] at h
  | error e' => exact congrArg Except.error (failed.inj h)

theorem error_of_ofOutcome {r : Except SaveError Session.SwitchOutcome}
    {e : SaveError} (h : ofOutcome r = .failed e) : r = .error e := by
  cases r with
  | ok _ => simp [ofOutcome] at h
  | error e' => exact congrArg Except.error (failed.inj h)

end Reconcile.Reply

namespace Reconcile.Session

variable {σ : Type}

/-! ## Runs -/

/-- A session starts without an input and without edits. -/
theorem start?_eq {settings : Settings} {state : σ} {confirmer : Confirmer}
    {start : Session σ} (h : start? settings state confirmer = .ok start) :
    start.input = none ∧ start.dirty = ⟨false, false⟩ ∧ start.state = state ∧
      start.settings = settings ∧ start.mirrored = settings.viewer.mirrored := by
  unfold start? at h
  split at h
  · simp at h
  · obtain rfl := Except.ok.inj h
    exact ⟨rfl, rfl, rfl, rfl, rfl⟩

theorem start?_confirmer {settings : Settings} {state : σ} {confirmer : Confirmer}
    {start : Session σ} (h : start? settings state confirmer = .ok start) :
    start.confirmer = confirmer := by
  unfold start? at h
  split at h
  · simp at h
  · obtain rfl := Except.ok.inj h
    rfl

/-- Nor has it told anyone anything, and of its flags only the one for the
ancestor pane may be set. -/
theorem start?_told {settings : Settings} {state : σ} {confirmer : Confirmer}
    {start : Session σ} (h : start? settings state confirmer = .ok start) :
    start.threeWay = false ∧ start.copyEnabled = ⟨false, false⟩ ∧
      start.ancestorVisible = settings.viewer.ancestorVisible ∧
      start.listeners = {} ∧ start.calls = [] := by
  unfold start? at h
  split at h
  · simp at h
  · obtain rfl := Except.ok.inj h
    exact ⟨rfl, rfl, rfl, rfl, rfl⟩

/-- The ancestor pane of a session that starts cannot be shown if it is to be
ignored, and so is not shown then. -/
theorem start?_ancestor {settings : Settings} {state : σ} {confirmer : Confirmer}
    {start : Session σ} (h : start? settings state confirmer = .ok start) :
    start.ancestorToggle = !settings.viewer.ignoreAncestor ∧
      (settings.viewer.ignoreAncestor = true → start.ancestorVisible = false) := by
  unfold start? at h
  split at h
  · simp at h
  · rename_i hcheck
    obtain rfl := Except.ok.inj h
    refine ⟨rfl, fun hignore => ?_⟩
    rw [← Bool.not_eq_true]
    intro (hvisible : settings.viewer.ancestorVisible = true)
    -- Settings that ask for both are refused.
    simp [Settings.check, Settings.faults, hignore, hvisible] at hcheck

@[simp] theorem run_nil (m : Model σ) (s : Session σ) : s.run m [] = s := rfl

@[simp] theorem run_cons (m : Model σ) (s : Session σ) (op : Operation σ)
    (ops : List (Operation σ)) :
    s.run m (op :: ops) = (s.step m op).1.run m ops := rfl

theorem run_append (m : Model σ) (s : Session σ) (first more : List (Operation σ)) :
    s.run m (first ++ more) = (s.run m first).run m more :=
  List.foldl_append

theorem run_snoc (m : Model σ) (s : Session σ) (ops : List (Operation σ))
    (op : Operation σ) :
    s.run m (ops ++ [op]) = ((s.run m ops).step m op).1 := by
  rw [run_append, run_cons, run_nil]

/-- What the operations of a run answer. -/
def replies (m : Model σ) : Session σ → List (Operation σ) → List Reply
  | _, [] => []
  | s, op :: ops => (s.step m op).2 :: replies m (s.step m op).1 ops

/-- A property holds before and after every operation of a run. -/
def Throughout (m : Model σ) (P : Session σ → Prop) (s : Session σ)
    (ops : List (Operation σ)) : Prop :=
  ∀ part, part <+: ops → P (s.run m part)

theorem throughout_nil {m : Model σ} {P : Session σ → Prop} {s : Session σ} :
    Throughout m P s [] ↔ P s := by
  simp [Throughout]

theorem throughout_cons {m : Model σ} {P : Session σ → Prop} {s : Session σ}
    {op : Operation σ} {ops : List (Operation σ)} :
    Throughout m P s (op :: ops) ↔ P s ∧ Throughout m P (s.step m op).1 ops := by
  constructor
  · intro h
    exact ⟨h [] List.nil_prefix,
      fun part hpart => h (op :: part) (List.cons_prefix_cons.mpr ⟨rfl, hpart⟩)⟩
  · rintro ⟨hs, h⟩ (_ | ⟨first, part⟩) hpart
    · exact hs
    · obtain ⟨rfl, hrest⟩ := List.cons_prefix_cons.mp hpart
      exact h part hrest

theorem throughout_snoc {m : Model σ} {P : Session σ → Prop} {s : Session σ}
    {ops : List (Operation σ)} {op : Operation σ} (h : Throughout m P s ops)
    (hlast : P (s.run m (ops ++ [op]))) : Throughout m P s (ops ++ [op]) := by
  intro part hpart
  rcases List.prefix_concat_iff.mp hpart with rfl | hpart
  · exact hlast
  · exact h part hpart

/-- An operation of a run has done `E`, and `P` has held ever since. -/
def Since (m : Model σ) (P : Session σ → Prop)
    (E : Session σ → Operation σ → Prop) (s : Session σ)
    (ops : List (Operation σ)) : Prop :=
  ∃ before op after, ops = before ++ op :: after ∧ E (s.run m before) op ∧
    Throughout m P (s.run m (before ++ [op])) after

section Since

variable {m : Model σ} {P : Session σ → Prop} {E : Session σ → Operation σ → Prop}
  {s : Session σ} {ops : List (Operation σ)} {op : Operation σ}

theorem since_last (h : E (s.run m ops) op) (hP : P (s.run m (ops ++ [op]))) :
    Since m P E s (ops ++ [op]) :=
  ⟨ops, op, [], rfl, h, throughout_nil.mpr hP⟩

theorem Since.snoc (h : Since m P E s ops) (hP : P (s.run m (ops ++ [op]))) :
    Since m P E s (ops ++ [op]) := by
  obtain ⟨before, first, after, rfl, hE, hsince⟩ := h
  refine ⟨before, first, after ++ [op], by simp, hE, throughout_snoc hsince ?_⟩
  rw [← run_append]
  simpa using hP

end Since

/-- What a start provides and every operation keeps holds after any run. -/
theorem run_induction {m : Model σ} {P : Session σ → Prop} {s : Session σ}
    {ops : List (Operation σ)} (hstart : P s)
    (hstep : ∀ t op, op ∈ ops → P t → P (t.step m op).1) : P (s.run m ops) := by
  induction ops generalizing s with
  | nil => exact hstart
  | cons op ops ih =>
    exact ih (hstep s op (by simp) hstart)
      fun t op' hop => hstep t op' (by simp [hop])

end Reconcile.Session
