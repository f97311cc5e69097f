/-
Reconcile.Proofs.Session.Moves — the moves of which every operation is made.

An operation that does not touch the listeners is a sequence of moves of four
kinds (`Move`): a dirty flag is set, everything is read anew, the ancestor pane
is shown or hidden, or something is done of which no one is told (`Quietly`).
Most of them leave what is shown (`Still`); `step_arranged` says that any other
comes last, and that there is at most one of it. It says so once, for all
endings of all operations: a save that is refused, a question that is answered
with a cancel, and a switch that goes through differ in which moves they make,
and not in anything else.

So a property of the flags and of what was told about them is proved for four
moves, and holds after every operation (`step_moves`, `Moves.keeps`).
-/
import Mathlib.Logic.Relation
import Reconcile.Proofs.Session.Runs

namespace Reconcile

/-- Whether a call tells a listener of a change, or whoever shows the panes
what they are to show and what can be done with them. Of labels and of the
bytes that the user has just typed nothing else is derived. -/
def Call.tells : Call → Bool
  | content .. | ancestorAvailable .. | copyEnabled .. | relayout | event .. => true
  | _ => false

/-- An operation leaves the listeners alone. -/
def Operation.KeepsListeners {σ : Type} : Operation σ → Prop
  | .addListener _ | .removeListener _ | .dispose => False
  | _ => True

namespace Session

variable {σ : Type} {m : Model σ} {s t u : Session σ}

/-! ## Moves -/

/-- `t` is `s` after something of which no one is told: the flags that are
announced stay, and so do those to whom they are announced. -/
structure Quietly (s t : Session σ) : Prop where
  frame : t = { s with
    state := t.state
    input := t.input
    ancestorToggle := t.ancestorToggle
    mirrored := t.mirrored
    panes := t.panes
    registry := t.registry
    confirmer := t.confirmer
    calls := t.calls }
  calls : ∃ more, t.calls = s.calls ++ more ∧ ∀ c ∈ more, c.tells = false

/-- One of the moves of which operations are made. -/
inductive Move (m : Model σ) : Session σ → Session σ → Prop where
  | quiet {s t : Session σ} (h : Quietly s t) : Move m s t
  | flag (s : Session σ) (side : Side) (value : Bool) :
      Move m s (s.setDirty side value)
  | refresh (s : Session σ) : Move m s (s.refresh m)
  | ancestorPane (s : Session σ) (value : Bool) :
      Move m s (s.setAncestorVisible value).1

/-- `t` is `s` after some moves. -/
abbrev Moves (m : Model σ) : Session σ → Session σ → Prop :=
  Relation.ReflTransGen (Move m)

/-- What every move keeps, moves keep. -/
theorem Moves.keeps {P : Session σ → Prop}
    (hmove : ∀ {s t : Session σ}, Move m s t → P s → P t) (h : Moves m s t)
    (hs : P s) : P t := by
  induction h with
  | refl => exact hs
  | tail _ move ih => exact hmove move ih

/-- No call is made. -/
theorem Quietly.of_calls_eq (h : t = { s with
      state := t.state
      input := t.input
      ancestorToggle := t.ancestorToggle
      mirrored := t.mirrored
      panes := t.panes
      registry := t.registry
      confirmer := t.confirmer }) : Quietly s t := by
  have hcalls : t.calls = s.calls := by rw [h]
  refine ⟨?_, [], by simp [hcalls], by simp⟩
  rw [h]

/-- One of the moves that neither show anything nor change what can be shown. -/
inductive SmallMove : Session σ → Session σ → Prop where
  | quiet {s t : Session σ} (h : Quietly s t)
      (toggle : t.ancestorToggle = s.ancestorToggle) : SmallMove s t
  | flag (s : Session σ) (side : Side) (value : Bool) :
      SmallMove s (s.setDirty side value)

/-- `t` is `s` after some moves of that kind. -/
abbrev Still : Session σ → Session σ → Prop := Relation.ReflTransGen SmallMove

theorem SmallMove.move (h : SmallMove s t) : Move m s t := by
  cases h with
  | quiet hquiet => exact .quiet hquiet
  | flag side value => exact .flag s side value

theorem Still.moves (h : Still s t) : Moves m s t :=
  Relation.ReflTransGen.mono (fun _ _ small => small.move) s t h

theorem Quietly.still (h : Quietly s t) (toggle : t.ancestorToggle = s.ancestorToggle) :
    Still s t :=
  .single (.quiet h toggle)

/-! ## Quiet calls -/

theorem tells_of_mem_headerCalls {input : Place} {panes : List Pane} {c : Call}
    (h : c ∈ s.headerCalls m input panes) : c.tells = false := by
  obtain ⟨pane, -, h⟩ := List.mem_filterMap.mp h
  unfold headerCall at h
  split at h
  · obtain rfl := Option.some.inj h
    rfl
  · simp at h

/-- Of a refresh, the headers of whatever is bound. -/
theorem tells_of_mem_currentHeaders {c : Call}
    (h : c ∈ (s.input.map fun input => s.headerCalls m input Pane.all).getD []) :
    c.tells = false := by
  cases hin : s.input with
  | none => simp [hin] at h
  | some input =>
    simp only [hin, Option.map_some, Option.getD_some] at h
    exact tells_of_mem_headerCalls h

theorem tells_of_mem_questionCalls {input : Place} {kind : PromptKind} {c : Call}
    (h : c ∈ s.questionCalls m input kind) : c.tells = false := by
  obtain ⟨p, rfl⟩ := prompt_of_mem_questionCalls h
  rfl

theorem tells_of_rebinds {c : Call} (h : c.rebinds = true) : c.tells = false := by
  cases c <;> simp_all [Call.rebinds, Call.tells]

/-! ## The parts of an operation -/

theorem still_applyEdit (side : Side) (bytes : ByteArray) (s : Session σ) :
    Still s (s.applyEdit side bytes) := by
  have hpane : Quietly s (s.setContents side bytes) :=
    ⟨rfl, [.setContents side bytes], rfl, by simp [Call.tells]⟩
  exact (hpane.still rfl).tail (.flag _ side true)

theorem FlushedSide.still {input : Place} {side : Side}
    {r : Except SaveError Unit} (ends : FlushedSide m input side s t r) :
    Still s t := by
  cases ends with
  | skipped => exact .refl
  | saved h state hsave =>
    have hstored : Quietly s { s with
        state := state, calls := s.calls ++ [s.saveCall m input side] } :=
      ⟨rfl, _, rfl, by simp [saveCall, Call.tells]⟩
    have hclean := (hstored.still rfl).tail (.flag _ side false)
    have hlog : s.calls ++ s.saveCall m input side :: s.flagCalls side false
        = s.calls ++ [s.saveCall m input side] ++ s.flagCalls side false := by simp
    rw [hlog]
    rw [setDirty_eq] at hclean
    exact hclean
  | refused h e hsave =>
    exact Quietly.still ⟨rfl, _, rfl, by simp [saveCall, Call.tells]⟩ rfl

/-- Pending edits are dealt with in small moves. -/
theorem still_settling (m : Model σ) : KeptBySettling m (Still (σ := σ)) where
  refl _ := .refl
  trans h g := h.trans g
  flag s side value := .single (.flag s side value)
  flushedSide ends := ends.still
  decision input kind s := by
    rw [decision_eq]
    exact Quietly.still ⟨rfl, _, rfl, fun _ h => tells_of_mem_questionCalls h⟩ rfl

theorem still_release (m : Model σ) (s : Session σ) : Still s (s.release m) := by
  rw [release_eq]
  exact Quietly.still
    ⟨rfl, _, rfl, fun _ h => tells_of_rebinds (rebinds_of_mem_releaseCalls h)⟩ rfl

theorem still_acquire (m : Model σ) (input : Option Place) (s : Session σ) :
    Still s (s.acquire m input) := by
  rw [acquire_eq]
  exact Quietly.still
    ⟨rfl, _, rfl, fun _ h => tells_of_rebinds (rebinds_of_mem_acquireCalls h)⟩ rfl

theorem still_labelsChanged (m : Model σ) (inputs : List Place) (s : Session σ) :
    Still s (s.labelsChanged m inputs) := by
  unfold labelsChanged
  split
  · exact .refl
  · split
    · rw [showHeaders_eq]
      exact Quietly.still ⟨rfl, _, rfl, fun _ h => tells_of_mem_headerCalls h⟩ rfl
    · exact .refl

/-! ## Operations -/

/-- What an operation comes to: small moves, and then at most one that shows
anything. Two operations are about the ancestor pane, and three change who
listens. -/
inductive Arranged (m : Model σ) (s : Session σ) :
    Operation σ → Session σ → Prop where
  | still {op : Operation σ} {t : Session σ} (h : Still s t) : Arranged m s op t
  | refreshed {op : Operation σ} {t : Session σ} (h : Still s t) :
      Arranged m s op (t.refresh m)
  | shown (value : Bool) :
      Arranged m s (.setAncestorVisible value) (s.setAncestorVisible value).1
  | locked (value : Bool) :
      Arranged m s (.setIgnoreAncestor value) (s.setIgnoreAncestor value)
  | listening {op : Operation σ} {t : Session σ} (hop : ¬ op.KeepsListeners)
      (h : Still s t) (listeners : Listeners) :
      Arranged m s op { t with listeners := listeners }

theorem arranged_rebind {op : Operation σ} (input : Option Place) (h : Still s t) :
    Arranged m s op (t.rebind m input) :=
  .refreshed (((h.trans (still_release m t)).trans
    ((still_settling m).clearDirty _)).trans (still_acquire m input _))

theorem arranged_turn {op : Operation σ} (value : Bool) (h : Still s t) :
    Arranged m s op (t.turn m value) :=
  .refreshed (h.trans (Quietly.still (.of_calls_eq rfl) rfl))

theorem Switching.arranged {op : Operation σ} {next : Session σ → Session σ}
    {r : Except SaveError SwitchOutcome} (ends : Switching m next s t r)
    (hnext : ∀ {u}, Still s u → Arranged m s op (next u)) : Arranged m s op t := by
  have hsettling := still_settling m
  cases ends with
  | failed resolved => exact .still (hsettling.resolvedBound resolved)
  | cancelled resolved => exact .still (hsettling.resolvedBound resolved)
  | switched resolved _ => exact hnext (hsettling.resolvedBound resolved)

theorem ChangedOutside.arranged {op : Operation σ} {r : Except SaveError Unit}
    (ends : ChangedOutside m s t r) : Arranged m s op t := by
  have hsettling := still_settling m
  cases ends with
  | unbound => exact .still .refl
  | saving => exact .still .refl
  | failed _ _ resolved => exact .still (hsettling.resolved resolved)
  | dropped _ _ resolved =>
    exact .refreshed ((hsettling.resolved resolved).trans (hsettling.clearDirty _))
  | shown _ _ resolved _ => exact .refreshed (hsettling.resolved resolved)

/-- **An operation shows something at most once**, and last. -/
theorem step_arranged (m : Model σ) (s : Session σ) (op : Operation σ) :
    Arranged m s op (s.step m op).1 := by
  cases op with
  | bind input =>
    by_cases h : s.input = input
    · rw [step, bind, if_pos h]
      exact .still .refl
    · exact (bind_ends h).arranged (arranged_rebind input)
  | setDirty side value => exact .still (.single (.flag s side value))
  | applyEdit side bytes => exact .still (still_applyEdit side bytes s)
  | copy d =>
    simp only [step, copy]
    cases s.input with
    | none => exact .still .refl
    | some input =>
      simp only
      split
      · exact .still (still_applyEdit _ _ s)
      · exact .still .refl
  | flush side =>
    simp only [step, flush]
    cases s.input with
    | none => exact .still .refl
    | some input => exact .still (flushSide_ends m input side s).still
  | flushAll =>
    simp only [step, flushAll]
    cases s.input with
    | none => exact .still .refl
    | some input =>
      exact .still ((still_settling m).flushedSides (flushSides_ends m input s))
  | refresh => exact .refreshed .refl
  | externalChange => exact (externalChange_ends m s).arranged
  | inputChanged input =>
    by_cases h : s.input = some input
    · rw [step, inputChanged, if_pos h]
      exact (externalChange_ends m s).arranged
    · rw [step, inputChanged, if_neg h]
      exact .still .refl
  | labelsChanged inputs => exact .still (still_labelsChanged m inputs s)
  | setMirrored value =>
    by_cases h : s.mirrored = value
    · rw [step, setMirrored, if_pos h]
      exact .still .refl
    · exact (setMirrored_ends h).arranged (arranged_turn value)
  | setAncestorVisible value => exact .shown value
  | setIgnoreAncestor value => exact .locked value
  | addListener l => exact .listening id .refl _
  | removeListener l => exact .listening id .refl _
  | dispose =>
    have hreleased : Quietly (s.release m) { s.release m with input := none } :=
      .of_calls_eq rfl
    exact .listening id ((still_release m s).trans (hreleased.still rfl)) _
  | beginSave => exact .still (Quietly.still (.of_calls_eq rfl) rfl)
  | endSave guard => exact .still (Quietly.still (.of_calls_eq rfl) rfl)
  | elsewhere change => exact .still (Quietly.still (.of_calls_eq rfl) rfl)

theorem moves_setIgnoreAncestor (m : Model σ) (value : Bool) (s : Session σ) :
    Moves m s (s.setIgnoreAncestor value) := by
  have hlocked : ∀ u : Session σ, Move m u { u with ancestorToggle := !value } :=
    fun u => .quiet (.of_calls_eq rfl)
  cases value with
  | false => exact .single (hlocked s)
  | true => exact (Relation.ReflTransGen.single (.ancestorPane s false)).tail (hlocked _)

/-- **An operation is made of moves**, unless it is about the listeners. -/
theorem step_moves (m : Model σ) (s : Session σ) {op : Operation σ}
    (hop : op.KeepsListeners) : Moves m s (s.step m op).1 := by
  have harranged := step_arranged m s op
  generalize (s.step m op).1 = t at harranged ⊢
  cases harranged with
  | still h => exact h.moves
  | refreshed h => exact h.moves.tail (.refresh _)
  | shown value => exact .single (.ancestorPane s value)
  | locked value => exact moves_setIgnoreAncestor m value s
  | listening hlistens => exact absurd hop hlistens

/-- If it is about the listeners, it does nothing else, unless it is the end. -/
theorem step_listeners (m : Model σ) (s : Session σ) {op : Operation σ}
    (hop : ¬ op.KeepsListeners) (hlive : op ≠ .dispose) :
    ∃ listeners, (s.step m op).1 = { s with listeners := listeners } := by
  cases op with
  | addListener l => exact ⟨_, rfl⟩
  | removeListener l => exact ⟨_, rfl⟩
  | dispose => exact absurd rfl hlive
  | _ => exact absurd trivial hop

end Session

end Reconcile
