/-
Reconcile.Proofs.Session.Settling — how pending edits are dealt with.

A flush of one side ends in one of three ways, and a resolution in one of
five. Each has an inductive predicate with a constructor for every ending
(`FlushedSide`, `Resolved`), and a theorem that the operation ends so. Proofs
about these operations are case analyses on the predicates and never unfold
them.

`Settled` is what all of them have in common up to the point where a
pending edit has been dealt with: only the state behind the inputs, the
flags, the confirmer and the log change, each recorded save is that of a
flagged side of the input, with the bytes of its pane, and a flag is good
for one save. It is reflexive and transitive, so it is proved once for a
flush of one side and once for the question, and composed from there.
-/
import Reconcile.Proofs.Session.Effects

namespace Reconcile

/-! ## The saves of a log -/

/-- Carry out a call that asks to save; a save that fails changes nothing. -/
def Model.obey {σ : Type} (m : Model σ) (state : σ) : Call → σ
  | .save input side bytes =>
    match m.save state side input bytes with
    | .ok after => after
    | .error _ => state
  | _ => state

/-- The state after the saves among some calls are carried out in order. -/
def Model.carryOut {σ : Type} (m : Model σ) (state : σ) (calls : List Call) : σ :=
  calls.foldl m.obey state

/-- Whether a call is a save of a side that succeeds. -/
def Model.accepts {σ : Type} (m : Model σ) (side : Side) (state : σ) : Call → Bool
  | .save input other bytes =>
    match m.save state other input bytes with
    | .ok _ => other = side
    | .error _ => false
  | _ => false

/-- How many of some calls are saves of a side that succeed, when they are
carried out in order. -/
def Model.succeeded {σ : Type} (m : Model σ) (side : Side) : σ → List Call → Nat
  | _, [] => 0
  | state, c :: calls =>
    (m.accepts side state c).toNat + succeeded m side (m.obey state c) calls

/-- What is saved of what a pane shows, given what is stored on the other
side: an empty pane is not saved as an empty side next to a missing one. -/
def savedBytes (shown opposite : Option ByteArray) : Option ByteArray :=
  if shown = some .empty ∧ opposite = none then none else shown

/-- What is saved is what is shown, or nothing in place of no bytes. -/
def Normalises (shown saved : Option ByteArray) : Prop :=
  saved = shown ∨ shown = some .empty ∧ saved = none

theorem normalises_savedBytes (shown opposite : Option ByteArray) :
    Normalises shown (savedBytes shown opposite) := by
  unfold savedBytes
  split
  · rename_i h
    exact .inr ⟨h.1, rfl⟩
  · exact .inl rfl

/-- What stands for a missing side is as empty as what it stands for. -/
theorem getD_savedBytes (shown opposite : Option ByteArray) :
    (savedBytes shown opposite).getD .empty = shown.getD .empty := by
  unfold savedBytes
  split
  · rename_i h
    rw [h.1]
    rfl
  · rfl

/-- A missing side is shown as an empty one and saved, next to itself, as a
missing one; what is there is saved as it is. -/
theorem savedBytes_getD (content : Option ByteArray) :
    savedBytes (some (content.getD .empty)) content = content := by
  cases content <;> simp [savedBytes]

namespace Model

variable {σ : Type} {m : Model σ}

theorem carryOut_append (state : σ) (first more : List Call) :
    m.carryOut state (first ++ more) = m.carryOut (m.carryOut state first) more :=
  List.foldl_append

theorem obey_eq_self {c : Call} (h : c.isSave = false) (state : σ) :
    m.obey state c = state := by
  cases c <;> simp_all [Call.isSave, obey]

theorem carryOut_eq_self {calls : List Call}
    (h : ∀ c ∈ calls, c.isSave = false) (state : σ) :
    m.carryOut state calls = state := by
  induction calls with
  | nil => rfl
  | cons c calls ih =>
    have hc := h c (by simp)
    have hrest := ih fun c hc => h c (by simp [hc])
    simpa [carryOut, List.foldl_cons, obey_eq_self hc] using hrest

/-- What each of some calls keeps if it is a save that succeeds is kept when
they are carried out. -/
theorem carryOut_keeps_of_mem {P : σ → Prop} {calls : List Call}
    (hsave : ∀ {s t : σ} {side : Side} {input : Place} {bytes : Option ByteArray},
      Call.save input side bytes ∈ calls →
      m.save s side input bytes = .ok t → P s → P t)
    {state : σ} (h : P state) : P (m.carryOut state calls) := by
  induction calls generalizing state with
  | nil => exact h
  | cons c calls ih =>
    have hobey : P (m.obey state c) := by
      cases c with
      | save input side bytes =>
        simp only [obey]
        cases hresult : m.save state side input bytes with
        | ok after => exact hsave (by simp) hresult h
        | error e => exact h
      | _ => exact h
    exact ih (fun hmem => hsave (by simp [hmem])) hobey

/-- What a save that succeeds keeps is kept when calls are carried out. -/
theorem carryOut_keeps {P : σ → Prop}
    (hsave : ∀ {s t : σ} {side : Side} {input : Place} {bytes : Option ByteArray},
      m.save s side input bytes = .ok t → P s → P t)
    (calls : List Call) {state : σ} (h : P state) : P (m.carryOut state calls) :=
  carryOut_keeps_of_mem (fun _ => hsave) h

theorem succeeded_append (side : Side) (first more : List Call) :
    ∀ state : σ, m.succeeded side state (first ++ more) =
      m.succeeded side state first
        + m.succeeded side (m.carryOut state first) more := by
  induction first with
  | nil => simp [succeeded, carryOut]
  | cons c first ih =>
    intro state
    rw [List.cons_append, succeeded, succeeded, ih (m.obey state c), Nat.add_assoc]
    rfl

theorem succeeded_eq_zero (side : Side) {calls : List Call}
    (h : ∀ c ∈ calls, c.isSave = false) :
    ∀ state : σ, m.succeeded side state calls = 0 := by
  induction calls with
  | nil => exact fun _ => rfl
  | cons c calls ih =>
    intro state
    have hc := h c (by simp)
    have hrest := ih (fun c hc => h c (by simp [hc])) (m.obey state c)
    cases c <;> simp_all [succeeded, accepts, Call.isSave]

end Model

namespace Session

variable {σ : Type}

/-! ## One side -/

/-- Whether a side of the view has edits that may be saved. -/
def pending (m : Model σ) (input : Place) (side : Side) (s : Session σ) : Bool :=
  (s.view m).editable s.state side input && s.dirty.get side

/-- The call that a flush of a side makes to the model. -/
def saveCall (m : Model σ) (input : Place) (side : Side) (s : Session σ) : Call :=
  .save input (side.oriented s.mirrored) (s.pendingBytes m input side)

/-- How a flush of one side can end. -/
inductive FlushedSide (m : Model σ) (input : Place) (side : Side) (s : Session σ) :
    Session σ → Except SaveError Unit → Prop where
  /-- There is nothing to save. -/
  | skipped (h : s.pending m input side = false) :
      FlushedSide m input side s s (.ok ())
  | saved (h : s.pending m input side = true) (state : σ)
      (hsave : m.save s.state (side.oriented s.mirrored) input
        (s.pendingBytes m input side) = .ok state) :
      FlushedSide m input side s
        { s with
          state := state
          dirty := s.dirty.set side false
          calls := s.calls ++ s.saveCall m input side :: s.flagCalls side false }
        (.ok ())
  /-- The edits stay pending. -/
  | refused (h : s.pending m input side = true) (e : SaveError)
      (hsave : m.save s.state (side.oriented s.mirrored) input
        (s.pendingBytes m input side) = .error e) :
      FlushedSide m input side s
        { s with
          calls := s.calls ++
            [s.saveCall m input side, .notify (m.name s.state input) side e] }
        (.error e)

theorem flushSide_ends (m : Model σ) (input : Place) (side : Side)
    (s : Session σ) :
    FlushedSide m input side s (s.flushSide m input side).1
      (s.flushSide m input side).2 := by
  simp only [flushSide]
  by_cases h : ((s.view m).editable s.state side input && s.dirty.get side) = true
  · rw [if_pos h]
    simp only [view, Model.save_oriented]
    cases hsave : m.save s.state (side.oriented s.mirrored) input
        (s.pendingBytes m input side) with
    | ok state =>
      have hflag : ∀ (state : σ) (calls : List Call),
          flagCalls { s with state, calls } side false
            = s.flagCalls side false := fun _ _ => rfl
      simp only [emit_eq, setDirty_eq, hflag, List.append_assoc]
      exact .saved h state hsave
    | error e =>
      simp only [emit_eq, List.append_assoc]
      exact .refused h e hsave
  · rw [if_neg h]
    exact .skipped (Bool.eq_false_iff.mpr h)

theorem pendingBytes_eq (m : Model σ) (input : Place) (side : Side)
    (s : Session σ) :
    s.pendingBytes m input side =
      savedBytes (s.panes.side side)
        (m.content s.state (side.oriented s.mirrored).opposite.pane input) := by
  have hother : (s.view m).content s.state side.opposite.pane input
      = m.content s.state (side.oriented s.mirrored).opposite.pane input := by
    rw [view, Model.content_oriented, ← Side.pane_oriented,
      Side.opposite_oriented]
  simp only [pendingBytes, savedBytes, hother]
  cases m.content s.state (side.oriented s.mirrored).opposite.pane input with
  | some _ => simp
  | none =>
    cases s.panes.side side with
    | none => simp
    | some bytes =>
      have hempty : bytes.isEmpty = decide (bytes = .empty) := by
        rw [Bool.eq_iff_iff, decide_eq_true_iff, ← ByteArray.size_eq_zero_iff]
        simp [ByteArray.isEmpty]
      simp only [Option.filter, hempty]
      by_cases he : bytes = .empty <;> simp [he]

theorem normalises_pendingBytes (m : Model σ) (input : Place) (side : Side)
    (s : Session σ) :
    Normalises (s.panes.side side) (s.pendingBytes m input side) := by
  rw [pendingBytes_eq]
  exact normalises_savedBytes _ _

/-! ## What dealing with pending edits can change -/

/-- Whether a call is among those that dealing with the pending edits of an
input can make. A save is of that input and of a flagged side, with the
bytes of the pane in which that side is shown. -/
def SettlingCall (s : Session σ) (input : Place) (c : Call) : Prop :=
  c.settles = true ∧ ∀ place side bytes, c = .save place side bytes →
    place = input ∧ s.dirty.get (side.oriented s.mirrored) = true ∧
      Normalises (s.panes.side (side.oriented s.mirrored)) bytes

/-- `t` is `s` after some of the pending edits of an input are dealt with. -/
structure Settled (m : Model σ) (input : Place) (s t : Session σ) : Prop where
  /-- Nothing else changes. -/
  frame : t = { s with
    state := t.state
    dirty := t.dirty
    confirmer := t.confirmer
    calls := t.calls }
  /-- The state changes only by the saves that are recorded. Flags are only
  cleared, and each pays for one save at most. -/
  calls : ∃ made, t.calls = s.calls ++ made ∧ t.state = m.carryOut s.state made ∧
    (∀ c ∈ made, s.SettlingCall input c) ∧
    ∀ side, m.succeeded (side.oriented s.mirrored) s.state made
      + (t.dirty.get side).toNat ≤ (s.dirty.get side).toNat

namespace Settled

variable {m : Model σ} {input : Place} {s t u : Session σ}

theorem refl (m : Model σ) (input : Place) (s : Session σ) :
    Settled m input s s :=
  ⟨rfl, [], by simp, rfl, by simp, by simp [Model.succeeded]⟩

theorem flags (h : Settled m input s t) {side : Side}
    (ht : t.dirty.get side = true) : s.dirty.get side = true := by
  obtain ⟨made, -, -, -, hpaid⟩ := h.calls
  have hside := hpaid side
  rw [ht] at hside
  cases hs : s.dirty.get side with
  | true => rfl
  | false => simp [hs] at hside

theorem input_eq (h : Settled m input s t) : t.input = s.input := by
  rw [h.frame]

theorem mirrored_eq (h : Settled m input s t) : t.mirrored = s.mirrored := by
  rw [h.frame]

theorem panes_eq (h : Settled m input s t) : t.panes = s.panes := by
  rw [h.frame]

/-- What the saves of the flagged sides keep is kept. -/
theorem keeps {P : σ → Prop} (h : Settled m input s t)
    (hsave : ∀ {side : Side} {a b : σ} {bytes : Option ByteArray},
      s.dirty.get (side.oriented s.mirrored) = true →
      m.save a side input bytes = .ok b → P a → P b)
    (hs : P s.state) : P t.state := by
  obtain ⟨made, -, hstate, hmade, -⟩ := h.calls
  rw [hstate]
  refine Model.carryOut_keeps_of_mem (fun hmem hsaved => ?_) hs
  obtain ⟨rfl, hflag, -⟩ := (hmade _ hmem).2 _ _ _ rfl
  exact hsave hflag hsaved

/-- A call that can be made after some edits are dealt with could be made
before. -/
theorem settlingCall (h : Settled m input s t) {c : Call}
    (hc : t.SettlingCall input c) : s.SettlingCall input c := by
  refine ⟨hc.1, fun place side bytes heq => ?_⟩
  obtain ⟨hplace, hflag, hbytes⟩ := hc.2 place side bytes heq
  rw [h.mirrored_eq] at hflag hbytes
  rw [h.panes_eq] at hbytes
  exact ⟨hplace, h.flags hflag, hbytes⟩

theorem trans (h : Settled m input s t) (g : Settled m input t u) :
    Settled m input s u := by
  refine ⟨by rw [g.frame, h.frame], ?_⟩
  obtain ⟨first, hcalls, hstate, hfirst, hpaid⟩ := h.calls
  obtain ⟨more, gcalls, gstate, hmore, gpaid⟩ := g.calls
  refine ⟨first ++ more, by rw [gcalls, hcalls, List.append_assoc],
    by rw [gstate, hstate, Model.carryOut_append], fun c hc => ?_, fun side => ?_⟩
  · rcases List.mem_append.mp hc with hc | hc
    · exact hfirst c hc
    · exact h.settlingCall (hmore c hc)
  · have hside := hpaid side
    have gside := gpaid side
    rw [h.mirrored_eq, hstate] at gside
    rw [Model.succeeded_append]
    omega

end Settled

theorem settlingCall_saveCall {m : Model σ} {input : Place} {side : Side}
    {s : Session σ} (h : s.dirty.get side = true) :
    s.SettlingCall input (s.saveCall m input side) := by
  refine ⟨rfl, fun place modelSide bytes heq => ?_⟩
  simp only [saveCall, Call.save.injEq] at heq
  obtain ⟨rfl, rfl, rfl⟩ := heq
  rw [Side.oriented_oriented]
  exact ⟨rfl, h, normalises_pendingBytes m input side s⟩

theorem settlingCall_event {input : Place} {s : Session σ} {l : Listener}
    {e : Event} : s.SettlingCall input (.event l e) :=
  ⟨rfl, fun _ _ _ h => nomatch h⟩

/-- A flush of a side has no bearing on whether the other one is pending. -/
theorem FlushedSide.pending_opposite {m : Model σ} (he : m.KeepsEditable) {input : Place}
    {side : Side} {s t : Session σ} {r : Except SaveError Unit}
    (ends : FlushedSide m input side s t r) :
    t.pending m input side.opposite = s.pending m input side.opposite := by
  cases ends with
  | skipped => rfl
  | refused => rfl
  | saved h state hsave =>
    have heditable := he hsave (side.opposite.oriented s.mirrored) input
    simp only [pending, view, Model.editable_oriented, Sided.get_set_opposite]
    rw [heditable]

theorem FlushedSide.settled {m : Model σ} {input : Place} {side : Side}
    {s t : Session σ} {r : Except SaveError Unit}
    (h : FlushedSide m input side s t r) : Settled m input s t := by
  cases h with
  | skipped => exact .refl m input s
  | saved hp state hsave =>
    have hdirty : s.dirty.get side = true := (Bool.and_eq_true_iff.mp hp).2
    have hevents : ∀ c ∈ s.flagCalls side false, c.isSave = false := by
      intro c hc
      obtain ⟨l, rfl⟩ := eq_event_of_mem_flagCalls hc
      rfl
    refine ⟨rfl, _, rfl, ?_, fun c hc => ?_, fun other => ?_⟩
    · have hquiet := m.carryOut_eq_self hevents state
      simp only [Model.carryOut, List.foldl_cons] at hquiet ⊢
      simp only [saveCall, Model.obey, hsave, hquiet]
    · rcases List.mem_cons.mp hc with rfl | hc
      · exact settlingCall_saveCall hdirty
      · obtain ⟨l, rfl⟩ := eq_event_of_mem_flagCalls hc
        exact settlingCall_event
    · simp only [saveCall, Model.succeeded, Model.accepts, Model.obey, hsave,
        m.succeeded_eq_zero _ hevents, Nat.add_zero]
      rcases Side.eq_or_eq_opposite other side with rfl | rfl
      · simp [hdirty]
      · simp [Side.ne_opposite]
  | refused hp e hsave =>
    have hdirty : s.dirty.get side = true := (Bool.and_eq_true_iff.mp hp).2
    refine ⟨rfl, _, rfl, ?_, fun c hc => ?_, fun other => ?_⟩
    · simp [Model.carryOut, saveCall, Model.obey, hsave]
    · simp only [List.mem_cons, List.not_mem_nil, or_false] at hc
      rcases hc with rfl | rfl
      · exact settlingCall_saveCall hdirty
      · exact ⟨rfl, fun _ _ _ h => nomatch h⟩
    · simp [saveCall, Model.succeeded, Model.accepts, hsave]

/-! ## Both sides -/

/-- The error of the left side, or else what became of the right one. -/
def firstError : Except SaveError Unit → Except SaveError Unit →
    Except SaveError Unit
  | .ok (), r => r
  | .error e, _ => .error e

theorem firstError_toOption (l r : Except SaveError Unit) :
    (firstError l r).toOption = l.toOption.bind fun _ => r.toOption := by
  cases l <;> rfl

/-- How a flush of both sides can end: both are tried, the left one first. -/
inductive FlushedSides (m : Model σ) (input : Place) (s : Session σ) :
    Session σ → Except SaveError Unit → Prop where
  | both {t u : Session σ} {l r : Except SaveError Unit}
      (left : FlushedSide m input .left s t l)
      (right : FlushedSide m input .right t u r) :
      FlushedSides m input s u (firstError l r)

theorem flushSides_ends (m : Model σ) (input : Place) (s : Session σ) :
    FlushedSides m input s (s.flushSides m input).1 (s.flushSides m input).2 := by
  have hboth := FlushedSides.both (flushSide_ends m input .left s)
    (flushSide_ends m input .right (s.flushSide m input .left).1)
  simp only [flushSides]
  cases h : (s.flushSide m input .left).2 with
  | ok _ => simpa only [h, firstError] using hboth
  | error e => simpa only [h, firstError] using hboth

/-- A flush of both sides goes well if both do. -/
theorem FlushedSides.of_ok {m : Model σ} {input : Place} {s t : Session σ}
    (h : FlushedSides m input s t (.ok ())) :
    ∃ u, FlushedSide m input .left s u (.ok ()) ∧
      FlushedSide m input .right u t (.ok ()) := by
  generalize hr : (Except.ok () : Except SaveError Unit) = r at h
  cases h with
  | @both u _ l r left right =>
    match l with
    | .error e => simp [firstError] at hr
    | .ok () =>
      obtain rfl : .ok () = r := hr
      exact ⟨u, left, right⟩

theorem FlushedSides.settled {m : Model σ} {input : Place} {s t : Session σ}
    {r : Except SaveError Unit} (h : FlushedSides m input s t r) :
    Settled m input s t := by
  cases h with
  | both left right => exact left.settled.trans right.settled

/-- If one side has no edits, a flush of both is one of the other. -/
theorem FlushedSides.alone {m : Model σ} {input : Place} {side : Side}
    {s t : Session σ} (ends : FlushedSides m input s t (.ok ()))
    (hother : s.dirty.get side.opposite = false) :
    FlushedSide m input side s t (.ok ()) := by
  obtain ⟨u, left, right⟩ := ends.of_ok
  cases side with
  | left =>
    have hclean : u.dirty.get .right = false := by
      rw [← Bool.not_eq_true]
      exact fun hd => by simp [Side.opposite, left.settled.flags hd] at hother
    cases right with
    | skipped => exact left
    | saved hpending => simp [pending, hclean] at hpending
  | right =>
    have hclean : s.dirty.get .left = false := hother
    cases left with
    | skipped => exact right
    | saved hpending => simp [pending, hclean] at hpending

/-! ## The question -/

/-- The calls that asking about pending edits makes. -/
def questionCalls (m : Model σ) (input : Place) (kind : PromptKind)
    (s : Session σ) : List Call :=
  match s.settings.viewer.savePolicy with
  | .silentFlush | .alwaysFlush => []
  | .confirm => [.prompt (s.question m input kind)]

/-- Who answers the next question. -/
def confirmerAfter (s : Session σ) : Confirmer :=
  match s.settings.viewer.savePolicy with
  | .silentFlush | .alwaysFlush => s.confirmer
  | .confirm => s.confirmer.next

theorem decision_eq (m : Model σ) (input : Place) (kind : PromptKind)
    (s : Session σ) :
    (s.decision m input kind).1 =
      { s with
        confirmer := s.confirmerAfter
        calls := s.calls ++ s.questionCalls m input kind } := by
  obtain ⟨settings, state, bound, dirty, threeWay, ancestorVisible,
    ancestorToggle, mirrored, copyEnabled, listeners, panes, registry,
    confirmer, calls⟩ := s
  cases hp : settings.viewer.savePolicy <;>
    simp [decision, confirmerAfter, questionCalls, hp, emit]

theorem prompt_of_mem_questionCalls {m : Model σ} {input : Place} {kind : PromptKind}
    {s : Session σ} {c : Call} (h : c ∈ s.questionCalls m input kind) :
    ∃ p, c = .prompt p := by
  unfold questionCalls at h
  split at h
  · simp at h
  · simp at h
  · exact ⟨_, List.mem_singleton.mp h⟩

theorem decision_settled (m : Model σ) (input : Place) (kind : PromptKind)
    (s : Session σ) : Settled m input s (s.decision m input kind).1 := by
  rw [decision_eq]
  have hquiet : ∀ c ∈ s.questionCalls m input kind, c.isSave = false := by
    intro c hc
    obtain ⟨p, rfl⟩ := prompt_of_mem_questionCalls hc
    rfl
  refine ⟨rfl, s.questionCalls m input kind, rfl,
    (Model.carryOut_eq_self hquiet s.state).symm, fun c hc => ?_, fun side => ?_⟩
  · obtain ⟨p, rfl⟩ := prompt_of_mem_questionCalls hc
    exact ⟨rfl, fun _ _ _ h => nomatch h⟩
  · simp [Model.succeeded_eq_zero _ hquiet]

theorem clearDirty_settled (m : Model σ) (input : Place) (s : Session σ) :
    Settled m input s s.clearDirty := by
  rw [clearDirty_eq]
  have hquiet : ∀ c ∈ s.clearCalls, c.isSave = false := by
    intro c hc
    obtain ⟨l, rfl⟩ := eq_event_of_mem_clearCalls hc
    rfl
  refine ⟨rfl, s.clearCalls, rfl,
    (Model.carryOut_eq_self hquiet s.state).symm, fun c hc => ?_, fun side => ?_⟩
  · obtain ⟨l, rfl⟩ := eq_event_of_mem_clearCalls hc
    exact settlingCall_event
  · have hclear : Sided.get ⟨false, false⟩ side = false := by cases side <;> rfl
    simp [Model.succeeded_eq_zero _ hquiet, hclear]

/-! ## Pending edits -/

theorem isDirty_eq_false_iff {s : Session σ} :
    s.isDirty = false ↔ s.dirty = ⟨false, false⟩ := by
  rw [isDirty, Bool.or_eq_false_iff, Sided.ext_iff]

/-- How dealing with the pending edits of an input can end. -/
inductive Resolved (m : Model σ) (input : Place) (kind : PromptKind)
    (s : Session σ) : Session σ → Except SaveError Resolution → Prop where
  | clean (h : s.isDirty = false) : Resolved m input kind s s (.ok .clean)
  | saved (h : s.isDirty = true)
      (answer : (s.decision m input kind).2 = .save) {t : Session σ}
      (flushed : FlushedSides m input (s.decision m input kind).1 t (.ok ())) :
      Resolved m input kind s t.clearDirty (.ok .saved)
  | failed (h : s.isDirty = true)
      (answer : (s.decision m input kind).2 = .save) {t : Session σ}
      {e : SaveError}
      (flushed : FlushedSides m input (s.decision m input kind).1 t (.error e)) :
      Resolved m input kind s t (.error e)
  | discarded (h : s.isDirty = true)
      (answer : (s.decision m input kind).2 = .discard) :
      Resolved m input kind s (s.decision m input kind).1.clearDirty
        (.ok .discarded)
  | cancelled (h : s.isDirty = true)
      (answer : (s.decision m input kind).2 = .cancel) :
      Resolved m input kind s (s.decision m input kind).1 (.ok .cancelled)

theorem resolve_ends (m : Model σ) (input : Place) (kind : PromptKind)
    (s : Session σ) :
    Resolved m input kind s (s.resolve m input kind).1
      (s.resolve m input kind).2 := by
  unfold resolve
  cases h : s.isDirty with
  | false => exact .clean h
  | true =>
    rcases hd : s.decision m input kind with ⟨t, answer⟩
    have ht : (s.decision m input kind).1 = t := by rw [hd]
    have ha : (s.decision m input kind).2 = answer := by rw [hd]
    cases answer with
    | save =>
      have hends := flushSides_ends m input t
      rcases hf : t.flushSides m input with ⟨u, result⟩
      rw [hf] at hends
      rw [← ht] at hends
      cases result with
      | ok _ => simpa [hf] using Resolved.saved h ha hends
      | error e => simpa [hf] using Resolved.failed h ha hends
    | discard => simpa [ht] using Resolved.discarded h ha
    | cancel => simpa [ht] using Resolved.cancelled h ha

theorem Resolved.settled {m : Model σ} {input : Place} {kind : PromptKind}
    {s t : Session σ} {r : Except SaveError Resolution}
    (h : Resolved m input kind s t r) : Settled m input s t := by
  have hasked := decision_settled m input kind s
  cases h with
  | clean => exact .refl m input s
  | saved _ _ flushed =>
    exact (hasked.trans flushed.settled).trans (clearDirty_settled m input _)
  | failed _ _ flushed => exact hasked.trans flushed.settled
  | discarded => exact hasked.trans (clearDirty_settled m input _)
  | cancelled => exact hasked

/-- When edits are not left pending, both flags are false. -/
theorem Resolved.dirty_eq {m : Model σ} {input : Place} {kind : PromptKind}
    {s t : Session σ} {r : Resolution} (h : Resolved m input kind s t (.ok r))
    (hr : r ≠ .cancelled) : t.dirty = ⟨false, false⟩ := by
  cases h with
  | clean hclean => exact isDirty_eq_false_iff.mp hclean
  | saved => rw [clearDirty_eq]
  | discarded => rw [clearDirty_eq]
  | cancelled => exact absurd rfl hr

end Session

end Reconcile
