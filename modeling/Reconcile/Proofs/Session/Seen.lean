/-
Reconcile.Proofs.Session.Seen — what an operation does to what is seen.

`Stepped` has a case for every ending of every operation. As far as the bound
input, the turn of the view, the flags and the panes go, there are fewer:
they stay, a side is flagged or written, or the panes are filled anew
(`Seen`, `step_seen`). From these cases follows where each of the three comes
from:

* `input_step` — an input is bound because it was, or because the operation
  was to bind it;
* `dirty_step` — a flag that is set was set before, or by the operation, and
  the bound input and the view are still the same;
* `panes_step` — a pane shows what it did, under the same input and in the
  same view, or was filled by the operation.
-/
import Reconcile.Proofs.Session.Steps

namespace Reconcile.Session

variable {σ : Type} {m : Model σ}

/-! ## Five cases -/

/-- What an operation does to the bound input, the flags and the panes. -/
inductive Seen (m : Model σ) (s : Session σ) : Operation σ → Session σ → Prop where
  /-- They stay, but for flags that are cleared. -/
  | kept {op : Operation σ} {u : Session σ} (input : u.input = s.input)
      (mirrored : u.mirrored = s.mirrored) (panes : u.panes = s.panes)
      (flags : NoNewFlag s u) : Seen m s op u
  | flagged (side : Side) (value : Bool) :
      Seen m s (.setDirty side value) (s.setDirty side value)
  | edited (side : Side) (bytes : ByteArray) :
      Seen m s (.applyEdit side bytes) (s.applyEdit side bytes)
  | copied (d : Direction) (h : s.currentEditable m d.target = true) :
      Seen m s (.copy d)
        (s.applyEdit d.target ((s.panes.side d.source).getD .empty))
  /-- The operation ends with a refresh. If a flag is set by then although
  something is bound, the view has been the same all along. -/
  | fresh {op : Operation σ} {t : Session σ} (log : s.calls <+: t.calls)
      (input : t.input = s.input ∨ op = .bind t.input)
      (flags : ∀ side, t.dirty.get side = true → t.input = none ∨
        (t.input = s.input ∧ t.mirrored = s.mirrored ∧
          s.dirty.get side = true)) : Seen m s op (t.refresh m)
  | disposed : Seen m s .dispose (s.dispose m)

theorem Dealt.seen {s t : Session σ} (h : Dealt m s t) {op : Operation σ} :
    Seen m s op t := by
  have hflags : NoNewFlag s t := fun side hd => h.dirty_of_dirty hd
  rw [h.frame] at hflags ⊢
  exact .kept rfl rfl rfl hflags

theorem Switching.seen {next : Session σ → Session σ} {s u : Session σ}
    {r : Except SaveError SwitchOutcome} (ends : Switching m next s u r)
    {op : Operation σ}
    (hnext : ∀ t done, ResolvedBound m .inputSwitch s t (.ok done) →
      done ≠ .cancelled → Seen m s op (next t)) : Seen m s op u := by
  cases ends with
  | failed resolved => exact resolved.dealt.seen
  | cancelled resolved => exact resolved.dealt.seen
  | switched resolved hr => exact hnext _ _ resolved hr

theorem ChangedOutside.seen {s u : Session σ} {r : Except SaveError Unit}
    (ends : ChangedOutside m s u r) {op : Operation σ} : Seen m s op u := by
  cases ends with
  | unbound => exact Dealt.seen (.refl m s)
  | saving => exact Dealt.seen (.refl m s)
  | failed h _ resolved => exact Dealt.seen (.inr ⟨_, h, resolved.settled⟩)
  | dropped h _ resolved =>
    have hdealt : Dealt m s _ := .inr ⟨_, h, resolved.settled⟩
    refine .fresh (hdealt.calls_prefix.trans ?_) (.inl ?_) fun side hd => ?_
    · simp [clearDirty_eq]
    · rw [clearDirty_eq, hdealt.frame]
    · rw [clearDirty_eq] at hd
      cases side <;> simp [Sided.get] at hd
  | shown h _ resolved hr =>
    have hdealt : Dealt m s _ := .inr ⟨_, h, resolved.settled⟩
    refine .fresh hdealt.calls_prefix (.inl ?_) fun side hd => ?_
    · rw [hdealt.frame]
    · rw [resolved.dirty_eq hr] at hd
      cases side <;> simp [Sided.get] at hd

theorem step_seen (m : Model σ) (s : Session σ) (op : Operation σ) :
    Seen m s op (s.step m op).1 := by
  have hends := step_ends m s op
  generalize (s.step m op).1 = u, (s.step m op).2 = reply at hends ⊢
  cases hends with
  | aside h =>
    rw [h.frame]
    exact .kept rfl rfl rfl fun _ hd => hd
  | flagged side value => exact .flagged side value
  | edited side bytes => exact .edited side bytes
  | copied d h => exact .copied d h
  | flushed h ends => exact Dealt.seen (.inr ⟨_, h, ends.settled⟩)
  | flushedAll h ends => exact Dealt.seen (.inr ⟨_, h, ends.settled⟩)
  | refreshed =>
    exact .fresh List.prefix_rfl (.inl rfl) fun _ hd => .inr ⟨rfl, rfl, hd⟩
  | bound _ ends =>
    refine ends.seen fun t done resolved _ => ?_
    refine .fresh (resolved.dealt.calls_prefix.trans ?_) (.inr ?_) fun side hd => ?_
    · simp [acquire_eq, clearDirty_eq, release_eq]
    · rw [acquire_eq]
    · rw [acquire_eq, clearDirty_eq] at hd
      cases side <;> simp [Sided.get] at hd
  | turned _ ends =>
    refine ends.seen fun t done resolved hr => ?_
    refine .fresh resolved.dealt.calls_prefix (.inl ?_) fun side hd => ?_
    · rw [resolved.dealt.frame]
    · cases hin : t.input with
      | none => exact .inl rfl
      | some input =>
        simp only [resolved.dirty_eq hr hin] at hd
        cases side <;> simp [Sided.get] at hd
  | changed _ ends => exact ends.seen
  | disposed => exact .disposed
  | elsewhere => exact .kept rfl rfl rfl fun _ hd => hd

/-! ## Where what is seen comes from -/

/-- An input is bound, in a view that is turned as `flipped` says. -/
def Shows (input : Place) (flipped : Bool) (s : Session σ) : Prop :=
  s.input = some input ∧ s.mirrored = flipped

/-- After an operation an input is bound because it was before, or because
the operation was to bind it. -/
theorem input_step {s : Session σ} {op : Operation σ} {input : Place}
    (hin : (s.step m op).1.input = some input) :
    s.input = some input ∨ op = .bind (some input) := by
  have hseen := step_seen m s op
  generalize (s.step m op).1 = u at hseen hin
  cases hseen with
  | kept hinput => exact .inl (hinput.symm.trans hin)
  | flagged =>
    rw [setDirty_eq] at hin
    exact .inl hin
  | edited =>
    rw [applyEdit_eq] at hin
    exact .inl hin
  | copied =>
    rw [applyEdit_eq] at hin
    exact .inl hin
  | fresh _ hinput =>
    rw [refresh_eq] at hin
    rcases hinput with hbefore | rfl
    · exact .inl (hbefore.symm.trans hin)
    · exact .inr (congrArg Operation.bind hin)
  | disposed => simp [dispose] at hin

/-- Operations that flag a side of the view. -/
inductive Flags (m : Model σ) (side : Side) (s : Session σ) : Operation σ → Prop where
  | set : Flags m side s (.setDirty side true)
  | edit (bytes : ByteArray) : Flags m side s (.applyEdit side bytes)
  | copy (d : Direction) (target : d.target = side)
      (editable : s.currentEditable m side = true) : Flags m side s (.copy d)

/-- An operation after which a side of a bound input is flagged has neither
changed the bound input nor turned the view, and either found the flag set
or set it. -/
theorem dirty_step {s : Session σ} {op : Operation σ} {input : Place}
    {side : Side} (hin : (s.step m op).1.input = some input)
    (hd : (s.step m op).1.dirty.get side = true) :
    s.Shows input (s.step m op).1.mirrored ∧
      (s.dirty.get side = true ∨ Flags m side s op) := by
  have hset : ∀ (other : Side) (value : Bool),
      (s.dirty.set other value).get side = true →
        s.dirty.get side = true ∨ other = side ∧ value = true := by
    intro other value h
    rcases Side.eq_or_eq_opposite side other with rfl | rfl
    · exact .inr ⟨rfl, by simpa using h⟩
    · exact .inl (by simpa using h)
  have hseen := step_seen m s op
  generalize (s.step m op).1 = u at hseen hin hd ⊢
  cases hseen with
  | kept hinput hmirrored _ hflags =>
    exact ⟨⟨hinput.symm.trans hin, hmirrored.symm⟩, .inl (hflags side hd)⟩
  | flagged other value =>
    rw [setDirty_eq] at hin hd ⊢
    refine ⟨⟨hin, rfl⟩, ?_⟩
    rcases hset other value hd with h | ⟨rfl, rfl⟩
    · exact .inl h
    · exact .inr .set
  | edited other bytes =>
    rw [applyEdit_eq] at hin hd ⊢
    refine ⟨⟨hin, rfl⟩, ?_⟩
    rcases hset other true hd with h | ⟨rfl, -⟩
    · exact .inl h
    · exact .inr (.edit bytes)
  | copied d editable =>
    rw [applyEdit_eq] at hin hd ⊢
    refine ⟨⟨hin, rfl⟩, ?_⟩
    rcases hset d.target true hd with h | ⟨rfl, -⟩
    · exact .inl h
    · exact .inr (.copy d rfl editable)
  | fresh _ _ hflags =>
    rw [refresh_eq] at hin hd ⊢
    rcases hflags side hd with hnone | ⟨hinput, hmirrored, hbefore⟩
    · simp [hnone] at hin
    · exact ⟨⟨hinput.symm.trans hin, hmirrored.symm⟩, .inl hbefore⟩
  | disposed => simp [dispose] at hin

/-- Operations that put something into the pane of a side while an input is
bound: an edit, a copy from the other side, or a refresh from the input. -/
inductive Puts (m : Model σ) (input : Place) (side : Side)
    (shown : Option ByteArray) (s : Session σ) : Operation σ → Prop where
  | edit (bound : s.input = some input) (bytes : ByteArray)
      (hshown : shown = some bytes) :
      Puts m input side shown s (.applyEdit side bytes)
  | copy (bound : s.input = some input) (d : Direction) (target : d.target = side)
      (editable : s.currentEditable m side = true)
      (hshown : shown = some ((s.panes.side d.source).getD .empty)) :
      Puts m input side shown s (.copy d)
  /-- The operation ends with a refresh from the input. -/
  | refresh {op : Operation σ} (panes : Paned (Option ByteArray))
      (bound : (s.step m op).1.input = some input)
      (content : .content panes ∈ s.callsOf m op)
      (hpane : panes.side side = shown)
      (hshown : shown = m.content (s.step m op).1.state
        (side.oriented (s.step m op).1.mirrored).pane input) :
      Puts m input side shown s op

theorem puts_of_refresh {s t : Session σ} {op : Operation σ}
    (h : (s.step m op).1 = t.refresh m) (hlog : s.calls <+: t.calls)
    {input : Place} (hin : t.input = some input) (side : Side) :
    Puts m input side ((s.step m op).1.panes.side side) s op := by
  obtain ⟨more, hmore⟩ := hlog
  rw [refresh_eq] at h
  have hcalls : s.callsOf m op = more ++ t.refreshCalls m :=
    callsOf_eq (by simp [h, ← hmore])
  have hpanes : (s.step m op).1.panes = t.currentPanes m := by rw [h]
  refine .refresh (t.currentPanes m) ?_ ?_ ?_ ?_
  · rw [h]
    exact hin
  · simp [hcalls, refreshCalls]
  · rw [hpanes]
  · rw [hpanes, h, side_currentPanes hin]

/-- After an operation that leaves an input bound, the pane of a side is what
it was, in the same view of the same input, or has just been filled. -/
theorem panes_step {s : Session σ} {op : Operation σ} {input : Place}
    (hin : (s.step m op).1.input = some input) (side : Side) :
    (s.Shows input (s.step m op).1.mirrored ∧
      (s.step m op).1.panes.side side = s.panes.side side) ∨
    Puts m input side ((s.step m op).1.panes.side side) s op := by
  have hseen := step_seen m s op
  generalize hu : (s.step m op).1 = u at hseen hin ⊢
  cases hseen with
  | kept hinput hmirrored hpanes =>
    exact .inl ⟨⟨hinput.symm.trans hin, hmirrored.symm⟩, by rw [hpanes]⟩
  | flagged other value =>
    rw [setDirty_eq] at hin ⊢
    exact .inl ⟨⟨hin, rfl⟩, rfl⟩
  | edited other bytes =>
    rw [applyEdit_eq] at hin ⊢
    have hbound : s.input = some input := hin
    rcases Side.eq_or_eq_opposite side other with rfl | rfl
    · exact .inr (.edit hbound bytes (by simp))
    · exact .inl ⟨⟨hin, rfl⟩, by simp⟩
  | copied d editable =>
    rw [applyEdit_eq] at hin ⊢
    have hbound : s.input = some input := hin
    rcases Side.eq_or_eq_opposite side d.target with rfl | rfl
    · exact .inr (.copy hbound d rfl editable (by simp))
    · exact .inl ⟨⟨hin, rfl⟩, by simp⟩
  | @fresh _ t hlog =>
    have htin : t.input = some input := by rwa [refresh_eq] at hin
    exact .inr (hu ▸ puts_of_refresh hu hlog htin side)
  | disposed => simp [dispose] at hin

end Reconcile.Session
