/-
Reconcile.Proofs.Session.Discarded — discarded edits leave no trace.

Edits write to the panes and the flags of a session and to nothing else
(`edited_run`). An operation that replaces what is shown first drops them, if
that is what it is told, and then reads panes and tools anew
(`Replaces.drops`). What it reads them from is not what was edited
(`forgets_rebind`, `forgets_turn`, `forgets_refresh`), so the session comes out
as if nothing had been edited: `discarded_edits_leave_no_trace`.
-/
import Reconcile.Proofs.Session.SavedOnce

namespace Reconcile

/-- What a user does to the panes, and a host to the flags. -/
inductive Operation.Edits {σ : Type} : Operation σ → Prop where
  | applyEdit (side : Side) (bytes : ByteArray) : Edits (.applyEdit side bytes)
  | copy (d : Direction) : Edits (.copy d)
  | setDirty (side : Side) (value : Bool) : Edits (.setDirty side value)

/-- The answers for which pending edits are dropped. A change that comes from
outside cannot be called off, so there to cancel drops them as well. -/
def Decision.Drops (kind : PromptKind) (answer : Decision) : Prop :=
  answer = .discard ∨ kind = .externalChange ∧ answer = .cancel

namespace Session

variable {σ : Type} {m : Model σ} {s t u : Session σ} {input : Place}
  {kind : PromptKind}

/-! ## What edits touch -/

/-- `t` is `s` with other panes and flags, after other calls and questions. -/
def Reedited (s t : Session σ) : Prop :=
  t = { s with
    dirty := t.dirty
    panes := t.panes
    confirmer := t.confirmer
    calls := t.calls }

theorem Reedited.refl (s : Session σ) : Reedited s s := rfl

theorem Reedited.trans (h : Reedited s t) (g : Reedited t u) : Reedited s u := by
  rw [Reedited, g, h]

theorem Reedited.symm (h : Reedited s t) : Reedited t s := by
  rw [Reedited, h]

/-- Edits have no bearing on what an operation would replace. -/
theorem Reedited.replaces (h : Reedited s t) {op : Operation σ}
    (hop : s.Replaces input kind op) : t.Replaces input kind op := by
  have hmirrored : t.mirrored = s.mirrored := by rw [h]
  have hregistry : t.registry = s.registry := by rw [h]
  cases hop with
  | bind other h => exact .bind other h
  | setMirrored value h => exact .setMirrored value (by rwa [hmirrored])
  | externalChange idle => exact .externalChange (by rwa [hregistry])
  | inputChanged idle => exact .inputChanged (by rwa [hregistry])

theorem reedited_setDirty (side : Side) (value : Bool) (s : Session σ) :
    Reedited s (s.setDirty side value) := by
  rw [setDirty_eq]
  rfl

theorem reedited_clearDirty (s : Session σ) : Reedited s s.clearDirty := by
  rw [clearDirty_eq]
  rfl

theorem reedited_applyEdit (side : Side) (bytes : ByteArray) (s : Session σ) :
    Reedited s (s.applyEdit side bytes) := by
  rw [applyEdit_eq]
  rfl

theorem reedited_decision (m : Model σ) (input : Place) (kind : PromptKind)
    (s : Session σ) : Reedited s (s.decision m input kind).1 := by
  rw [decision_eq]
  rfl

/-- An edit touches panes and flags alone, and saves nothing. -/
theorem edited_step {op : Operation σ} (hop : op.Edits) (s : Session σ) :
    Reedited s (s.step m op).1 ∧ Follows s (s.step m op).1 := by
  cases hop with
  | applyEdit side bytes =>
    exact ⟨reedited_applyEdit side bytes s, follows_applyEdit side bytes s⟩
  | setDirty side value =>
    exact ⟨reedited_setDirty side value s, follows_setDirty side value s⟩
  | copy d =>
    simp only [step, copy]
    cases s.input with
    | none => exact ⟨.refl s, .refl s⟩
    | some input =>
      simp only
      split
      · exact ⟨reedited_applyEdit _ _ s, follows_applyEdit _ _ s⟩
      · exact ⟨.refl s, .refl s⟩

theorem edited_run {ops : List (Operation σ)} (hops : ∀ op ∈ ops, op.Edits)
    (s : Session σ) : Reedited s (s.run m ops) ∧ Follows s (s.run m ops) := by
  refine run_induction (P := fun t => Reedited s t ∧ Follows s t)
    ⟨.refl s, .refl s⟩ fun t op hop ⟨hframe, hfollows⟩ => ?_
  obtain ⟨hstep, hstepFollows⟩ := edited_step (hops op hop) t
  exact ⟨hframe.trans hstep, hfollows.trans hstepFollows⟩

/-! ## What is read anew -/

/-- `t` is `s` after other calls and questions. -/
def SameButAsked (s t : Session σ) : Prop :=
  t = { s with confirmer := t.confirmer, calls := t.calls }

theorem forgets_refresh (m : Model σ) (h : Reedited s t)
    (hdirty : t.dirty = s.dirty) : SameButAsked (s.refresh m) (t.refresh m) := by
  rw [SameButAsked, refresh_eq, refresh_eq, h, hdirty]
  rfl

theorem forgets_rebind (m : Model σ) (input : Option Place) (h : Reedited s t) :
    SameButAsked (s.rebind m input) (t.rebind m input) := by
  rw [SameButAsked, rebind_eq, rebind_eq, h]
  rfl

theorem forgets_turn (m : Model σ) (value : Bool) (h : Reedited s t)
    (hdirty : t.dirty = s.dirty) : SameButAsked (s.turn m value) (t.turn m value) := by
  rw [SameButAsked, turn, turn, refresh_eq, refresh_eq, h, hdirty]
  rfl

/-! ## How pending edits are dropped -/

/-- What an operation that replaces what is shown does once no edits are
pending. -/
def renew (m : Model σ) : Operation σ → Session σ → Session σ
  | .bind input => rebind m input
  | .setMirrored value => turn m value
  | _ => refresh m

/-- What such an operation answers if it is not called off. -/
def renewal : Operation σ → Reply
  | .bind _ | .setMirrored _ => .outcome .switched
  | _ => .done

/-- Edits that are dealt with by dropping them are gone, unless that is left
to the operation. -/
theorem Resolved.drops {r : Except SaveError Resolution}
    (ends : Resolved m input kind s t r)
    (hdrop : s.isDirty = true → (s.decision m input kind).2.Drops kind) :
    Reedited s t ∧ Follows s t ∧
      ((∃ done, r = .ok done ∧ done ≠ .cancelled ∧ t.dirty = ⟨false, false⟩) ∨
        kind = .externalChange ∧ r = .ok .cancelled) := by
  have hasked := reedited_decision m input kind s
  have hfollows := follows_decision m input kind s
  cases ends with
  | clean hclean =>
    exact ⟨.refl s, .refl s,
      .inl ⟨.clean, rfl, by decide, isDirty_eq_false_iff.mp hclean⟩⟩
  | saved h answer => exact absurd (hdrop h) (by simp [Decision.Drops, answer])
  | failed h answer => exact absurd (hdrop h) (by simp [Decision.Drops, answer])
  | discarded =>
    refine ⟨hasked.trans (reedited_clearDirty _),
      hfollows.trans (follows_clearDirty _), .inl ⟨.discarded, rfl, by decide, ?_⟩⟩
    rw [clearDirty_eq]
  | cancelled h answer =>
    have hkind := hdrop h
    simp only [Decision.Drops, answer] at hkind
    refine ⟨hasked, hfollows, .inr ⟨?_, rfl⟩⟩
    simpa using hkind

theorem Switching.drops {next : Session σ → Session σ}
    {r : Except SaveError SwitchOutcome} (ends : Switching m next s u r)
    (hin : s.input = some input)
    (hdrop : s.isDirty = true →
      (s.decision m input .inputSwitch).2.Drops .inputSwitch) :
    ∃ t, Reedited s t ∧ Follows s t ∧ t.dirty = ⟨false, false⟩ ∧ u = next t ∧
      r = .ok .switched := by
  have hresolved : ∀ {t : Session σ} {r : Except SaveError Resolution},
      ResolvedBound m .inputSwitch s t r → Reedited s t ∧ Follows s t ∧
        ∃ done, r = .ok done ∧ done ≠ .cancelled ∧ t.dirty = ⟨false, false⟩ := by
    intro t r h
    cases h with
    | unbound h => simp [hin] at h
    | bound h resolved =>
      obtain rfl := Option.some.inj (hin.symm.trans h)
      obtain ⟨hframe, hfollows, hdone | ⟨hkind, -⟩⟩ := resolved.drops hdrop
      · exact ⟨hframe, hfollows, hdone⟩
      · exact absurd hkind (by decide)
  cases ends with
  | failed resolved =>
    obtain ⟨-, -, done, hdone, -⟩ := hresolved resolved
    simp at hdone
  | cancelled resolved =>
    obtain ⟨-, -, done, hdone, hne, -⟩ := hresolved resolved
    exact absurd (Except.ok.inj hdone).symm hne
  | switched resolved _ =>
    obtain ⟨hframe, hfollows, -, -, -, hdirty⟩ := hresolved resolved
    exact ⟨_, hframe, hfollows, hdirty, rfl, rfl⟩

theorem ChangedOutside.drops {r : Except SaveError Unit}
    (ends : ChangedOutside m s u r) (hin : s.input = some input)
    (hidle : s.registry.isSaving = false)
    (hdrop : s.isDirty = true →
      (s.decision m input .externalChange).2.Drops .externalChange) :
    ∃ t, Reedited s t ∧ Follows s t ∧ t.dirty = ⟨false, false⟩ ∧
      u = t.refresh m ∧ r = .ok () := by
  cases ends with
  | unbound h => simp [hin] at h
  | saving h => simp [hidle] at h
  | failed h _ resolved =>
    obtain rfl := Option.some.inj (hin.symm.trans h)
    obtain ⟨-, -, ⟨done, hdone, -⟩ | ⟨-, hdone⟩⟩ := resolved.drops hdrop <;>
      simp at hdone
  | dropped h _ resolved =>
    obtain rfl := Option.some.inj (hin.symm.trans h)
    obtain ⟨hframe, hfollows, -⟩ := resolved.drops hdrop
    refine ⟨_, hframe.trans (reedited_clearDirty _),
      hfollows.trans (follows_clearDirty _), ?_, rfl, rfl⟩
    rw [clearDirty_eq]
  | shown h _ resolved hr =>
    obtain rfl := Option.some.inj (hin.symm.trans h)
    obtain ⟨hframe, hfollows, -⟩ := resolved.drops hdrop
    exact ⟨_, hframe, hfollows, resolved.dirty_eq hr, rfl, rfl⟩

/-- **An operation that replaces what is shown**, and drops pending edits if
there are any, goes through: it renews the session as it is without flags. -/
theorem Replaces.drops {op : Operation σ} (h : s.Replaces input kind op)
    (hin : s.input = some input)
    (hdrop : s.isDirty = true → (s.decision m input kind).2.Drops kind) :
    ∃ t, Reedited s t ∧ Follows s t ∧ t.dirty = ⟨false, false⟩ ∧
      s.step m op = (renew m op t, renewal op) := by
  cases h with
  | bind other h =>
    have hne : s.input ≠ other := fun heq => h (heq.symm.trans hin)
    obtain ⟨t, hframe, hfollows, hdirty, hnext, hreply⟩ :=
      (bind_ends hne).drops hin hdrop
    exact ⟨t, hframe, hfollows, hdirty, Prod.ext hnext (congrArg Reply.ofOutcome hreply)⟩
  | setMirrored value h =>
    obtain ⟨t, hframe, hfollows, hdirty, hnext, hreply⟩ :=
      (setMirrored_ends h.symm).drops hin hdrop
    exact ⟨t, hframe, hfollows, hdirty, Prod.ext hnext (congrArg Reply.ofOutcome hreply)⟩
  | externalChange idle =>
    obtain ⟨t, hframe, hfollows, hdirty, hnext, hreply⟩ :=
      (externalChange_ends m s).drops hin idle hdrop
    exact ⟨t, hframe, hfollows, hdirty, Prod.ext hnext (congrArg Reply.ofUnit hreply)⟩
  | inputChanged idle =>
    obtain ⟨t, hframe, hfollows, hdirty, hnext, hreply⟩ :=
      (externalChange_ends m s).drops hin idle hdrop
    have hchange : s.inputChanged m input = s.externalChange m := if_pos hin
    refine ⟨t, hframe, hfollows, hdirty, ?_⟩
    simp only [step, hchange]
    exact Prod.ext hnext (congrArg Reply.ofUnit hreply)

theorem forgets_renew (m : Model σ) (op : Operation σ) (h : Reedited s t)
    (hdirty : t.dirty = s.dirty) :
    SameButAsked (renew m op s) (renew m op t) := by
  cases op with
  | bind input => exact forgets_rebind m input h
  | setMirrored value => exact forgets_turn m value h hdirty
  | _ => exact forgets_refresh m h hdirty

theorem follows_renew (m : Model σ) (op : Operation σ) (s : Session σ) :
    Follows s (renew m op s) := by
  cases op with
  | bind input => exact follows_rebind m input s
  | setMirrored value => exact follows_turn m value s
  | _ => exact follows_refresh m s

/-- **Discarded edits leave no trace.** Take a session with an input and
without pending edits, and any edits of it; then let an operation replace what
is shown, and drop the edits if any are pending. The session is as if the
edits had not been made, but for the calls that were made on the way and for
who answers the next question: what is bound, shown and stored is the same, on
every input. The operation answers the same, and nothing is saved. -/
theorem discarded_edits_leave_no_trace (m : Model σ) {s : Session σ}
    {input : Place} (hin : s.input = some input)
    (hclean : s.dirty = ⟨false, false⟩) {edits : List (Operation σ)}
    (hedits : ∀ op ∈ edits, op.Edits) {kind : PromptKind} {op : Operation σ}
    (hop : s.Replaces input kind op)
    (hdrop : (s.run m edits).isDirty = true →
      ((s.run m edits).decision m input kind).2.Drops kind) :
    (∃ confirmer calls, s.run m (edits ++ [op])
      = { s.run m [op] with confirmer := confirmer, calls := calls }) ∧
    ((s.run m edits).step m op).2 = (s.step m op).2 ∧
    (s.run m (edits ++ [op])).saves = s.saves ∧
    (s.run m [op]).saves = s.saves := by
  obtain ⟨hedited, hquiet⟩ := edited_run (m := m) hedits s
  have hnot : s.isDirty = false := isDirty_eq_false_iff.mpr hclean
  have hbound : (s.run m edits).input = some input := by
    rw [hedited]
    exact hin
  -- With and without the edits the operation renews a session without flags.
  obtain ⟨t, hframe, hfollows, hdirty, hstep⟩ :=
    (hedited.replaces hop).drops hbound hdrop
  obtain ⟨u, huframe, hufollows, hudirty, hustep⟩ :=
    hop.drops (m := m) hin (by simp [hnot])
  have hsame := forgets_renew m op (huframe.symm.trans (hedited.trans hframe))
    (hdirty.trans hudirty.symm)
  have hrun : s.run m (edits ++ [op]) = renew m op t := by rw [run_snoc, hstep]
  have hrunAlone : s.run m [op] = renew m op u := by rw [run_cons, run_nil, hustep]
  rw [hrun, hrunAlone, hstep, hustep]
  refine ⟨⟨_, _, hsame⟩, rfl, ?_, ?_⟩
  · exact ((hquiet.trans hfollows).trans (follows_renew m op t)).saves_eq
  · exact (hufollows.trans (follows_renew m op u)).saves_eq

/-- A document of which the left side may not be edited. It is edited all the
same and copied to the right; then the view is turned, and the edits are
discarded. -/
theorem discarded_copy_of_read_only_side :
    let m := Model.shelf Document
    let shelf : Shelf Document :=
      ⟨[{ contents := ⟨none, some ⟨#[97]⟩, none⟩ }], ⟨false, true⟩⟩
    let edits : List (Operation (Shelf Document)) :=
      [.applyEdit .left ⟨#[98]⟩, .copy .leftToRight, .setDirty .left false]
    ∃ start s, start? {} shelf (.fixed .discard) = .ok start ∧
      s = start.run m [.bind (some 0)] ∧
      (s.run m edits).panes.right = some ⟨#[98]⟩ ∧
      (s.run m edits).dirty = ⟨false, true⟩ ∧
      ((s.run m edits).step m (.setMirrored true)).2 = .outcome .switched ∧
      (s.run m (edits ++ [.setMirrored true])).panes
        = (s.run m [.setMirrored true]).panes ∧
      (s.run m (edits ++ [.setMirrored true])).saves = s.saves := by
  intro m shelf edits
  obtain ⟨start, hstart, hin, hclean, hpane, hdirty, hanswer, hmirrored, hreply⟩ :
      ∃ start, start? {} shelf (.fixed .discard) = .ok start ∧
      (start.run m [.bind (some 0)]).input = some 0 ∧
      (start.run m [.bind (some 0)]).dirty = ⟨false, false⟩ ∧
      ((start.run m [.bind (some 0)]).run m edits).panes.right = some ⟨#[98]⟩ ∧
      ((start.run m [.bind (some 0)]).run m edits).dirty = ⟨false, true⟩ ∧
      (((start.run m [.bind (some 0)]).run m edits).decision m 0
        .inputSwitch).2 = .discard ∧
      (start.run m [.bind (some 0)]).mirrored = false ∧
      ((start.run m [.bind (some 0)]).step m (.setMirrored true)).2
        = .outcome .switched :=
    ⟨_, rfl, by decide +kernel⟩
  have hedits : ∀ op ∈ edits, op.Edits := by
    simp only [edits, List.mem_cons, List.not_mem_nil, or_false,
      forall_eq_or_imp, forall_eq]
    exact ⟨.applyEdit .left _, .copy .leftToRight, .setDirty .left false⟩
  have hop : (start.run m [.bind (some 0)]).Replaces 0 .inputSwitch
      (.setMirrored true) := by
    refine .setMirrored true ?_
    rw [hmirrored]
    decide
  obtain ⟨⟨confirmer, calls, hsame⟩, hsameReply, hsaves, -⟩ :=
    discarded_edits_leave_no_trace m hin hclean hedits hop fun _ => .inl hanswer
  refine ⟨start, _, hstart, rfl, hpane, hdirty, hsameReply.trans hreply, ?_, hsaves⟩
  rw [hsame]

end Session

end Reconcile
