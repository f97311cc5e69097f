/-
Reconcile.Proofs.Session.FailedSaves — a failed save leaves everything else
as it was.

An operation fails in one of two ways (`FailedStep`, `step_fails`): the one
save that it makes is refused, or it tries to save both sides and at least
one of the two saves is refused. In the first case nothing at all has
changed, so the save can be made again (`SideRefused`). In the second each
side comes out in one of three ways (`CameOut`), whatever became of the
other one: there was nothing to save and the side is as before, it is saved
and clean, or it is refused and pending (`SidesTried`).

`failed_save_leaves_the_rest` puts the two together, over every run.
-/
import Reconcile.Proofs.Session.SavedOnce

namespace Reconcile

/-- Whether a call tells the user that a save failed. -/
def Call.isNotice : Call → Bool
  | .notify .. => true
  | _ => false

namespace Session

variable {σ : Type} {m : Model σ} {known : σ → Place → Prop}

/-! ## How an operation fails -/

/-- How an operation can fail. A question may be asked before both sides are
tried; nothing else comes before that. -/
inductive FailedStep (m : Model σ) (s : Session σ) :
    Operation σ → Session σ → SaveError → Prop where
  | side {side : Side} {input : Place} {t : Session σ} {e : SaveError}
      (h : s.input = some input)
      (ends : FlushedSide m input side s t (.error e)) :
      FailedStep m s (.flush side) t e
  | sides {op : Operation σ} {input : Place} {asked : List Call}
      {confirmer : Confirmer} {t : Session σ} {e : SaveError}
      (hop : ∀ side, op ≠ .flush side) (h : s.input = some input)
      (hasked : ∀ c ∈ asked, ∃ p, c = .prompt p)
      (hconfirmer : confirmer = s.confirmer ∨ confirmer = s.confirmer.next)
      (ends : FlushedSides m input
        { s with confirmer, calls := s.calls ++ asked } t (.error e)) :
      FailedStep m s op t e

theorem confirmerAfter_cases (s : Session σ) :
    s.confirmerAfter = s.confirmer ∨ s.confirmerAfter = s.confirmer.next := by
  unfold confirmerAfter
  split
  · exact .inl rfl
  · exact .inl rfl
  · exact .inr rfl

theorem Resolved.failedStep {input : Place} {kind : PromptKind}
    {s t : Session σ} {e : SaveError}
    (ends : Resolved m input kind s t (.error e)) (h : s.input = some input)
    {op : Operation σ} (hop : ∀ side, op ≠ .flush side) :
    FailedStep m s op t e := by
  cases ends with
  | failed _ _ flushed =>
    rw [decision_eq] at flushed
    exact .sides hop h (fun c hc => prompt_of_mem_questionCalls hc)
      s.confirmerAfter_cases flushed

theorem Switching.failedStep {next : Session σ → Session σ} {s t : Session σ}
    {e : SaveError} (ends : Switching m next s t (.error e))
    {op : Operation σ} (hop : ∀ side, op ≠ .flush side) :
    FailedStep m s op t e := by
  cases ends with
  | failed resolved =>
    cases resolved with
    | bound h resolved => exact resolved.failedStep h hop

theorem ChangedOutside.failedStep {s t : Session σ} {e : SaveError}
    (ends : ChangedOutside m s t (.error e)) {op : Operation σ}
    (hop : ∀ side, op ≠ .flush side) : FailedStep m s op t e := by
  cases ends with
  | failed h _ resolved => exact resolved.failedStep h hop

/-- **An operation that fails** has tried to save, and one of the saves that
it made was refused. -/
theorem step_fails {s : Session σ} {op : Operation σ} {e : SaveError}
    (h : (s.step m op).2 = .failed e) : FailedStep m s op (s.step m op).1 e := by
  cases op with
  | bind input =>
    have hr : (s.bind m input).2 = .error e := Reply.error_of_ofOutcome h
    by_cases hin : s.input = input
    · rw [bind, if_pos hin] at hr
      simp at hr
    · have hends := bind_ends (m := m) hin
      rw [hr] at hends
      exact hends.failedStep (by simp)
  | setMirrored value =>
    have hr : (s.setMirrored m value).2 = .error e := Reply.error_of_ofOutcome h
    by_cases hv : s.mirrored = value
    · rw [setMirrored, if_pos hv] at hr
      simp at hr
    · have hends := setMirrored_ends (m := m) hv
      rw [hr] at hends
      exact hends.failedStep (by simp)
  | flush side =>
    have hr : (s.flush m side).2 = .error e := Reply.error_of_ofUnit h
    simp only [step, flush] at hr ⊢
    cases hin : s.input with
    | none => simp [hin] at hr
    | some input =>
      simp only [hin] at hr
      have hends := flushSide_ends m input side s
      rw [hr] at hends
      exact .side hin hends
  | flushAll =>
    have hr : (s.flushAll m).2 = .error e := Reply.error_of_ofUnit h
    simp only [step, flushAll] at hr ⊢
    cases hin : s.input with
    | none => simp [hin] at hr
    | some input =>
      simp only [hin] at hr
      have hends := flushSides_ends m input s
      rw [hr] at hends
      have hflushed : FlushedSides m input
          { s with confirmer := s.confirmer, calls := s.calls ++ [] }
          (s.flushSides m input).1 (.error e) := by
        simpa using hends
      exact .sides (by simp) hin (by simp) (.inl rfl) hflushed
  | externalChange =>
    have hr : (s.externalChange m).2 = .error e := Reply.error_of_ofUnit h
    have hends := externalChange_ends m s
    rw [hr] at hends
    exact hends.failedStep (by simp)
  | inputChanged input =>
    have hr : (s.inputChanged m input).2 = .error e := Reply.error_of_ofUnit h
    by_cases hin : s.input = some input
    · rw [inputChanged, if_pos hin] at hr
      have hends := externalChange_ends m s
      rw [hr] at hends
      have hfailed : FailedStep m s (.inputChanged input)
          (s.externalChange m).1 e := hends.failedStep (by simp)
      simpa [step, inputChanged, hin] using hfailed
    · simp [inputChanged, hin] at hr
  | copy d => simp [step] at h
  | setAncestorVisible value => simp [step] at h
  | setDirty | applyEdit | refresh | labelsChanged | setIgnoreAncestor
  | addListener | removeListener | dispose | beginSave | endSave | elsewhere =>
    simp [step] at h

/-! ## How a side comes out of it -/

/-- The stored content of the side of the model that a side of the view
shows. -/
def storedFor (m : Model σ) (input : Place) (side : Side) (flipped : Bool)
    (state : σ) : Option ByteArray :=
  m.content state (side.oriented flipped).pane input

/-- How a side of the view comes out of an operation that may try to save
it. The calls are those that the attempt makes to the model, which is in the
state `stored` by then, and the error is the one that it ends with. -/
inductive CameOut (m : Model σ) (input : Place) (side : Side) (stored : σ)
    (s u : Session σ) : List Call → Option SaveError → Prop where
  /-- There was nothing to save, or it may not be saved. -/
  | spared (flag : u.dirty.get side = s.dirty.get side)
      (content : storedFor m input side s.mirrored u.state
        = storedFor m input side s.mirrored s.state) :
      CameOut m input side stored s u [] none
  | saved (bytes : Option ByteArray)
      (accepted : ∃ after,
        m.save stored (side.oriented s.mirrored) input bytes = .ok after)
      (flag : u.dirty.get side = false)
      (content : storedFor m input side s.mirrored u.state = bytes) :
      CameOut m input side stored s u
        [.save input (side.oriented s.mirrored) bytes] none
  /-- The edits are still pending, and nothing is stored. -/
  | refused (bytes : Option ByteArray) (e : SaveError)
      (rejected : m.save stored (side.oriented s.mirrored) input bytes = .error e)
      (flag : u.dirty.get side = true)
      (content : storedFor m input side s.mirrored u.state
        = storedFor m input side s.mirrored s.state) :
      CameOut m input side stored s u
        [.save input (side.oriented s.mirrored) bytes] (some e)

/-- What happens to a side later, or has happened before, matters as far as
its flag and its content go. -/
theorem CameOut.congr {input : Place} {side : Side} {stored : σ}
    {s s' u u' : Session σ} {due : List Call} {failure : Option SaveError}
    (h : CameOut m input side stored s u due failure)
    (hmirrored : s'.mirrored = s.mirrored)
    (hflag : s'.dirty.get side = s.dirty.get side)
    (hcontent : storedFor m input side s.mirrored s'.state
      = storedFor m input side s.mirrored s.state)
    (hflag' : u'.dirty.get side = u.dirty.get side)
    (hcontent' : storedFor m input side s.mirrored u'.state
      = storedFor m input side s.mirrored u.state) :
    CameOut m input side stored s' u' due failure := by
  cases h with
  | spared flag content =>
    refine .spared (by rw [hflag', flag, hflag]) ?_
    rw [hmirrored, hcontent', content, hcontent]
  | saved bytes accepted flag content =>
    rw [← hmirrored] at accepted hcontent' content ⊢
    exact .saved bytes accepted (hflag'.trans flag) (hcontent'.trans content)
  | refused bytes e rejected flag content =>
    rw [← hmirrored] at rejected hcontent hcontent' content ⊢
    exact .refused bytes e rejected (hflag'.trans flag)
      (hcontent'.trans (content.trans hcontent.symm))

/-- The error of an attempt to save, if it fails. -/
def failure : Except SaveError Unit → Option SaveError
  | .ok () => none
  | .error e => some e

theorem failure_firstError (l r : Except SaveError Unit) :
    failure (firstError l r) = (failure l).or (failure r) := by
  cases l <;> rfl

/-- What the user is told of a failed attempt to save a side. -/
def noticeOf (m : Model σ) (input : Place) (side : Side) (stored : σ)
    (failure : Option SaveError) : List Call :=
  (failure.map fun e => .notify (m.name stored input) side e).toList

/-- What the user has been told about failed saves. -/
def notices (s : Session σ) : List Call := s.calls.filter Call.isNotice

theorem FlushedSide.notices_eq {input : Place} {side : Side} {s t : Session σ}
    {r : Except SaveError Unit} (ends : FlushedSide m input side s t r) :
    t.notices = s.notices ++ noticeOf m input side s.state (failure r) := by
  cases ends with
  | skipped => simp [noticeOf, failure]
  | saved h state hsave =>
    have hevents : (s.flagCalls side false).filter Call.isNotice = [] := by
      refine List.filter_eq_nil_iff.mpr fun c hc => ?_
      obtain ⟨l, rfl⟩ := eq_event_of_mem_flagCalls hc
      simp [Call.isNotice]
    have hsave : (s.saveCall m input side).isNotice = false := rfl
    simp [notices, noticeOf, failure, hsave, hevents]
  | refused h e hsave =>
    rw [notices, List.filter_append, notices]
    rfl

theorem FlushedSide.cameOut (hm : m.Keeps known) {input : Place} {side : Side}
    {s t : Session σ} {r : Except SaveError Unit}
    (ends : FlushedSide m input side s t r) (hknown : known s.state input) :
    CameOut m input side s.state s t (s.dueSave m input side s.state)
      (failure r) := by
  have hdue : s.pending m input side = true → s.dueSave m input side s.state
      = [.save input (side.oriented s.mirrored) (s.pendingBytes m input side)] := by
    intro h
    rw [dueSave, if_pos h, pendingBytes_eq]
  cases ends with
  | skipped h =>
    rw [dueSave, h]
    exact .spared rfl rfl
  | saved h state hsave =>
    rw [hdue h]
    refine .saved _ ⟨state, hsave⟩ (by simp) ?_
    exact hm.content_saved hsave hknown
  | refused h e hsave =>
    rw [hdue h]
    exact .refused _ e hsave (Bool.and_eq_true_iff.mp h).2 rfl

/-- A flush of a side leaves the flag and the content of the other one
alone. -/
theorem FlushedSide.opposite (hm : m.Keeps known) {input : Place} {side : Side}
    {s t : Session σ} {r : Except SaveError Unit}
    (ends : FlushedSide m input side s t r) (hknown : known s.state input) :
    t.dirty.get side.opposite = s.dirty.get side.opposite ∧
      storedFor m input side.opposite s.mirrored t.state
        = storedFor m input side.opposite s.mirrored s.state := by
  cases ends with
  | skipped => exact ⟨rfl, rfl⟩
  | refused => exact ⟨rfl, rfl⟩
  | saved _ state hsave =>
    refine ⟨by simp, ?_⟩
    simp only [storedFor, Side.opposite_oriented]
    exact hm.content_opposite hsave hknown

/-! ## Both sides -/

/-- `u` is `s` after both sides of an input are tried to be saved, the left
one first, with the errors `left` and `right`; `made` are the calls that
this makes. Nothing but what is said here changes. -/
structure SidesTried (m : Model σ) (input : Place) (s u : Session σ)
    (made : List Call) (left right : Option SaveError) : Prop where
  frame : u = { s with
    state := u.state
    dirty := u.dirty
    confirmer := u.confirmer
    calls := s.calls ++ made }
  /-- At most one question is asked. -/
  confirmer : u.confirmer = s.confirmer ∨ u.confirmer = s.confirmer.next
  settles : ∀ c ∈ made, c.settles = true
  /-- What either side calls for is tried, whatever becomes of the other. -/
  saves : made.filter Call.isSave = s.dueSaves m input
  /-- The user is told of each failure, once, and of nothing else. -/
  notices : made.filter Call.isNotice =
    noticeOf m input .left s.state left ++
      noticeOf m input .right
        (m.carryOut s.state (s.dueSave m input .left s.state)) right
  left : CameOut m input .left s.state s u
    (s.dueSave m input .left s.state) left
  right :
    let stored := m.carryOut s.state (s.dueSave m input .left s.state)
    CameOut m input .right stored s u (s.dueSave m input .right stored) right

theorem FlushedSides.tried (hm : m.Keeps known) (he : m.KeepsEditable)
    {input : Place} {s t : Session σ} {r : Except SaveError Unit}
    (ends : FlushedSides m input s t r) (hknown : known s.state input) :
    t.confirmer = s.confirmer ∧
      ∃ made left right, SidesTried m input s t made left right ∧
        failure r = left.or right := by
  obtain ⟨made, hcalls, -, hsettles, -⟩ := ends.settled.calls
  have hsaves := ends.makes he
  have hframe := ends.settled.frame
  cases ends with
  | @both u _ l r left right =>
    have hstate := left.due.2
    have hmirrored : u.mirrored = s.mirrored := left.settled.mirrored_eq
    have huknown : known u.state input := by
      rw [hstate]
      exact hm.known_carryOut hknown
    have hdue := left.dueSave_opposite he u.state
    obtain ⟨lflag, lcontent⟩ := left.opposite hm hknown
    obtain ⟨rflag, rcontent⟩ := right.opposite hm huknown
    rw [hmirrored] at rcontent
    simp only [Side.opposite] at hdue lflag lcontent rflag rcontent
    have hconfirmer : t.confirmer = s.confirmer := by
      cases left <;> cases right <;> rfl
    refine ⟨hconfirmer, made, failure l, failure r, ?_, failure_firstError l r⟩
    refine ⟨by rw [← hcalls]; exact hframe, .inl hconfirmer,
      fun c hc => (hsettles c hc).1, ?_, ?_, ?_, ?_⟩
    · rw [Session.saves, hcalls, List.filter_append] at hsaves
      exact List.append_cancel_left hsaves
    · have hnotices := right.notices_eq
      rw [left.notices_eq, notices, hcalls, List.filter_append,
        List.append_assoc, hstate] at hnotices
      exact List.append_cancel_left hnotices
    · exact (left.cameOut hm hknown).congr rfl rfl rfl rflag rcontent
    · have hright := right.cameOut hm huknown
      rw [hdue, hstate] at hright
      refine hright.congr hmirrored.symm lflag.symm ?_ rfl rfl
      rw [hmirrored]
      exact lcontent.symm

/-! ## Trying again -/

/-- A save of a side was refused, and `u` is `s` but for the record of that.
Once the model takes saves again, with the contents and the permissions that
it had, the same save is made again; if it is accepted, the side is clean. -/
structure SideRefused (m : Model σ) (input : Place) (side : Side)
    (s u : Session σ) (bytes : Option ByteArray) (e : SaveError) : Prop where
  due : s.dueSave m input side s.state
    = [.save input (side.oriented s.mirrored) bytes]
  rejected : m.save s.state (side.oriented s.mirrored) input bytes = .error e
  flag : u.dirty.get side = true
  unchanged : u = { s with
    calls := s.calls ++ [.save input (side.oriented s.mirrored) bytes,
      .notify (m.name s.state input) side e] }
  retry : ∀ healed,
    (∀ pane, m.content healed pane input = m.content s.state pane input) →
    (∀ other, m.editable healed other input = m.editable s.state other input) →
    let again : Session σ := { u with state := healed }
    (again.callsOf m (.flush side)).filter Call.isSave
        = [.save input (side.oriented s.mirrored) bytes] ∧
      ∀ after, m.save healed (side.oriented s.mirrored) input bytes = .ok after →
        (again.step m (.flush side)).2 = .done ∧
        (again.step m (.flush side)).1.state = after ∧
        (again.step m (.flush side)).1.dirty = s.dirty.set side false

theorem FlushedSide.refusedSide {input : Place} {side : Side} {s t : Session σ}
    {e : SaveError} (ends : FlushedSide m input side s t (.error e))
    (hin : s.input = some input) :
    ∃ bytes, SideRefused m input side s t bytes e := by
  cases ends with
  | refused h _ hsave =>
    have hdirty : s.dirty.get side = true := (Bool.and_eq_true_iff.mp h).2
    have hdue : s.dueSave m input side s.state
        = [.save input (side.oriented s.mirrored) (s.pendingBytes m input side)] := by
      rw [dueSave, if_pos h, pendingBytes_eq]
    refine ⟨s.pendingBytes m input side, hdue, hsave, hdirty, rfl, ?_⟩
    intro healed hcontent heditable again
    have hpending : again.pending m input side = true := by
      simp only [pending, view, Model.editable_oriented] at h ⊢
      rw [heditable]
      exact h
    have hbytes : again.pendingBytes m input side = s.pendingBytes m input side := by
      rw [pendingBytes_eq, pendingBytes_eq, hcontent]
    have hflush : again.flush m side = again.flushSide m input side := by
      simp [again, flush, hin]
    have hends := flushSide_ends m input side again
    have hagain : again.dueSave m input side again.state
        = [.save input (side.oriented s.mirrored) (s.pendingBytes m input side)] := by
      rw [dueSave, if_pos hpending, ← pendingBytes_eq, hbytes]
    constructor
    · have hlog := saves_step m again (.flush side)
      simp only [step, hflush, Prod.map_fst, id_eq] at hlog
      rw [hends.due.1, hagain] at hlog
      exact (List.append_cancel_left hlog).symm
    · intro after hafter
      simp only [step, hflush, Prod.map_fst, Prod.map_snd, id_eq]
      generalize (again.flushSide m input side).1 = u,
        (again.flushSide m input side).2 = r at hends
      cases hends with
      | skipped hidle => simp [hpending] at hidle
      | saved _ state hstate =>
        rw [hbytes] at hstate
        exact ⟨rfl, Except.ok.inj (hstate.symm.trans hafter), rfl⟩
      | refused _ e' hrefused =>
        rw [hbytes] at hrefused
        exact absurd (hrefused.symm.trans hafter) (by simp)

/-! ## Over every run -/

/-- To ask first has no bearing on how both sides are tried. -/
theorem SidesTried.of_asked {input : Place} {s u : Session σ}
    {confirmer : Confirmer} {asked made : List Call}
    {left right : Option SaveError} (hasked : ∀ c ∈ asked, ∃ p, c = .prompt p)
    (hconfirmer : u.confirmer = s.confirmer ∨ u.confirmer = s.confirmer.next)
    (h : SidesTried m input { s with confirmer, calls := s.calls ++ asked } u
      made left right) :
    SidesTried m input s u (asked ++ made) left right := by
  have hsaves : asked.filter Call.isSave = [] := by
    refine List.filter_eq_nil_iff.mpr fun c hc => ?_
    obtain ⟨p, rfl⟩ := hasked c hc
    simp [Call.isSave]
  have hnotices : asked.filter Call.isNotice = [] := by
    refine List.filter_eq_nil_iff.mpr fun c hc => ?_
    obtain ⟨p, rfl⟩ := hasked c hc
    simp [Call.isNotice]
  refine ⟨?_, hconfirmer, fun c hc => ?_, ?_, ?_,
    h.left.congr rfl rfl rfl rfl rfl, h.right.congr rfl rfl rfl rfl rfl⟩
  · rw [h.frame, List.append_assoc]
  · rcases List.mem_append.mp hc with hc | hc
    · obtain ⟨p, rfl⟩ := hasked c hc
      rfl
    · exact h.settles c hc
  · rw [List.filter_append, hsaves, h.saves]
    rfl
  · rw [List.filter_append, hnotices, h.notices]
    rfl

/-- **A failed save leaves everything else as it was.** Wherever a run has
led, an operation that fails has tried to save the bound input. If it was to
save one side, nothing has changed, and once the model has recovered the
same save can be made again. Any other operation has tried both sides, and
each side comes out of that whatever became of the other; what is bound and
shown, and what is watched, stays, and the error is that of the left side if
there is one. -/
theorem failed_save_leaves_the_rest (hm : m.Keeps known) (he : m.KeepsEditable)
    {settings : Settings} {state : σ} {confirmer : Confirmer}
    {start : Session σ} (hstart : start? settings state confirmer = .ok start)
    {past : List (Operation σ)} (hpast : ∀ op ∈ past, op.Knows known state)
    {op : Operation σ} {e : SaveError}
    (hfail : ((start.run m past).step m op).2 = .failed e) :
    ∃ input, (start.run m past).input = some input ∧
      (∀ side, op = .flush side → ∃ bytes,
        SideRefused m input side (start.run m past)
          (start.run m (past ++ [op])) bytes e) ∧
      ((∀ side, op ≠ .flush side) → ∃ left right,
        SidesTried m input (start.run m past) (start.run m (past ++ [op]))
          ((start.run m past).callsOf m op) left right ∧
        left.or right = some e) := by
  have hbound := knownInputs_run hm hstart hpast
  rw [run_snoc]
  generalize start.run m past = s at hfail hbound ⊢
  have hcalls := calls_step m s op
  have hfailed := step_fails hfail
  generalize (s.step m op).1 = u at hcalls hfailed ⊢
  cases hfailed with
  | @side side input _ _ hin ends =>
    refine ⟨input, hin, ?_, fun hop => absurd rfl (hop side)⟩
    intro other hother
    obtain rfl := Operation.flush.inj hother
    exact ends.refusedSide hin
  | @sides _ input asked confirmer _ _ hop hin hasked hconfirmer ends =>
    refine ⟨input, hin, fun side hside => absurd hside (hop side), fun _ => ?_⟩
    obtain ⟨hkept, made, left, right, htried, herror⟩ :=
      ends.tried hm he (hbound.bound_known hin)
    have hsides := htried.of_asked hasked (by rwa [hkept])
    have hmade : s.callsOf m op = asked ++ made := by
      have hlog := hcalls.symm.trans (congrArg Session.calls hsides.frame)
      exact List.append_cancel_left hlog
    rw [hmade]
    exact ⟨left, right, hsides, herror.symm⟩

/-- Two documents' worth of failures: a save on request that is refused, and
a change of the bound input for which one side is saved and the other is
refused. -/
theorem refused_save_of_two :
    let m := (Model.shelf Document).guarded
    let state : Model.Guarded (Shelf Document) :=
      ⟨⟨[{ contents := ⟨none, some ⟨#[97]⟩, none⟩ }], ⟨true, true⟩⟩,
        ⟨some (.rejected .left "disk full"), none⟩⟩
    let past : List (Operation (Model.Guarded (Shelf Document))) :=
      [.bind (some 0), .applyEdit .left ⟨#[98]⟩, .applyEdit .right ⟨#[99]⟩]
    let e : SaveError := .rejected .left "disk full"
    ∃ start, start? {} state (.fixed .save) = .ok start ∧
      ((start.run m past).step m (.flush .left)).2 = .failed e ∧
      ((start.run m past).step m (.bind none)).2 = .failed e ∧
      (start.run m (past ++ [.flush .left])).dirty = ⟨true, true⟩ ∧
      (start.run m (past ++ [.bind none])).input = some 0 ∧
      ∃ left right, left.or right = some e ∧
        SidesTried m 0 (start.run m past) (start.run m (past ++ [.bind none]))
          ((start.run m past).callsOf m (.bind none)) left right := by
  intro m state past e
  obtain ⟨start, hstart, hflush, hbind, hin, hdirty⟩ : ∃ start,
      start? {} state (.fixed .save) = .ok start ∧
      ((start.run m past).step m (.flush .left)).2 = .failed e ∧
      ((start.run m past).step m (.bind none)).2 = .failed e ∧
      (start.run m past).input = some 0 ∧
      (start.run m past).dirty = ⟨true, true⟩ :=
    ⟨_, rfl, by decide +kernel, by decide +kernel, by decide +kernel,
      by decide +kernel⟩
  have hm : m.Keeps fun g place => place < g.state.items.length :=
    Model.keeps_guarded keeps_shelf
  have he : m.KeepsEditable := Model.keepsEditable_guarded keepsEditable_shelf
  have hpast : ∀ op ∈ past,
      op.Knows (fun g place => place < g.state.items.length) state := by
    simp [past, Operation.Knows, state]
  obtain ⟨input, -, hside, -⟩ :=
    failed_save_leaves_the_rest hm he hstart hpast hflush
  obtain ⟨other, hother, -, hsides⟩ :=
    failed_save_leaves_the_rest hm he hstart hpast hbind
  obtain rfl := Option.some.inj (hin.symm.trans hother)
  obtain ⟨bytes, hrefused⟩ := hside .left rfl
  obtain ⟨left, right, htried, herror⟩ := hsides (by simp)
  refine ⟨start, hstart, hflush, hbind, ?_, ?_, left, right, herror, htried⟩
  · rw [hrefused.unchanged]
    exact hdirty
  · rw [htried.frame]
    exact hin

end Session

end Reconcile
