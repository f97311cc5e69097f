/-
Reconcile.Proofs.Session.ReportedSides — which side the user is told about when a
save fails.

A failed save is told with two sides: the one that could not be saved, which is a side
of the view, and the one that the error names, which is the side that the model was
asked to save. A turned view asks for the other side of the model and hands its error
on as it is. So the two are the same exactly if the view is not turned
(`failure_names_model_side`).

Only a flush of a side tells of a failure; it is made before the view is turned or
another input is bound. So it is the mirroring from before an operation that counts
(`reported_settling`), and what is done after that tells of nothing
(`GoesOn.reported`).
-/
import Reconcile.Proofs.Session.FailedSaves

namespace Reconcile

/-! ## The side that an error names -/

theorem Side.name_inj {a b : Side} (h : a.name = b.name) : a = b := by
  cases a <;> cases b <;> first | rfl | exact absurd h (by decide)

theorem Side.oriented_eq_self_iff {flipped : Bool} {side : Side} :
    side.oriented flipped = side ↔ flipped = false := by
  cases flipped <;> cases side <;> decide

namespace SaveError

/-- The same error, but about another side. -/
def aimedAt (side : Side) : SaveError → SaveError
  | io _ path cause => io side path cause
  | readOnly _ => readOnly side
  | rejected _ detail => rejected side detail

@[simp] theorem aimedAt_side (e : SaveError) : e.aimedAt e.side = e := by
  cases e <;> rfl

/-- The wording of an error tells which side it is about. -/
theorem message_aimedAt_inj {e : SaveError} {a b : Side}
    (h : (e.aimedAt a).message = (e.aimedAt b).message) : a = b := by
  apply Side.name_inj
  cases e with
  | io side path cause =>
    change "failed to write " ++ a.name ++ " content to '" ++ path ++ "': " ++ cause
      = "failed to write " ++ b.name ++ " content to '" ++ path ++ "': " ++ cause at h
    rw [String.append_left_inj, String.append_left_inj, String.append_left_inj,
      String.append_left_inj, String.append_right_inj] at h
    exact h
  | readOnly side => exact (String.append_left_inj _).mp h
  | rejected side detail =>
    exact (String.append_left_inj _).mp ((String.append_left_inj _).mp h)

/-- What the user is told is what would be told of an error about the same side
exactly if the error is about that side. -/
theorem notice_eq_aimedAt_iff {input : String} {side : Side} {e : SaveError} :
    notice input side e = notice input side (e.aimedAt side) ↔ e.side = side := by
  constructor
  · intro h
    have hmessage : e.message = (e.aimedAt side).message :=
      (String.append_right_inj _).mp ((String.append_left_inj _).mp h)
    refine message_aimedAt_inj (e := e) ?_
    rwa [aimedAt_side]
  · rintro rfl
    rw [aimedAt_side]

end SaveError

/-- A save that fails names the side that was to be saved. -/
def Model.ReportsSide {σ : Type} (m : Model σ) : Prop :=
  ∀ {s : σ} {side : Side} {input : Place} {bytes : Option ByteArray} {e : SaveError},
    m.save s side input bytes = .error e → e.side = side

theorem reportsSide_shelf {α : Type} [Subject α] : (Model.shelf α).ReportsSide := by
  intro s side input bytes e h
  simp only [Model.shelf] at h
  split at h
  · simp at h
  · obtain rfl := Except.error.inj h
    rfl

theorem FileStore.side_of_writeFile {s : FileStore} {side : Side}
    {bytes : Option ByteArray} {e : SaveError}
    (h : s.writeFile side bytes = .error e) : e.side = side := by
  simp only [writeFile] at h
  split at h
  · simp at h
  · obtain rfl := Except.error.inj h
    rfl

theorem reportsSide_files : Model.files.ReportsSide := by
  intro s side input bytes e h
  simp only [Model.files, FileStore.save] at h
  split at h
  · split at h
    · simp at h
    · rename_i hwrite
      obtain rfl := Except.error.inj h
      exact FileStore.side_of_writeFile hwrite
  · obtain rfl := Except.error.inj h
    rfl

/-- A notice is about a side of the view, and its error about the side of the model
that is shown there. No other call names a side that could not be saved. -/
def Call.NamesShown (flipped : Bool) : Call → Prop
  | notify _ side e => e.side = side.oriented flipped
  | _ => True

theorem Call.namesShown_of_deals {flipped : Bool} {c : Call} (h : c.deals = false) :
    c.NamesShown flipped := by
  cases c <;> simp_all [deals, NamesShown]

namespace Session

variable {σ : Type} {m : Model σ} {s t u : Session σ} {flipped : Bool}

/-! ## What is told on the way -/

/-- `t` is `s` after calls in which failures are told as the view shows them. -/
def Reported (flipped : Bool) (s t : Session σ) : Prop :=
  ∃ more, t.calls = s.calls ++ more ∧ ∀ c ∈ more, c.NamesShown flipped

theorem Reported.refl (flipped : Bool) (s : Session σ) : Reported flipped s s :=
  ⟨[], by simp, by simp⟩

theorem Reported.trans (h : Reported flipped s t) (g : Reported flipped t u) :
    Reported flipped s u :=
  Call.appended_trans h g

/-- What does not deal with pending edits tells of no failure. -/
theorem GoesOn.reported (h : GoesOn s t) : Reported flipped s t := by
  obtain ⟨more, hcalls, hmore⟩ := h.calls
  exact ⟨more, hcalls, fun c hc => Call.namesShown_of_deals (hmore c hc)⟩

/-! ## What a failure is told as -/

/-- **A flush of a side tells of its failure** as the view shows that side. -/
theorem FlushedSide.reported (hm : m.ReportsSide) {input : Place} {side : Side}
    {r : Except SaveError Unit} (ends : FlushedSide m input side s t r) :
    t.mirrored = s.mirrored ∧ Reported s.mirrored s t := by
  cases ends with
  | skipped => exact ⟨rfl, .refl _ s⟩
  | saved h state hsave =>
    refine ⟨rfl, _, rfl, fun c hc => ?_⟩
    rcases List.mem_cons.mp hc with rfl | hc
    · trivial
    · obtain ⟨l, rfl⟩ := eq_event_of_mem_flagCalls hc
      trivial
  | refused h e hsave =>
    refine ⟨rfl, _, rfl, fun c hc => ?_⟩
    simp only [List.mem_cons, List.not_mem_nil, or_false] at hc
    rcases hc with rfl | rfl
    · trivial
    · exact hm hsave

/-- The view is not turned while pending edits are dealt with, so all failures are told
by the same mirroring. -/
theorem reported_settling (hm : m.ReportsSide) : KeptBySettling m
    fun (s t : Session σ) => t.mirrored = s.mirrored ∧ Reported s.mirrored s t where
  refl s := ⟨rfl, .refl _ s⟩
  trans {s t u} h g := ⟨g.1.trans h.1, h.2.trans (h.1 ▸ g.2)⟩
  flag s side value := ⟨by rw [setDirty_eq], (goesOn_setDirty side value s).reported⟩
  flushedSide ends := ends.reported hm
  decision input kind s := by
    rw [decision_eq]
    refine ⟨rfl, _, rfl, fun c hc => ?_⟩
    obtain ⟨p, rfl⟩ := prompt_of_mem_questionCalls hc
    trivial

theorem Switching.reported (hm : m.ReportsSide) {next : Session σ → Session σ}
    (hnext : ∀ u, GoesOn u (next u)) {r : Except SaveError SwitchOutcome}
    (ends : Switching m next s t r) : Reported s.mirrored s t := by
  have hsettling := reported_settling hm
  cases ends with
  | failed resolved => exact (hsettling.resolvedBound resolved).2
  | cancelled resolved => exact (hsettling.resolvedBound resolved).2
  | switched resolved _ => exact (hsettling.resolvedBound resolved).2.trans (hnext _).reported

theorem ChangedOutside.reported (hm : m.ReportsSide) {r : Except SaveError Unit}
    (ends : ChangedOutside m s t r) : Reported s.mirrored s t := by
  have hsettling := reported_settling hm
  cases ends with
  | unbound => exact .refl _ s
  | saving => exact .refl _ s
  | failed _ _ resolved => exact (hsettling.resolved resolved).2
  | dropped _ _ resolved =>
    exact (hsettling.resolved resolved).2.trans
      ((goesOn_clearDirty _).trans (goesOn_refresh m _)).reported
  | shown _ _ resolved _ =>
    exact (hsettling.resolved resolved).2.trans (goesOn_refresh m _).reported

/-- **An operation tells of failures as the view shows the sides** when it begins. -/
theorem reported_step (hm : m.ReportsSide) (s : Session σ) (op : Operation σ) :
    Reported s.mirrored s (s.step m op).1 := by
  have hends := step_ends m s op
  generalize (s.step m op).1 = t, (s.step m op).2 = reply at hends ⊢
  cases hends with
  | aside h => exact h.goesOn.reported
  | flagged side value => exact (goesOn_setDirty side value s).reported
  | edited side bytes => exact (goesOn_applyEdit side bytes s).reported
  | copied d _ => exact (goesOn_applyEdit _ _ s).reported
  | flushed _ ends => exact (ends.reported hm).2
  | flushedAll _ ends => exact ((reported_settling hm).flushedSides ends).2
  | refreshed => exact (goesOn_refresh m s).reported
  | bound _ ends => exact ends.reported hm (goesOn_rebind m _)
  | turned _ ends => exact ends.reported hm (goesOn_turn m _)
  | changed _ ends => exact ends.reported hm
  | disposed => exact (goesOn_dispose m s).reported
  | elsewhere change => exact .refl _ s

/-! ## What a failure is answered with -/

/-- `t` is `s` after calls in which it is told that a side could not be saved. -/
def ToldOf (side : Side) (e : SaveError) (s t : Session σ) : Prop :=
  ∃ made name, t.calls = s.calls ++ made ∧ .notify name side e ∈ made

theorem FlushedSide.toldOf {input : Place} {side : Side} {e : SaveError}
    (ends : FlushedSide m input side s t (.error e)) : ToldOf side e s t := by
  cases ends with
  | refused => exact ⟨_, m.name s.state input, rfl, by simp⟩

theorem FlushedSides.toldOf {input : Place} {e : SaveError}
    (ends : FlushedSides m input s t (.error e)) : ∃ side, ToldOf side e s t := by
  generalize hr : Except.error e = r at ends
  cases ends with
  | both left right =>
    rename_i u l r
    cases l with
    | error first =>
      obtain rfl : e = first := Except.error.inj hr
      obtain ⟨made, name, hcalls, hmem⟩ := left.toldOf
      obtain ⟨more, hmore, -⟩ := right.settled.calls
      exact ⟨.left, made ++ more, name, by rw [hmore, hcalls, List.append_assoc],
        List.mem_append_left _ hmem⟩
    | ok _ =>
      obtain rfl : .error e = r := hr
      obtain ⟨made, hmade, -⟩ := left.settled.calls
      obtain ⟨more, name, hcalls, hmem⟩ := right.toldOf
      exact ⟨.right, made ++ more, name, by rw [hcalls, hmade, List.append_assoc],
        List.mem_append_right _ hmem⟩

/-- The error that an operation answers with has been told, and if a single side was
to be saved, as the failure of that side. -/
theorem FailedStep.toldOf {op : Operation σ} {e : SaveError}
    (h : FailedStep m s op t e) :
    ∃ side, ToldOf side e s t ∧ ∀ flushed, op = .flush flushed → flushed = side := by
  cases h with
  | @side side input _ _ hin ends =>
    exact ⟨side, ends.toldOf, fun flushed hop => (Operation.flush.inj hop).symm⟩
  | sides hop hin hasked hconfirmer ends =>
    obtain ⟨side, made, name, hcalls, hmem⟩ := ends.toldOf
    refine ⟨side, ⟨_, name, hcalls.trans (List.append_assoc _ _ _),
      List.mem_append_right _ hmem⟩, fun flushed heq => absurd heq (hop flushed)⟩

/-- **What a failed save is told and answered with names the side of the model.** For
a model that names the side which it was asked to save, every notice about a side of
the view has an error about the side of the model that is shown there. So both are
about the same side, and the text that the user gets names no other one, exactly if the
view is not turned. The error that an operation answers with is one of those that were
told. -/
theorem failure_names_model_side (hm : m.ReportsSide) (s : Session σ)
    (op : Operation σ) :
    (∀ {name : String} {side : Side} {e : SaveError},
      .notify name side e ∈ s.callsOf m op →
      e.side = side.oriented s.mirrored ∧
        (e.side = side ↔ s.mirrored = false) ∧
        (SaveError.notice name side e = SaveError.notice name side (e.aimedAt side) ↔
          s.mirrored = false)) ∧
    ∀ {e : SaveError}, (s.step m op).2 = .failed e →
      ∃ name side, .notify name side e ∈ s.callsOf m op ∧
        ∀ flushed, op = .flush flushed → flushed = side := by
  constructor
  · intro name side e hmem
    obtain ⟨made, hcalls, hmade⟩ := reported_step hm s op
    rw [callsOf_eq hcalls] at hmem
    have hside : e.side = side.oriented s.mirrored := hmade _ hmem
    have hsame : e.side = side ↔ s.mirrored = false := by
      rw [hside, Side.oriented_eq_self_iff]
    exact ⟨hside, hsame, SaveError.notice_eq_aimedAt_iff.trans hsame⟩
  · intro e hfailed
    obtain ⟨side, ⟨made, name, hcalls, hmem⟩, hflushed⟩ := (step_fails hfailed).toldOf
    exact ⟨name, side, by rwa [callsOf_eq hcalls], hflushed⟩

/-- The file behind the right side cannot be written, since there is no directory for
it. Both sides are edited, and to let go of the input fails. -/
theorem failure_told_of_right_side :
    let store : FileStore := {
      disk := {
        home := []
        entries := [(["l"], .file ⟨#[97]⟩)] }
      paths := ⟨none, "l", "d/r"⟩
      node := .twoWay (some ⟨"l", some ⟨#[97]⟩⟩) none
      editable := ⟨true, true⟩ }
    let past : List (Operation FileStore) :=
      [.bind (some 0), .applyEdit .left ⟨#[98]⟩, .applyEdit .right ⟨#[99]⟩]
    let e : SaveError := .io .right "d/r" DiskFault.notFound.message
    ∃ start, start? {} store (.fixed .save) = .ok start ∧
      ((start.run .files past).step .files (.bind none)).2 = .failed e ∧
      ∃ name, .notify name .right e ∈ (start.run .files past).callsOf .files (.bind none) ∧
        SaveError.notice name .right e
          = SaveError.notice name .right (e.aimedAt .right) := by
  intro store past e
  obtain ⟨start, hstart, hunturned, hfailed⟩ : ∃ start,
      start? {} store (.fixed .save) = .ok start ∧
      (start.run .files past).mirrored = false ∧
      ((start.run .files past).step .files (.bind none)).2 = .failed e :=
    ⟨_, rfl, by decide +kernel, by decide +kernel⟩
  obtain ⟨htold, hanswered⟩ := failure_names_model_side reportsSide_files
    (start.run .files past) (.bind none)
  obtain ⟨name, side, hmem, -⟩ := hanswered hfailed
  obtain ⟨hside, -, htext⟩ := htold hmem
  rw [hunturned] at hside
  obtain rfl : .right = side := hside
  exact ⟨start, hstart, hfailed, name, hmem, htext.mpr hunturned⟩

/-- The same file behind a view that is turned. The edit of the left side is saved to
it, and the user is told of both sides in one sentence. -/
theorem failure_told_of_two_sides :
    let store : FileStore := {
      disk := {
        home := []
        entries := [(["l"], .file ⟨#[97]⟩)] }
      paths := ⟨none, "l", "d/r"⟩
      node := .twoWay (some ⟨"l", some ⟨#[97]⟩⟩) none
      editable := ⟨true, true⟩ }
    let past : List (Operation FileStore) :=
      [.bind (some 0), .applyEdit .left ⟨#[98]⟩]
    ∃ start e, start? { viewer := { mirrored := true } } store (.fixed .save) = .ok start ∧
      .notify "l" .left e ∈ (start.run .files past).callsOf .files (.flush .left) ∧
      ((start.run .files past).step .files (.flush .left)).2 = .failed e ∧
      e.side = .right ∧
      SaveError.notice "l" .left e =
        "Could not save the left side of 'l': failed to write right content to " ++
          "'d/r': No such file or directory (os error 2). " ++
          "Your changes are still pending; save again to retry." :=
  ⟨_, .io .right "d/r" DiskFault.notFound.message, rfl, by decide +kernel,
    by decide +kernel, rfl, by decide +kernel⟩

end Session

end Reconcile
