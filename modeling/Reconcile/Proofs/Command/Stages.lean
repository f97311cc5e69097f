/-
Reconcile.Proofs.Command.Stages — what the stages of a comparison do.

A comparison shows its files, turns the view if asked to (`Opened`), puts what
it is asked for into a pane and flags it (`Edited`), and closes. Until it closes
nothing has been saved and no question has been asked, so that whatever it does
to the disk is done by the saves of the flagged sides (`close_keeps`). The close
asks only if that is the policy (`close_unasked`), and an answer other than to
save leaves everything as it was (`close_declined`). If one side is flagged and
nobody is asked, a close that goes well saves that side, or passes over it
(`close_alone`).
-/
import Reconcile.Command
import Reconcile.Proofs.Model.Loading
import Reconcile.Proofs.Session.Asking
import Reconcile.Proofs.Session.Runs

namespace Reconcile

open Reconcile.Terminal (Screen)

/-! ## What a screen takes note of -/

namespace Terminal.Screen

/-- A screen takes note of questions alone, and keeps its style. -/
theorem take_keeps (screen : Screen) (c : Call) :
    (screen.take c).style = screen.style ∧
      (c.asks = false → (screen.take c).asked = screen.asked) := by
  cases c with
  | prompt p => exact ⟨rfl, fun hasks => by simp [Call.asks] at hasks⟩
  | content panes =>
    simp only [take, showContent]
    split <;> exact ⟨rfl, fun _ => rfl⟩
  | header pane h =>
    simp only [take, showHeader]
    split
    · exact ⟨rfl, fun _ => rfl⟩
    · split <;> exact ⟨rfl, fun _ => rfl⟩
  | _ => exact ⟨rfl, fun _ => rfl⟩

theorem style_foldl_take (calls : List Call) (screen : Screen) :
    (calls.foldl take screen).style = screen.style := by
  induction calls generalizing screen with
  | nil => rfl
  | cons c calls ih => rw [List.foldl_cons, ih, (take_keeps screen c).1]

theorem asked_foldl_take {calls : List Call} (h : ∀ c ∈ calls, c.asks = false)
    (screen : Screen) : (calls.foldl take screen).asked = screen.asked := by
  induction calls generalizing screen with
  | nil => rfl
  | cons c calls ih =>
    rw [List.foldl_cons, ih (fun c hmem => h c (by simp [hmem])),
      (take_keeps screen c).2 (h c (by simp))]

end Terminal.Screen

namespace Command.Comparison

/-! ## Comparisons that are open -/

/-- A comparison between its start, which is `origin`, and its close: its files
are shown in a view that is turned as `flipped` says, only sides of the view for
which `may` holds have edits, nothing has been saved and nobody has been asked. -/
structure Edited (origin : Comparison) (flipped : Bool) (may : Side → Prop)
    (c : Comparison) : Prop where
  state : c.session.state = origin.session.state
  settings : c.session.settings = origin.session.settings
  confirmer : c.session.confirmer = origin.session.confirmer
  input : c.session.input = some 0
  mirrored : c.session.mirrored = flipped
  flags : ∀ side, c.session.dirty.get side = true → may side
  asked : c.screen.asked = origin.screen.asked
  style : c.screen.style = origin.screen.style

/-- A comparison that shows its files, without edits. -/
structure Opened (origin : Comparison) (flipped : Bool) (c : Comparison) :
    Prop extends Edited origin flipped (fun _ => False) c where
  panes : ∀ pane, c.session.panes.get pane
    = origin.session.state.node.content (pane.oriented flipped)

variable {origin c : Comparison} {flipped : Bool} {may may' : Side → Prop}
  {args : CompareArguments}

theorem Edited.mono (h : Edited origin flipped may c)
    (hmay : ∀ side, may side → may' side) : Edited origin flipped may' c :=
  ⟨h.state, h.settings, h.confirmer, h.input, h.mirrored,
    fun side hd => hmay side (h.flags side hd), h.asked, h.style⟩

theorem Edited.line (h : Edited origin flipped may c) (text : String) :
    Edited origin flipped may (c.line text) :=
  ⟨h.state, h.settings, h.confirmer, h.input, h.mirrored, h.flags, h.asked,
    h.style⟩

theorem Opened.clean (h : Opened origin flipped c) :
    c.session.dirty = ⟨false, false⟩ := by
  refine Sided.ext ?_ ?_
  · exact Bool.eq_false_iff.mpr (h.flags .left)
  · exact Bool.eq_false_iff.mpr (h.flags .right)

theorem Opened.side_panes (h : Opened origin flipped c) (side : Side) :
    c.session.panes.side side
      = origin.session.state.node.content (side.oriented flipped).pane := by
  rw [Paned.side_eq_get, h.panes, Side.pane_oriented]

/-- A question that is not asked is not taken note of. -/
theorem asked_act {α : Type} {f : Session FileStore → Session FileStore × α}
    (h : Session.Unasked c.session (f c.session).1) :
    (c.act f).1.screen.asked = c.screen.asked := by
  obtain ⟨more, hcalls, hquiet⟩ := h.calls
  simp only [act, hcalls, List.drop_left]
  exact Screen.asked_foldl_take hquiet _

/-- What is done to a session without asking is done to the session alone, but
for what is printed. -/
theorem act_ends {α : Type} {f : Session FileStore → Session FileStore × α}
    (h : Session.Unasked c.session (f c.session).1) :
    ∃ screen, c.act f = (⟨(f c.session).1, screen⟩, (f c.session).2) ∧
      screen.asked = c.screen.asked ∧ screen.style = c.screen.style :=
  ⟨_, rfl, asked_act h, Screen.style_foldl_take _ _⟩

/-- An edit of a side. -/
theorem Edited.applyEdit {α : Type} (h : Edited origin flipped may c) (side : Side)
    (bytes : ByteArray) (a : α) :
    Edited origin flipped (fun other => may other ∨ other = side)
      (c.act fun s => (s.applyEdit side bytes, a)).1 := by
  obtain ⟨screen, hact, hasked, hstyle⟩ := act_ends (c := c)
    (f := fun s => (s.applyEdit side bytes, a)) (Session.unasked_applyEdit side bytes _)
  rw [hact, Session.applyEdit_eq]
  refine ⟨h.state, h.settings, h.confirmer, h.input, h.mirrored, fun other hd => ?_,
    hasked.trans h.asked, hstyle.trans h.style⟩
  rcases Side.eq_or_eq_opposite other side with rfl | rfl
  · exact .inr rfl
  · rw [Sided.get_set_opposite] at hd
    exact .inl (h.flags _ hd)

/-! ## Stages -/

/-- Stages that follow each other go well if each of them does. -/
theorem andThen_ok {r : Stage} {next : Comparison → Stage}
    (h : (andThen r next).2 = .ok ()) :
    r.2 = .ok () ∧ andThen r next = next r.1 := by
  unfold andThen at h ⊢
  split at h
  · rename_i hr
    exact ⟨hr, rfl⟩
  · simp at h

/-- A stage that follows something that has gone well. -/
theorem andThen_of_ok {r : Stage} (h : r.2 = .ok ()) (next : Comparison → Stage) :
    andThen r next = next r.1 := by
  unfold andThen
  rw [h]

/-- A comparison begins by showing its files. -/
theorem begin_opened (hinput : c.session.input = none) :
    Opened c c.session.mirrored c.begin.1 ∧ c.begin.2 = .ok () := by
  have hbind := Session.bind_of_unbound (m := Model.files) hinput 0
  have hquiet : Session.Unasked c.session (c.session.bind Model.files (some 0)).1 := by
    rw [hbind]
    exact Session.unasked_rebind Model.files (some 0) c.session
  obtain ⟨screen, hact, hasked, hstyle⟩ := act_ends
    (c := c.line (c.screen.style.header c.session.state.node.name)) hquiet
  simp only [begin, hact]
  simp only [line, hbind, Session.rebind_eq]
  refine ⟨⟨⟨rfl, rfl, rfl, rfl, rfl, fun side hd => ?_, hasked, hstyle⟩,
    fun pane => ?_⟩, rfl⟩
  · cases side <;> simp [Sided.get] at hd
  · simp only [Session.currentPanes, Paned.get_ofFn, Session.view,
      Model.content_oriented]
    rfl

/-- Then the view is turned, if that is asked for. -/
theorem mirror_opened (h : Opened origin flipped c) (args : CompareArguments) :
    Opened origin (flipped ^^ args.mirror) (mirror args c).1 ∧
      (mirror args c).2 = .ok () := by
  cases hmirror : args.mirror with
  | false => simpa [mirror, hmirror] using h
  | true =>
    have hturn : c.session.setMirrored Model.files (!c.session.mirrored)
        = (c.session.turn Model.files (!c.session.mirrored), .ok .switched) :=
      Session.setMirrored_of_clean h.clean (by simp)
    have hquiet : Session.Unasked c.session
        (c.session.setMirrored Model.files (!c.session.mirrored)).1 := by
      rw [hturn]
      exact Session.unasked_turn _ _ _
    obtain ⟨screen, hact, hasked, hstyle⟩ := act_ends hquiet
    simp only [mirror, hmirror, if_true, hact]
    simp only [hturn, Session.turn, Session.refresh_eq]
    refine ⟨⟨⟨h.state, h.settings, h.confirmer, h.input, ?_, h.flags,
      hasked.trans h.asked, hstyle.trans h.style⟩, fun pane => ?_⟩, rfl⟩
    · simp [h.mirrored]
    · simp only [Session.currentPanes, h.input, h.mirrored, h.state,
        Paned.get_ofFn, Session.view, Model.content_oriented, Bool.xor_true]
      rfl

/-- The stages before anything is edited. -/
theorem opened (hinput : c.session.input = none) (args : CompareArguments) :
    Opened c (c.session.mirrored ^^ args.mirror)
        (andThen c.begin (mirror args)).1 ∧
      (andThen c.begin (mirror args)).2 = .ok () := by
  obtain ⟨hbegun, hok⟩ := begin_opened hinput
  rw [andThen_of_ok hok]
  exact mirror_opened hbegun args

/-- A merge edits the left side of the view, or nothing. -/
theorem merge_edited (h : Opened origin flipped c) (args : CompareArguments) :
    Edited origin flipped (fun side => args.merge = true ∧ side = .left)
      (merge args c).1 := by
  have hkept : ∀ {c : Comparison}, Edited origin flipped (fun _ => False) c →
      Edited origin flipped (fun side => side = .left) c :=
    fun h => h.mono fun _ => False.elim
  have hleft : ∀ {c : Comparison} (bytes : ByteArray),
      Edited origin flipped (fun _ => False) c →
      Edited origin flipped (fun side => side = .left)
        (c.act fun s => (s.applyEdit .left bytes, ())).1 :=
    fun bytes h => (h.applyEdit .left bytes ()).mono fun _ hside => hside.resolve_left id
  cases hmerge : args.merge with
  | false => simpa [merge, hmerge] using h.toEdited
  | true =>
    simp only [merge, hmerge, if_true, true_and]
    split
    · exact hkept h.toEdited
    · split
      · exact hkept h.toEdited
      · -- What is printed depends on conflicts, what is edited does not.
        split <;> split
        · exact hkept (h.toEdited.line _)
        · exact hkept (h.toEdited.line _)
        · exact hleft _ (h.toEdited.line _)
        · exact hleft _ (h.toEdited.line _)

/-- What a copy does: it edits the target if that may be edited. -/
theorem copy_eq (h : Edited origin flipped may c) {direction : Direction}
    (hcopy : args.copy = some direction) :
    copy args c =
      if origin.session.state.editable.get (direction.target.oriented flipped) then
        ((c.act fun s => (s.applyEdit direction.target
          ((c.session.panes.side direction.source).getD .empty), true)).1, .ok ())
      else
        (c.line (c.screen.style.warn "copy target is read-only, nothing copied"),
          .ok ()) := by
  have heditable : (c.session.view Model.files).editable c.session.state
      direction.target 0
      = origin.session.state.editable.get (direction.target.oriented flipped) := by
    rw [Session.view, Model.editable_oriented, h.mirrored, h.state]
    rfl
  simp only [copy, hcopy, act, Session.copy, h.input, heditable]
  cases origin.session.state.editable.get (direction.target.oriented flipped) with
  | true => simp
  | false => simp

/-- A copy edits its target, or nothing, and never fails. -/
theorem copy_edited (h : Edited origin flipped may c) (args : CompareArguments) :
    Edited origin flipped
        (fun side => may side ∨ ∃ direction, args.copy = some direction ∧
          side = direction.target) (copy args c).1 ∧
      (copy args c).2 = .ok () := by
  cases hcopy : args.copy with
  | none => simpa [copy, hcopy] using h
  | some direction =>
    rw [copy_eq h hcopy]
    split
    · refine ⟨(h.applyEdit direction.target _ true).mono fun side hside => ?_, rfl⟩
      exact hside.imp id fun htarget => ⟨direction, rfl, htarget⟩
    · exact ⟨(h.line _).mono fun _ => .inl, rfl⟩

/-! ## The close -/

/-- Everything up to the close. -/
def edited (args : CompareArguments) (c : Comparison) : Stage :=
  andThen (andThen (andThen c.begin (mirror args)) (merge args)) (copy args)

theorem run_eq (args : CompareArguments) (c : Comparison) :
    c.run args = andThen (c.edited args) close := rfl

/-- The sides of the view that a comparison may edit. -/
def Edits (args : CompareArguments) (side : Side) : Prop :=
  (args.merge = true ∧ side = .left) ∨
    ∃ direction, args.copy = some direction ∧ side = direction.target

/-- **Before the close** nothing is saved and nobody is asked, however the
stages end. -/
theorem edited_edited (hinput : c.session.input = none)
    (args : CompareArguments) :
    Edited c (c.session.mirrored ^^ args.mirror) (Edits args)
      (c.edited args).1 := by
  obtain ⟨hopened, hok⟩ := opened hinput args
  have hmerged := merge_edited hopened args
  rw [edited, andThen_of_ok hok, andThen]
  split
  · exact (copy_edited hmerged args).1
  · exact hmerged.mono fun _ => .inl

theorem close_of_clean (h : c.session.isDirty = false) :
    c.close = (c, .ok ()) := by
  simp [close, h]

/-- With edits pending a comparison closes by binding nothing. -/
theorem close_of_dirty (h : c.session.isDirty = true) :
    c.close.1.session = (c.session.bind Model.files none).1 ∧
      c.close.1.screen.asked = (c.act (·.bind Model.files none)).1.screen.asked ∧
      (c.close.2 = .ok () →
        ∃ outcome, (c.session.bind Model.files none).2 = .ok outcome) := by
  simp only [close, h, if_true, act]
  generalize c.session.bind Model.files none = p
  obtain ⟨t, r⟩ := p
  match r with
  | .error e => exact ⟨rfl, rfl, fun hok => by simp [failure] at hok⟩
  | .ok .switched => exact ⟨rfl, rfl, fun _ => ⟨_, rfl⟩⟩
  | .ok .unchanged => exact ⟨rfl, rfl, fun _ => ⟨_, rfl⟩⟩
  | .ok .cancelled => exact ⟨rfl, rfl, fun _ => ⟨_, rfl⟩⟩

theorem Edited.bind_ends (h : Edited origin flipped may c) :
    Session.Switching Model.files (Session.rebind Model.files none) c.session
      (c.session.bind Model.files none).1 (c.session.bind Model.files none).2 :=
  Session.bind_ends (by simp [h.input])

/-- What the saves of the sides that may have been edited keep, a close keeps. -/
theorem close_keeps {P : FileStore → Prop} (h : Edited origin flipped may c)
    (hsave : ∀ {side : Side} {a b : FileStore} {bytes : Option ByteArray}, may side →
      a.save (side.oriented flipped) bytes = .ok b → P a → P b)
    (horigin : P origin.session.state) : P c.close.1.session.state := by
  have hstate : P c.session.state := by rwa [h.state]
  cases hdirty : c.session.isDirty with
  | false => rwa [close_of_clean hdirty]
  | true =>
    rw [(close_of_dirty hdirty).1]
    refine h.bind_ends.keeps_state (Session.follows_rebind _ _) fun resolved => ?_
    cases resolved with
    | unbound => exact hstate
    | bound _ resolved =>
      refine resolved.settled.keeps (fun hflag hsaved => ?_) hstate
      rw [h.mirrored] at hflag
      exact hsave (h.flags _ hflag) (by rwa [Side.oriented_oriented])

/-- A close that is not allowed to save leaves what was there. -/
theorem close_declined (h : Edited origin flipped may c)
    (hpolicy : origin.session.settings.viewer.savePolicy = .confirm)
    {decision : Decision} (hconfirmer : origin.session.confirmer = .fixed decision)
    (hdecision : decision ≠ .save) :
    c.close.1.session.state = origin.session.state := by
  cases hdirty : c.session.isDirty with
  | false =>
    rw [close_of_clean hdirty]
    exact h.state
  | true =>
    rw [(close_of_dirty hdirty).1]
    refine h.bind_ends.keeps_state (P := (· = origin.session.state))
      (Session.follows_rebind _ _) fun resolved => ?_
    cases resolved with
    | unbound => exact h.state
    | @bound input _ _ _ resolved =>
      have hanswer : (c.session.decision Model.files input .inputSwitch).2 ≠ .save := by
        simpa [Session.decision, h.settings, hpolicy, h.confirmer, hconfirmer,
          Confirmer.answer] using hdecision
      exact (resolved.state_of_declined hanswer).trans h.state

/-- A close asks only if that is the policy. -/
theorem close_unasked (h : Edited origin flipped may c)
    (hpolicy : origin.session.settings.viewer.savePolicy ≠ .confirm) :
    c.close.1.screen.asked = origin.screen.asked := by
  cases hdirty : c.session.isDirty with
  | false =>
    rw [close_of_clean hdirty]
    exact h.asked
  | true =>
    rw [(close_of_dirty hdirty).2.1]
    rw [← h.settings] at hpolicy
    exact (asked_act (h.bind_ends.unasked hpolicy
      (Session.unasked_rebind _ _))).trans h.asked

/-- **A close of one edited side**, if nobody is asked: the side is passed over,
or what its pane shows is saved, where no bytes next to a missing file are no
file. -/
theorem close_alone {side : Side} (h : Edited origin flipped (· = side) c)
    (hpolicy : origin.session.settings.viewer.savePolicy ≠ .confirm)
    (hdirty : c.session.dirty.get side = true) (hok : c.close.2 = .ok ()) :
    (origin.session.state.editable.get (side.oriented flipped) = false ∧
        c.close.1.session.state = origin.session.state) ∨
      origin.session.state.save (side.oriented flipped)
        (savedBytes (c.session.panes.side side)
          (origin.session.state.node.content (side.oriented flipped).opposite.pane))
        = .ok c.close.1.session.state := by
  have hpending : c.session.isDirty = true := by
    rw [Session.isDirty]
    cases side <;> simp_all [Sided.get]
  have hother : c.session.dirty.get side.opposite = false := by
    refine Bool.eq_false_iff.mpr fun hd => ?_
    exact side.ne_opposite (h.flags _ hd).symm
  obtain ⟨hsession, -, houtcome⟩ := close_of_dirty hpending
  obtain ⟨outcome, hbound⟩ := houtcome hok
  have hends := h.bind_ends
  rw [hbound] at hends
  obtain ⟨flushed, hflushed, hstate⟩ := hends.flushed (by rwa [h.settings]) h.input
    hpending (Session.follows_rebind _ _)
  rw [hsession, hstate]
  cases hflushed.alone hother with
  | skipped hpassed =>
    refine .inl ⟨?_, h.state⟩
    simpa [Session.pending, Session.view, Model.editable_oriented, Model.files,
      h.mirrored, h.state, hdirty] using hpassed
  | saved _ after hsaved =>
    rw [Session.pendingBytes_eq, h.mirrored, h.state] at hsaved
    exact .inr hsaved

/-! ## From the start to the end -/

/-- What the saves of the sides that are edited keep, a comparison keeps. -/
theorem run_keeps {P : FileStore → Prop} (hinput : c.session.input = none)
    (hsave : ∀ {side : Side} {a b : FileStore} {bytes : Option ByteArray},
      Edits args side →
      a.save (side.oriented (c.session.mirrored ^^ args.mirror)) bytes = .ok b →
      P a → P b)
    (hc : P c.session.state) : P (c.run args).1.session.state := by
  have hedited := edited_edited hinput args
  rw [run_eq, andThen]
  split
  · exact close_keeps hedited hsave hc
  · rwa [hedited.state]

/-- A comparison that does not get as far as the close fails as it stands. -/
theorem run_stopped {e : Chain} (h : (c.edited args).2 = .error e) :
    c.run args = ((c.edited args).1, .error e) := by
  rw [run_eq, andThen, h]

/-- A comparison in which it is answered not to save leaves everything. -/
theorem run_declined (hinput : c.session.input = none) {decision : Decision}
    (hconfirmer : c.session.confirmer = .fixed decision)
    (hpolicy : c.session.settings.viewer.savePolicy = .confirm)
    (hdecision : decision ≠ .save) :
    (c.run args).1.session.state = c.session.state := by
  have hedited := edited_edited hinput args
  rw [run_eq, andThen]
  split
  · exact close_declined hedited hpolicy hconfirmer hdecision
  · exact hedited.state

/-- Only a policy that says so makes a comparison ask. -/
theorem run_unasked (hinput : c.session.input = none)
    (hpolicy : c.session.settings.viewer.savePolicy ≠ .confirm) :
    (c.run args).1.screen.asked = c.screen.asked := by
  have hedited := edited_edited hinput args
  rw [run_eq, andThen]
  split
  · exact close_unasked hedited hpolicy
  · exact hedited.asked

@[simp] theorem editable_settings (s : Settings) (args : CompareArguments) :
    (settings s args).viewer.editable = s.viewer.editable := by
  unfold settings
  split <;> rfl

@[simp] theorem mirrored_settings (s : Settings) (args : CompareArguments) :
    (settings s args).viewer.mirrored = s.viewer.mirrored := by
  unfold settings
  split <;> rfl

/-! ## The start -/

variable {d : Disk} {s : Settings} {selection : Selection} {screen : Screen}

/-- A comparison starts on the files as they are on the disk. -/
theorem start_ok (h : start d s args selection screen = .ok c) :
    (args.merge = true → (settings s args).viewer.mirrored = false) ∧
      ∃ node, (paths args).load d = .ok node ∧
        Session.start? (settings s args)
          ⟨d, paths args, node, (settings s args).viewer.editable⟩
          (.atTerminal selection) = .ok c.session := by
  simp only [start] at h
  split at h
  · simp at h
  · rename_i hturned
    split at h
    · simp at h
    · rename_i node hload
      split at h
      · simp at h
      · rename_i session hsession
        obtain rfl := Except.ok.inj h
        exact ⟨fun hmerge => by simpa [hmerge] using hturned, node, hload, hsession⟩

theorem start_screen (h : start d s args selection screen = .ok c) : c.screen = screen := by
  simp only [start] at h
  split at h
  · simp at h
  · split at h
    · simp at h
    · split at h
      · simp at h
      · obtain rfl := Except.ok.inj h
        rfl

end Command.Comparison

namespace Command

/-! ## Command lines -/

theorem CompareParts.finish_ok {p : CompareParts} {args : CompareArguments}
    (h : p.finish = .ok args) (hmerge : args.merge = true) :
    args.mirror = false ∧ ∃ base, args.ancestor = some base := by
  unfold finish at h
  split at h
  · split at h
    · simp at h
    · rename_i hancestor
      split at h
      · simp at h
      · rename_i hmirror
        obtain rfl := Except.ok.inj h
        simp only at hmerge
        simp only [hmerge, Bool.true_and, Bool.not_eq_true] at hancestor hmirror
        exact ⟨hmirror, Option.isSome_iff_exists.mp (by simpa using hancestor)⟩
  · simp at h

/-- A merge that is asked for has an ancestor, and its view is not turned. -/
theorem Request.merge_ok {line : List String} {config : Option String}
    {args : CompareArguments}
    (h : Request.ofArguments line = .ok (.compare config args))
    (hmerge : args.merge = true) :
    args.mirror = false ∧ ∃ base, args.ancestor = some base := by
  unfold Request.ofArguments at h
  obtain ⟨⟨before, words⟩, -, h⟩ := ok_of_bind h
  cases words with
  | nil => simp at h
  | cons name rest =>
    simp only [readCommand] at h
    split at h
    · obtain ⟨_, -, h⟩ := ok_of_bind h
      simp [pure, Except.pure] at h
    · obtain ⟨_, -, h⟩ := ok_of_bind h
      simp [pure, Except.pure] at h
    · obtain ⟨⟨parts, _⟩, -, h⟩ := ok_of_bind h
      obtain ⟨found, hfinish, h⟩ := ok_of_bind h
      simp only [pure, Except.pure, Except.ok.injEq, Request.compare.injEq] at h
      obtain ⟨-, rfl⟩ := h
      exact CompareParts.finish_ok hfinish hmerge
    · obtain ⟨_, -, h⟩ := ok_of_bind h
      simp at h
    · simp at h

/-! ## Runs of the program -/

variable {d : Disk} {env : Environment} {screen : Screen} {config : Option String}
  {args : CompareArguments} {selection : Selection}

/-- How a comparison from the command line can end. -/
inductive Compared (d : Disk) (env : Environment) (screen : Screen)
    (config : Option String) (args : CompareArguments) (selection : Selection) :
    Outcome → Prop where
  | unsettled {e : Chain} (settings : settingsFor d env config = .error e) :
      Compared d env screen config args selection (fail screen d e)
  | unstarted {s : Settings} {e : Chain} (settings : settingsFor d env config = .ok s)
      (start : Comparison.start d s args selection screen = .error e) :
      Compared d env screen config args selection (fail screen d e)
  | failed {s : Settings} {c t : Comparison} {e : Chain}
      (settings : settingsFor d env config = .ok s)
      (start : Comparison.start d s args selection screen = .ok c)
      (ran : c.run args = (t, .error e)) :
      Compared d env screen config args selection
        (fail t.screen t.session.state.disk e)
  | succeeded {s : Settings} {c t : Comparison}
      (settings : settingsFor d env config = .ok s)
      (start : Comparison.start d s args selection screen = .ok c)
      (ran : c.run args = (t, .ok ())) :
      Compared d env screen config args selection
        (succeed t.screen t.session.state.disk)

theorem compare_ends (d : Disk) (env : Environment) (screen : Screen)
    (config : Option String) (args : CompareArguments) (selection : Selection) :
    Compared d env screen config args selection
      (compare d env screen config args selection) := by
  unfold compare
  cases hsettings : settingsFor d env config with
  | error e => exact .unsettled hsettings
  | ok s =>
    cases hstart : Comparison.start d s args selection screen with
    | error e =>
      simp only [hstart]
      exact .unstarted hsettings hstart
    | ok c =>
      simp only [hstart]
      rcases hran : c.run args with ⟨t, result⟩
      cases result with
      | error e => exact .failed hsettings hstart hran
      | ok _ => exact .succeeded hsettings hstart hran

/-- What holds of the disk and after every run of the stages holds in the end. -/
theorem Compared.disk_of_run {P : Disk → Prop} {outcome : Outcome}
    (h : Compared d env screen config args selection outcome) (hd : P d)
    (hrun : ∀ {s : Settings} {c : Comparison}, settingsFor d env config = .ok s →
      Comparison.start d s args selection screen = .ok c →
      P (c.run args).1.session.state.disk) : P outcome.disk := by
  cases h with
  | unsettled => exact hd
  | unstarted => exact hd
  | failed settings start ran =>
    have hdisk := hrun settings start
    rwa [ran] at hdisk
  | succeeded settings start ran =>
    have hdisk := hrun settings start
    rwa [ran] at hdisk

/-- A comparison that exits well has gone well at every stage. -/
theorem compare_ok (h : (compare d env screen config args selection).exit = 0) :
    ∃ s c, settingsFor d env config = .ok s ∧
      Comparison.start d s args selection screen = .ok c ∧
      (c.run args).2 = .ok () ∧
      (compare d env screen config args selection).disk
        = (c.run args).1.session.state.disk := by
  have hends := compare_ends d env screen config args selection
  generalize compare d env screen config args selection = outcome at h hends ⊢
  cases hends with
  | unsettled | unstarted | failed => simp [fail] at h
  | succeeded settings start ran =>
    exact ⟨_, _, settings, start, by rw [ran], by rw [ran]; rfl⟩

end Command

end Reconcile
