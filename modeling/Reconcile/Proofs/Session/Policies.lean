/-
Reconcile.Proofs.Session.Policies — the save policies, over whole runs.

Two of the three policies save pending edits without a question. The third asks,
and if the answer is always to save, it comes to the same: a run under it is a run
under either of the others with questions in its log. The exchange of one for
the other is a `Recast` (`Recast.silent`), and a session that is always told to
save (`ToldToSave`) decides alike before and after it.

What the questions are is `AsksBeforeLosing`: an operation asks exactly if it
would lose edits that are pending, and then once, before it does anything else.

`policies_differ_in_questions` is both, for every run.
-/
import Mathlib.Logic.Function.Iterate
import Reconcile.Proofs.Session.Forgetful

namespace Reconcile

/-- The settings with another policy. -/
def Settings.withPolicy (s : Settings) (policy : SavePolicy) : Settings :=
  { s with viewer := { s.viewer with savePolicy := policy } }

/-- The title of the question, by the reason that is given. -/
def Messages.title (m : Messages) : PromptKind → String
  | .inputSwitch => m.saveTitle
  | .externalChange => m.changedTitle

/-- The text of the question, by the reason that is given. -/
def Messages.text (m : Messages) : PromptKind → String
  | .inputSwitch => m.saveMessage
  | .externalChange => m.changedMessage

/-- However often someone is asked, the answer is to save. -/
def Confirmer.AlwaysSaves (c : Confirmer) : Prop :=
  ∀ (n : Nat) (prompt : Prompt), (Confirmer.next^[n] c).answer prompt = .save

namespace Confirmer.AlwaysSaves

theorem next {c : Confirmer} (h : c.AlwaysSaves) : c.next.AlwaysSaves :=
  fun n => h (n + 1)

theorem fixed : (Confirmer.fixed .save).AlwaysSaves := by
  intro n prompt
  have hsame : Confirmer.next^[n] (.fixed .save) = .fixed .save :=
    Function.iterate_fixed rfl n
  rw [hsame]
  rfl

end Confirmer.AlwaysSaves

namespace Session

variable {σ : Type} {m : Model σ} {s t : Session σ}

/-! ## Saving with and without a question -/

/-- The user is asked, and always says to save. -/
structure ToldToSave (s : Session σ) : Prop where
  policy : s.settings.viewer.savePolicy = .confirm
  confirmer : s.confirmer.AlwaysSaves

theorem ToldToSave.step (h : s.ToldToSave) (m : Model σ) (op : Operation σ) :
    (s.step m op).1.ToldToSave := by
  obtain ⟨hsettings, hconfirmer⟩ := step_answers m s op
  refine ⟨by rw [hsettings, h.policy], ?_⟩
  rcases hconfirmer with hsame | hnext
  · rw [hsame]
    exact h.confirmer
  · rw [hnext]
    exact h.confirmer.next

/-- Another policy and someone else to answer, with the questions taken out of
the log. -/
def Recast.silent (policy : SavePolicy) (confirmer : Confirmer) : Recast where
  settings := (·.withPolicy policy)
  confirmer _ := confirmer
  calls := List.filter (!·.asks)
  carries earlier more h := by
    have hmore : more.filter (!·.asks) = more :=
      List.filter_eq_self.mpr fun c hc => by simp [h c hc]
    rw [List.filter_append, hmore]

/-- Who is always told to save decides as who does not ask. -/
theorem ToldToSave.asksAlike (h : s.ToldToSave) {policy : SavePolicy}
    (hpolicy : policy ≠ .confirm) (confirmer : Confirmer) :
    (Recast.silent policy confirmer).AsksAlike m s := by
  intro input kind
  have hanswer : s.confirmer.answer (s.question m input kind) = .save :=
    h.confirmer 0 _
  rw [decision_of_unasking hpolicy]
  simp [decision, h.policy, hanswer, recast, Recast.silent, emit, Call.asks]

/-- Settings are as valid with one policy as with another. -/
theorem start?_silent {settings : Settings} {state : σ} {confirmer : Confirmer}
    {asking : Session σ}
    (h : start? (settings.withPolicy .confirm) state confirmer = .ok asking)
    (policy : SavePolicy) (other : Confirmer) :
    start? (settings.withPolicy policy) state other
      = .ok (asking.recast (.silent policy other)) := by
  have hcheck : ∀ policy, (settings.withPolicy policy).check = settings.check :=
    fun _ => rfl
  unfold start? at h ⊢
  rw [hcheck] at h ⊢
  split at h
  · simp at h
  · obtain rfl := Except.ok.inj h
    rfl

/-! ## The question -/

/-- When and what an operation asks. -/
structure AsksBeforeLosing (m : Model σ) (messages : Messages) (s : Session σ) :
    Prop where
  /-- An operation asks exactly if an input is bound, edits are pending, and the
  operation would lose them. -/
  asks_iff : ∀ op, (∃ c ∈ s.callsOf m op, c.asks = true) ↔
    (∃ input, s.input = some input) ∧ s.isDirty = true ∧ ∃ kind, s.Asks op kind
  /-- The question comes before anything else and is asked once. It names the
  input that is about to be replaced and the sides that are flagged. -/
  first : ∀ {op kind input}, s.Asks op kind → s.input = some input →
    s.isDirty = true →
    ∃ more, s.callsOf m op = .prompt {
        kind := kind
        title := messages.title kind
        message := messages.text kind
        input := m.name s.state input
        leftDirty := s.dirty.left
        rightDirty := s.dirty.right } :: more ∧
      (s.dirty.left = true ∨ s.dirty.right = true) ∧ ∀ c ∈ more, c.asks = false
  /-- To save, to show anew and to let go is no reason to ask. -/
  never : ∀ op, (∃ side, op = .flush side) ∨ op = .flushAll ∨ op = .refresh ∨
    op = .dispose → ∀ c ∈ s.callsOf m op, c.asks = false

theorem question_eq (m : Model σ) (input : Place) (kind : PromptKind)
    (s : Session σ) :
    s.question m input kind = {
      kind := kind
      title := s.settings.messages.title kind
      message := s.settings.messages.text kind
      input := m.name s.state input
      leftDirty := s.dirty.left
      rightDirty := s.dirty.right } := by
  cases kind <;> rfl

theorem asksBeforeLosing (hpolicy : s.settings.viewer.savePolicy = .confirm)
    (m : Model σ) : AsksBeforeLosing m s.settings.messages s where
  asks_iff := Session.asks_iff hpolicy m
  first {op kind input} hasks hin hdirty := by
    obtain ⟨more, hcalls, hmore⟩ := asks_first hpolicy hasks hin hdirty m
    rw [question_eq] at hcalls
    exact ⟨more, hcalls, (Bool.or_eq_true _ _).mp hdirty, hmore⟩
  never op hop c hc := by
    rw [← Bool.not_eq_true]
    intro hasks
    obtain ⟨-, -, kind, h⟩ := (Session.asks_iff hpolicy m op).mp ⟨c, hc, hasks⟩
    rcases hop with ⟨side, rfl⟩ | rfl | rfl | rfl <;> cases h

/-! ## Whole runs -/

/-- **The policies differ in their questions only.** Take a run that asks, from any
valid settings. If the answer is always to save, the run under another policy,
whoever would answer there, has the same replies and leads to the same session: the same
state, flags, panes and listeners, and the same log without the questions.
Whatever the answers are, any operation that comes after the run asks if it would
lose edits and only then, once and before anything else. -/
theorem policies_differ_in_questions (m : Model σ) {settings : Settings} {state : σ}
    {confirmer : Confirmer} {asking : Session σ}
    (h : start? (settings.withPolicy .confirm) state confirmer = .ok asking)
    (ops : List (Operation σ)) :
    (confirmer.AlwaysSaves → ∀ policy, policy ≠ .confirm → ∀ other,
      ∃ silent, start? (settings.withPolicy policy) state other = .ok silent ∧
        silent.replies m ops = asking.replies m ops ∧
        silent.run m ops = { asking.run m ops with
          settings := settings.withPolicy policy
          confirmer := other
          calls := (asking.run m ops).calls.filter (!·.asks) }) ∧
    AsksBeforeLosing m settings.messages (asking.run m ops) := by
  obtain ⟨-, -, -, hsettings, -⟩ := start?_eq h
  have hrun : (asking.run m ops).settings = settings.withPolicy .confirm :=
    run_induction (P := fun t => t.settings = settings.withPolicy .confirm) hsettings
      fun t op _ ht => (step_answers m t op).1.trans ht
  constructor
  · intro hsaves policy hpolicy other
    have htold : asking.ToldToSave :=
      ⟨by rw [hsettings]; rfl, by rwa [start?_confirmer h]⟩
    have halike : Throughout m ((Recast.silent policy other).AsksAlike m) asking ops := by
      intro part _
      exact (run_induction htold fun t op _ ht => ht.step m op).asksAlike hpolicy other
    refine ⟨_, start?_silent h policy other, replies_recast halike, ?_⟩
    rw [run_recast halike, recast, Recast.silent, hrun]
    rfl
  · have hasks := asksBeforeLosing (s := asking.run m ops) (by rw [hrun]; rfl) m
    rwa [hrun] at hasks

/-- A document whose left side cannot be saved at first. Turning the view fails,
and once the save is no longer refused the document is let go. With a question
or without, the answers are the same; with one, it comes first in either case. -/
theorem policies_with_refused_save :
    let m := (Model.shelf Document).guarded
    let refusing : Model.Guarded (Shelf Document) :=
      ⟨⟨[{ contents := ⟨none, some ⟨#[97]⟩, some ⟨#[97]⟩⟩ }], ⟨true, true⟩⟩,
        ⟨some (.rejected .left "locked"), none⟩⟩
    let past : List (Operation (Model.Guarded (Shelf Document))) :=
      [.bind (some 0), .applyEdit .left ⟨#[98]⟩, .setMirrored true,
        .elsewhere fun g => { g with refusals := ⟨none, none⟩ }]
    ∃ asking silent,
      start? (Settings.withPolicy {} .confirm) refusing (.fixed .save) = .ok asking ∧
      start? (Settings.withPolicy {} .silentFlush) refusing (.fixed .cancel)
        = .ok silent ∧
      silent.replies m (past ++ [.bind none]) =
        [.outcome .switched, .done, .failed (.rejected .left "locked"), .done,
          .outcome .switched] ∧
      ((asking.run m (past ++ [.bind none])).calls.countP (·.asks)) = 2 ∧
      ((silent.run m (past ++ [.bind none])).calls.countP (·.asks)) = 0 ∧
      (silent.run m (past ++ [.bind none])).state
        = (asking.run m (past ++ [.bind none])).state ∧
      ∃ more, (asking.run m past).callsOf m (.bind none) =
        .prompt {
          kind := .inputSwitch
          title := "Save Resource"
          message := "The comparison has been modified. Save changes?"
          input := "document"
          leftDirty := true
          rightDirty := false } :: more := by
  intro m refusing past
  obtain ⟨asking, hasking, hreplies, hcount, hin, hname, hdirty⟩ : ∃ asking,
      start? (Settings.withPolicy {} .confirm) refusing (.fixed .save) = .ok asking ∧
      asking.replies m (past ++ [.bind none]) =
        [.outcome .switched, .done, .failed (.rejected .left "locked"), .done,
          .outcome .switched] ∧
      ((asking.run m (past ++ [.bind none])).calls.countP (·.asks)) = 2 ∧
      (asking.run m past).input = some 0 ∧
      m.name (asking.run m past).state 0 = "document" ∧
      (asking.run m past).dirty = ⟨true, false⟩ :=
    ⟨_, rfl, by decide +kernel⟩
  obtain ⟨hsame, -⟩ := policies_differ_in_questions m hasking (past ++ [.bind none])
  obtain ⟨silent, hsilent, hanswers, hrun⟩ :=
    hsame .fixed .silentFlush (by decide) (.fixed .cancel)
  obtain ⟨-, hasks⟩ := policies_differ_in_questions m hasking past
  have hloses : (asking.run m past).Asks (.bind none) .inputSwitch :=
    .bind (by simp [hin])
  obtain ⟨more, hfirst, -⟩ := hasks.first hloses hin (by simp [isDirty, hdirty])
  refine ⟨asking, silent, hasking, hsilent, hanswers.trans hreplies, hcount, ?_, ?_,
    more, ?_⟩
  · rw [hrun]
    simp [List.countP_filter]
  · rw [hrun]
  · rw [hname, hdirty] at hfirst
    exact hfirst

end Session

end Reconcile
