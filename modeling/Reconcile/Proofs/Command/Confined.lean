/-
Reconcile.Proofs.Command.Confined — the program touches only what it is asked
to touch.

Of the three commands one writes nothing at all, one writes a file where there
is none, and a comparison writes what its saves write. So it is known of a
comparison which files it can change as soon as it is known which sides it
edits, and which of them may be edited (`compare_keeps`): the left side if it
merges, the target of the copy if it copies, seen through the turned view. None
is changed if the question about pending edits is asked and "Save" is not picked,
be it for another answer or because the answers could not be shown
(`compare_declined`), or if the comparison ends before its close.
-/
import Reconcile.Proofs.Command.Stages

namespace Reconcile.Command

open Reconcile.Terminal (Screen)

/-! ## What a comparison is asked to change -/

/-- The side of the files that a comparison is asked to copy to. To turn the
view that the settings turn already is not to turn it. -/
def copyTarget (s : Settings) (args : CompareArguments) (direction : Direction) :
    Side :=
  direction.target.oriented (s.viewer.mirrored ^^ args.mirror)

/-- Whether a comparison is asked to change the file of a side. -/
def AskedFor (s : Settings) (args : CompareArguments) (side : Side) : Prop :=
  (args.merge = true ∧ side = .left) ∨
    ∃ direction, args.copy = some direction ∧ side = copyTarget s args direction

/-- A comparison ends before its close: there are no settings for it, it cannot
start, or one of its stages fails. -/
def StopsEarly (d : Disk) (env : Environment) (screen : Screen)
    (config : Option String) (args : CompareArguments) (selection : Selection) :
    Prop :=
  ∀ s c, settingsFor d env config = .ok s →
    Comparison.start d s args selection screen = .ok c →
    ∃ e, (c.edited args).2 = .error e

variable {d : Disk} {env : Environment} {screen : Screen} {config : Option String}
  {args : CompareArguments} {selection : Selection}

/-- What the writing of the files keeps that a comparison is asked to change
and may change, it keeps. -/
theorem compare_keeps {P : Disk → Prop}
    (hmirror : args.merge = true → args.mirror = false)
    (hwrite : ∀ {s : Settings} {side : Side} {a b : Disk}
      {bytes : Option ByteArray}, settingsFor d env config = .ok s →
      AskedFor s args side → s.viewer.editable.get side = true →
      a.Replaced ((Comparison.paths args).side side) bytes b → P a → P b)
    (hd : P d) : P (compare d env screen config args selection).disk := by
  refine (compare_ends d env screen config args selection).disk_of_run hd ?_
  intro s c hsettings hstart
  obtain ⟨hplain, node, -, hsession⟩ := Comparison.start_ok hstart
  obtain ⟨hinput, -, hstate, -, hturned⟩ := Session.start?_eq hsession
  have hflipped : c.session.mirrored = s.viewer.mirrored := by simp [hturned]
  have hside : ∀ {side : Side}, Comparison.Edits args side →
      AskedFor s args (side.oriented (c.session.mirrored ^^ args.mirror)) := by
    rintro side (⟨hmerge, rfl⟩ | ⟨direction, hcopy, rfl⟩)
    · refine .inl ⟨hmerge, ?_⟩
      rw [hturned, hplain hmerge, hmirror hmerge]
      rfl
    · exact .inr ⟨direction, hcopy, by rw [hflipped, copyTarget]⟩
  -- The saves go to the same files all along, and know what may be edited.
  let keeps (store : FileStore) : Prop :=
    store.paths = Comparison.paths args ∧ store.editable = s.viewer.editable ∧
      P store.disk
  have hsaved : ∀ {side : Side} {a b : FileStore} {bytes : Option ByteArray},
      Comparison.Edits args side →
      a.save (side.oriented (c.session.mirrored ^^ args.mirror)) bytes = .ok b →
      keeps a → keeps b := by
    rintro side a b bytes hedits hsave ⟨hpaths, heditable, ha⟩
    obtain ⟨hallowed, disk, hwritten, rfl⟩ := FileStore.save_ok hsave
    have hreplaced := FileStore.replaced_writeFile hwritten
    rw [hpaths] at hreplaced
    rw [heditable] at hallowed
    exact ⟨hpaths, heditable,
      hwrite hsettings (hside hedits) hallowed hreplaced ha⟩
  have hstarted : keeps c.session.state := by
    rw [hstate]
    exact ⟨rfl, by simp, hd⟩
  exact (Comparison.run_keeps hinput hsaved hstarted).2.2

/-- So it changes nothing but those files. -/
theorem compare_changesOnly {paths : List String}
    (hmirror : args.merge = true → args.mirror = false)
    (hpaths : ∀ {s : Settings} {side : Side}, settingsFor d env config = .ok s →
      AskedFor s args side → s.viewer.editable.get side = true →
      (Comparison.paths args).side side ∈ paths) :
    d.ChangesOnly paths (compare d env screen config args selection).disk := by
  refine compare_keeps hmirror ?_ (.refl d paths)
  intro s side a b bytes hsettings hasked heditable hreplaced ha
  exact ha.trans (hreplaced.changesOnly (hpaths hsettings hasked heditable))

/-- A comparison that ends before its close has failed, and leaves the disk as
it is. -/
theorem compare_stopped (h : StopsEarly d env screen config args selection) :
    (compare d env screen config args selection).exit = 1 ∧
      (compare d env screen config args selection).disk = d := by
  have hends := compare_ends d env screen config args selection
  generalize compare d env screen config args selection = outcome at hends ⊢
  cases hends with
  | unsettled => exact ⟨rfl, rfl⟩
  | unstarted => exact ⟨rfl, rfl⟩
  | @failed s c t e settings start ran =>
    obtain ⟨_, hstopped⟩ := h s c settings start
    rw [Comparison.run_stopped hstopped] at ran
    obtain ⟨rfl, -⟩ := Prod.mk.inj ran
    obtain ⟨-, node, -, hsession⟩ := Comparison.start_ok start
    obtain ⟨hinput, -, hstate, -⟩ := Session.start?_eq hsession
    have hkept := (Comparison.edited_edited hinput args).state
    rw [hstate] at hkept
    exact ⟨rfl, congrArg FileStore.disk hkept⟩
  | @succeeded s c t settings start ran =>
    obtain ⟨_, hstopped⟩ := h s c settings start
    rw [Comparison.run_stopped hstopped] at ran
    simp at ran

/-- One in which the question is asked and "Save" is not picked leaves the disk,
too. -/
theorem compare_declined (hscreen : screen.asked = none)
    (hasked : (compare d env screen config args selection).asked.isSome)
    (hselection : selection ≠ .picked 0) :
    (compare d env screen config args selection).disk = d := by
  have hdecision : selection.decision ≠ .save :=
    fun hsave => hselection (Selection.decision_eq_save_iff.mp hsave)
  have hrun : ∀ {s : Settings} {c : Comparison},
      Comparison.start d s args selection screen = .ok c →
      (c.run args).1.screen.asked.isSome →
      (c.run args).1.session.state.disk = d := by
    intro s c hstart hasked
    obtain ⟨-, node, -, hsession⟩ := Comparison.start_ok hstart
    obtain ⟨hinput, -, hstate, -⟩ := Session.start?_eq hsession
    have hconfirmer := Session.start?_confirmer hsession
    by_cases hpolicy : c.session.settings.viewer.savePolicy = .confirm
    · rw [Comparison.run_declined hinput hconfirmer hpolicy hdecision, hstate]
    · rw [Comparison.run_unasked hinput hpolicy, Comparison.start_screen hstart,
        hscreen] at hasked
      simp at hasked
  have hends := compare_ends d env screen config args selection
  generalize compare d env screen config args selection = outcome at hasked hends ⊢
  cases hends with
  | unsettled => rfl
  | unstarted => rfl
  | failed settings start ran =>
    have hdisk := hrun start
    rw [ran] at hdisk
    exact hdisk hasked
  | succeeded settings start ran =>
    have hdisk := hrun start
    rw [ran] at hdisk
    exact hdisk hasked

/-! ## The other commands -/

/-- To check settings is to read. -/
theorem validate_disk (d : Disk) (env : Environment) (screen : Screen)
    (path : String) (json : Bool) : (validate d env screen path json).disk = d := by
  unfold validate
  split
  · rfl
  · split
    split
    · split <;> rfl
    · split <;> rfl

/-- Settings are written where there is nothing yet. -/
theorem init_disk (d : Disk) (screen : Screen) (output : String) :
    (d.contains output = true → (init d screen output).disk = d) ∧
      ((init d screen output).disk = d ∨
        d.Replaced output (some template.toUTF8) (init d screen output).disk) := by
  unfold init
  split
  · exact ⟨fun _ => rfl, .inl rfl⟩
  · rename_i hfree
    split
    · exact ⟨fun _ => rfl, .inl rfl⟩
    · rename_i written hwritten
      exact ⟨fun hthere => absurd hthere hfree, .inr (Disk.replaced_write hwritten)⟩

/-! ## What the program touches -/

/-- What a comparison leaves alone. -/
structure Confined (d : Disk) (env : Environment) (config : Option String)
    (args : CompareArguments) (selection : Selection) (outcome : Outcome) : Prop where
  /-- Only the two files can change. -/
  files : d.ChangesOnly [args.left, args.right] outcome.disk
  /-- Nothing changes without being asked for. -/
  idle : args.merge = false → args.copy = none → outcome.disk = d
  /-- The question was asked, and the first answer, which is to save, was not
  picked: another one was, or the answers could not be shown. -/
  declined : outcome.asked.isSome → selection ≠ .picked 0 → outcome.disk = d
  stopped : StopsEarly d env { style := styleOf env } config args selection →
    outcome.exit = 1 ∧ outcome.disk = d
  /-- A merge changes the left file. -/
  merged : args.merge = true → args.copy = none →
    d.ChangesOnly [args.left] outcome.disk
  /-- A copy changes the file to which it is made. -/
  copied : ∀ {s : Settings} {direction : Direction},
    settingsFor d env config = .ok s → args.merge = false →
    args.copy = some direction →
    d.ChangesOnly [(Comparison.paths args).side (copyTarget s args direction)]
      outcome.disk
  /-- The file of a side that may not be edited stays as it is, unless it is
  the file of the other side, too. -/
  locked : ∀ {s : Settings} {side : Side}, settingsFor d env config = .ok s →
    s.viewer.editable.get side = false →
    (∀ l, d.locate args.left = .ok l → d.locate args.right ≠ .ok l) →
    ∀ l, d.locate ((Comparison.paths args).side side) = .ok l →
      outcome.disk.entry? l = d.entry? l

theorem compare_confined (hmirror : args.merge = true → args.mirror = false) :
    Confined d env config args selection
      (compare d env { style := styleOf env } config args selection) where
  files := compare_changesOnly hmirror fun {_ side} _ _ _ => by
    cases side <;> simp [Comparison.paths, ComparePaths.side]
  idle hmerge hcopy := by
    refine compare_keeps (P := (· = d)) hmirror ?_ rfl
    rintro s side a b bytes - (⟨hmerged, -⟩ | ⟨direction, hcopied, -⟩)
    · simp [hmerge] at hmerged
    · simp [hcopy] at hcopied
  declined hasked hselection := compare_declined rfl hasked hselection
  stopped hstops := compare_stopped hstops
  merged _ hcopy := by
    refine compare_changesOnly hmirror ?_
    rintro s side - (⟨-, rfl⟩ | ⟨direction, hcopied, -⟩) -
    · simp [Comparison.paths, ComparePaths.side]
    · simp [hcopy] at hcopied
  copied := by
    intro s direction hsettings hmerge hcopy
    refine compare_changesOnly hmirror ?_
    rintro s' side hsettings' (⟨hmerged, -⟩ | ⟨direction', hcopied, rfl⟩) -
    · simp [hmerge] at hmerged
    · obtain rfl := Except.ok.inj (hsettings.symm.trans hsettings')
      obtain rfl := Option.some.inj (hcopy.symm.trans hcopied)
      simp
  locked := by
    intro s side hsettings hfixed hapart l hl
    have hother : d.ChangesOnly [(Comparison.paths args).side side.opposite]
        (compare d env { style := styleOf env } config args selection).disk := by
      refine compare_changesOnly hmirror ?_
      intro s' side' hsettings' _ heditable
      obtain rfl := Except.ok.inj (hsettings.symm.trans hsettings')
      rcases Side.eq_or_eq_opposite side' side with rfl | rfl
      · simp [hfixed] at heditable
      · simp
    refine hother.elsewhere l ?_
    simp only [List.mem_singleton, forall_eq]
    cases side with
    | left => exact hapart l hl
    | right => exact fun hleft => hapart l hleft hl

/-- **The program touches only what it is asked to touch**, whatever is on the
disk, on the command line and in the environment, whatever the system refuses, and
whatever comes of the list of answers on the terminal. A command line that makes
no sense, or asks for help, changes nothing, and neither does a check of settings.
Settings are written where nothing is, or not at all. A comparison leaves alone
what `Confined` says. -/
theorem run_touches_only_what_is_asked (line : List String) (env : Environment)
    (d : Disk) (selection : Selection) :
    let outcome := run line env d selection
    (∀ e, Request.ofArguments line = .error e → outcome.disk = d) ∧
    (∀ path json, Request.ofArguments line = .ok (.validate path json) →
      outcome.disk = d) ∧
    (∀ output, Request.ofArguments line = .ok (.init output) →
      (d.contains output = true → outcome.disk = d) ∧
      (outcome.disk = d ∨
        d.Replaced output (some template.toUTF8) outcome.disk)) ∧
    ∀ config args, Request.ofArguments line = .ok (.compare config args) →
      Confined d env config args selection outcome := by
  intro outcome
  refine ⟨fun e h => ?_, fun path json h => ?_, fun output h => ?_,
    fun config args h => ?_⟩ <;>
    simp only [outcome, run, h]
  · cases e <;> rfl
  · exact validate_disk d env _ path json
  · exact init_disk d _ output
  · exact compare_confined fun hmerge => (Request.merge_ok h hmerge).1

/-- Settings turn the view and keep the right side from being edited. So a copy
to the right of the view is one to the left file, and that alone can change. It
does if "Save" is picked, and does not if "Don't save" is, or if there is no
terminal to pick from. -/
theorem turned_copy_touches_left :
    let files : Disk := {
      home := []
      entries := [(["left"], .file "a\n".toUTF8), (["right"], .file "b\n".toUTF8),
        (["settings"],
          .file "[viewer]\nmirrored = true\nright_editable = false\n".toUTF8)] }
    let line := ["compare", "left", "right", "--copy", "left-to-right",
      "--config", "settings"]
    files.ChangesOnly ["left"] (run line [] files (.picked 0)).disk ∧
      (run line [] files (.picked 0)).disk.read "left" = .ok "b\n".toUTF8 ∧
      (run line [] files (.picked 1)).asked.isSome ∧
      (run line [] files (.picked 1)).disk = files ∧
      (run line [] files .failed).asked.isSome ∧
      (run line [] files .failed).disk = files := by
  intro files line
  have hargs : Request.ofArguments line = .ok (.compare (some "settings") {
      left := "left", right := "right", copy := some .leftToRight }) :=
    ok_of_toOption (by decide +kernel)
  have hsettings : settingsFor files [] (some "settings") = .ok { viewer := {
      mirrored := true, editable := ⟨true, false⟩ } } :=
    ok_of_toOption (by decide +kernel)
  have hconfined : ∀ selection,
      Confined files [] (some "settings") _ selection (run line [] files selection) :=
    fun selection =>
      (run_touches_only_what_is_asked line [] files selection).2.2.2 _ _ hargs
  have hdropped : (run line [] files (.picked 1)).asked.isSome := by decide +kernel
  have hunshown : (run line [] files .failed).asked.isSome := by decide +kernel
  exact ⟨(hconfined _).copied hsettings rfl rfl, ok_of_toOption (by decide +kernel),
    hdropped, (hconfined _).declined hdropped (by decide),
    hunshown, (hconfined _).declined hunshown (by decide)⟩

end Reconcile.Command
