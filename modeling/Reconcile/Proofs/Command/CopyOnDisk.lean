/-
Reconcile.Proofs.Command.CopyOnDisk — what a copy from the command line leaves
on the disk.

A pane cannot tell a missing file from an empty one, so a copy of a missing
file puts no bytes into the pane of the target. When these are saved they are
taken for no file at all, since the other side, which is the source, has none;
and they would not be if the source were an empty file (`savedBytes_getD`). So a
copy is exact (`copy_on_disk`), unless the target may not be edited: then nothing
is copied, and the last line of the output is about that.
-/
import Reconcile.Proofs.Command.Confined

namespace Reconcile.Command

open Reconcile.Terminal (Style)

/-- The side of the files that a comparison is asked to copy from. -/
def copySource (s : Settings) (args : CompareArguments) (direction : Direction) :
    Side :=
  direction.source.oriented (s.viewer.mirrored ^^ args.mirror)

theorem opposite_copyTarget (s : Settings) (args : CompareArguments)
    (direction : Direction) :
    (copyTarget s args direction).opposite = copySource s args direction := by
  rw [copyTarget, ← Side.opposite_oriented, Direction.target,
    Side.opposite_opposite, copySource]

/-- The sign in front of a warning, which is yellow if there are to be colours. -/
def warningSign (env : Environment) : String :=
  if (styleOf env).colour then "\x1b[33m⚠\x1b[0m" else "⚠"

theorem warn_eq (env : Environment) (text : String) :
    (styleOf env).warn text = warningSign env ++ " " ++ text := by
  rw [Style.warn, Style.paint, warningSign]
  split
  · rfl
  · rfl

namespace Comparison

variable {c t : Comparison} {args : CompareArguments} {direction : Direction}

/-- A comparison that is asked to copy and not to merge, without being asked
back: what it saves, or what it says. -/
theorem copy_ok (hinput : c.session.input = none)
    (hpolicy : c.session.settings.viewer.savePolicy ≠ .confirm)
    (hmerge : args.merge = false) (hcopy : args.copy = some direction) {target : Side}
    (htarget : direction.target.oriented (c.session.mirrored ^^ args.mirror) = target)
    (h : c.run args = (t, .ok ())) :
    (c.session.state.editable.get target = true →
      c.session.state.save target
        (c.session.state.node.content target.opposite.pane) = .ok t.session.state) ∧
    (c.session.state.editable.get target = false →
      t.session.state = c.session.state ∧
        ∃ before, t.screen.out = before ++
          (c.screen.style.warn "copy target is read-only, nothing copied" ++ "\n")) := by
  obtain ⟨hopened, hok⟩ := opened hinput args
  rw [run_eq, edited, andThen_of_ok hok] at h
  generalize (andThen c.begin (mirror args)).1 = o at h hopened
  have hnomerge : merge args o = (o, .ok ()) := by simp [merge, hmerge]
  rw [hnomerge, andThen_of_ok (r := (o, .ok ())) rfl,
    copy_eq hopened.toEdited hcopy, htarget] at h
  constructor
  · intro heditable
    rw [if_pos heditable] at h
    -- The pane of the source shows what is stored on the side that is opposite
    -- to the target.
    have hsource : o.session.panes.side direction.source
        = c.session.state.node.content target.opposite.pane := by
      rw [hopened.side_panes, ← htarget, ← Side.opposite_oriented, Direction.target,
        Side.opposite_opposite]
    have hedited := hopened.toEdited.applyEdit direction.target
      ((o.session.panes.side direction.source).getD .empty) true
    generalize hlast : (o.act fun s => (s.applyEdit direction.target
      ((o.session.panes.side direction.source).getD .empty), true)).1 = last
      at h hedited
    have hsession : last.session = o.session.applyEdit direction.target
        ((o.session.panes.side direction.source).getD .empty) := by
      rw [← hlast]
      rfl
    rw [Session.applyEdit_eq] at hsession
    have hdirty : last.session.dirty.get direction.target = true := by
      simp [hsession]
    have hpane : last.session.panes.side direction.target
        = some ((o.session.panes.side direction.source).getD .empty) := by
      simp [hsession]
    have hclose : last.close = (t, .ok ()) := h
    have hsaved := close_alone (hedited.mono fun _ hside => hside.resolve_left id)
      hpolicy hdirty (by rw [hclose])
    rw [hpane, hsource, htarget, savedBytes_getD, hclose] at hsaved
    refine hsaved.resolve_left fun hpassed => ?_
    simp [hpassed.1] at heditable
  · intro hfixed
    rw [if_neg (by simp [hfixed])] at h
    generalize hwarned : o.line (o.screen.style.warn
      "copy target is read-only, nothing copied") = warned at h
    have hsession : warned.session = o.session := by rw [← hwarned, line]
    have hclean : warned.session.isDirty = false := by
      rw [hsession, Session.isDirty_eq_false_iff]
      exact hopened.clean
    have hclose : warned.close = (t, .ok ()) := h
    rw [close_of_clean hclean] at hclose
    obtain ⟨rfl, -⟩ := Prod.mk.inj hclose
    refine ⟨by rw [hsession, hopened.state], o.screen.out, ?_⟩
    rw [← hwarned, ← hopened.style]
    rfl

end Comparison

/-- **A copy is exact, absence included.** Whatever is on the disk, in the
settings and in the environment, and whatever the system refuses: a comparison
that is asked to copy without asking back, and not to merge, and that exits well,
leaves at the path of the target what was found at the path of the source, be
that text or not, an empty file or none, and still finds it at the path of the
source. If the target may not be edited, it leaves the disk as it is, and the
last line that is printed tells that nothing was copied. -/
theorem copy_on_disk {line : List String} {env : Environment} {d : Disk}
    {selection : Selection} {config : Option String} {args : CompareArguments}
    {direction : Direction}
    (hargs : Request.ofArguments line = .ok (.compare config args))
    (hcopy : args.copy = some direction) (hyes : args.yes = true)
    (hmerge : args.merge = false) (hexit : (run line env d selection).exit = 0) :
    ∃ settings content, settingsFor d env config = .ok settings ∧
      let target := (Comparison.paths args).side (copyTarget settings args direction)
      let source := (Comparison.paths args).side (copySource settings args direction)
      let outcome := run line env d selection
      d.Found source content ∧
      (settings.viewer.editable.get (copyTarget settings args direction) = true →
        outcome.disk.Found target content ∧ outcome.disk.Found source content) ∧
      (settings.viewer.editable.get (copyTarget settings args direction) = false →
        outcome.disk = d ∧
          ∃ before, outcome.out = before ++ warningSign env ++
            " copy target is read-only, nothing copied\n") := by
  have hends := compare_ends d env { style := styleOf env } config args selection
  simp only [run, hargs] at hexit ⊢
  generalize compare d env { style := styleOf env } config args selection = outcome
    at hexit hends ⊢
  cases hends with
  | unsettled | unstarted | failed => simp [fail] at hexit
  | @succeeded s c t hsettings hstart hran =>
    obtain ⟨-, node, hload, hsession⟩ := Comparison.start_ok hstart
    obtain ⟨hinput, -, hstate, hused, hturned⟩ := Session.start?_eq hsession
    have hpolicy : c.session.settings.viewer.savePolicy ≠ .confirm := by
      simp [hused, Comparison.settings, hyes]
    have htarget : direction.target.oriented (c.session.mirrored ^^ args.mirror)
        = copyTarget s args direction := by
      rw [hturned, Comparison.mirrored_settings, copyTarget]
    obtain ⟨hsaved, hpassed⟩ :=
      Comparison.copy_ok hinput hpolicy hmerge hcopy htarget hran
    rw [hstate, Comparison.editable_settings] at hsaved hpassed
    rw [opposite_copyTarget] at hsaved
    have hfound := ComparePaths.load_found (p := Comparison.paths args) hload
      (copySource s args direction)
    refine ⟨s, _, hsettings, hfound, fun heditable => ?_, fun hfixed => ?_⟩
    · obtain ⟨-, disk, hwritten, hafter⟩ := FileStore.save_ok (hsaved heditable)
      have hreplaced := FileStore.replaced_writeFile hwritten
      have hdisk : (succeed t.screen t.session.state.disk).disk = disk := by
        rw [hafter]
        rfl
      rw [hdisk]
      exact ⟨hreplaced.found, hreplaced.found_of_found hfound⟩
    · obtain ⟨hkept, before, hsaid⟩ := hpassed hfixed
      rw [Comparison.start_screen hstart, warn_eq] at hsaid
      refine ⟨congrArg FileStore.disk hkept, before, hsaid.trans ?_⟩
      simp only [String.append_assoc]
      rfl

/-- A missing file and an empty one are copied over one that holds no text, in
a view that is turned: in the first case that is removed, in the second emptied.
A side that settings keep from being edited is not copied to. -/
theorem copies_of_missing_and_empty_file :
    let missing : Disk := {
      home := []
      entries := [(["right"], .file ⟨#[0, 255]⟩)] }
    let empty : Disk := {
      home := []
      entries := [(["left"], .file .empty), (["right"], .file ⟨#[0, 255]⟩)] }
    let locked : Disk := {
      home := []
      entries := [(["left"], .file .empty), (["right"], .file ⟨#[0, 255]⟩),
        (["settings"], .file "[viewer]\nright_editable = false\n".toUTF8)] }
    let line := ["compare", "left", "right", "--copy", "right-to-left", "--mirror",
      "--yes"]
    (run line [] missing .failed).disk.Found "right" none ∧
      (run line [] empty .failed).disk.Found "right" (some .empty) ∧
      (run (line ++ ["--config", "settings"]) [] locked .failed).disk = locked ∧
      ∃ before, (run (line ++ ["--config", "settings"]) [] locked .failed).out =
        before ++ "⚠ copy target is read-only, nothing copied\n" := by
  intro missing empty locked line
  have hargs : Request.ofArguments line = .ok (.compare none {
      left := "left", right := "right", copy := some .rightToLeft
      mirror := true, yes := true }) := ok_of_toOption (by decide +kernel)
  have hargs' : Request.ofArguments (line ++ ["--config", "settings"]) =
      .ok (.compare (some "settings") {
        left := "left", right := "right", copy := some .rightToLeft
        mirror := true, yes := true }) := ok_of_toOption (by decide +kernel)
  have hcopied : ∀ (files : Disk) (content : Option ByteArray),
      (run line [] files .failed).exit = 0 → settingsFor files [] none = .ok {} →
      files.Found "left" content →
      (run line [] files .failed).disk.Found "right" content := by
    intro files content hexit hdefault hfound
    obtain ⟨s, copied, hsettings, hsource, htarget, -⟩ :=
      copy_on_disk hargs rfl rfl rfl hexit
    obtain rfl := Except.ok.inj (hdefault.symm.trans hsettings)
    obtain rfl := hsource.eq hfound
    exact (htarget rfl).1
  have hnone : missing.Found "left" none := by
    show missing.contains "left" = false
    decide +kernel
  have hempty : empty.Found "left" (some .empty) := by
    show empty.content? "left" = some .empty
    decide +kernel
  refine ⟨hcopied missing none (by decide +kernel) (ok_of_toOption (by decide +kernel))
      hnone,
    hcopied empty _ (by decide +kernel) (ok_of_toOption (by decide +kernel)) hempty, ?_⟩
  have hexit : (run (line ++ ["--config", "settings"]) [] locked .failed).exit = 0 := by
    decide +kernel
  obtain ⟨s, content, hsettings, -, -, hfixed⟩ := copy_on_disk hargs' rfl rfl rfl hexit
  have hlocked : settingsFor locked [] (some "settings") =
      .ok { viewer := { editable := ⟨true, false⟩ } } :=
    ok_of_toOption (by decide +kernel)
  obtain rfl := Except.ok.inj (hlocked.symm.trans hsettings)
  obtain ⟨hdisk, before, hout⟩ := hfixed rfl
  exact ⟨hdisk, before, hout.trans String.append_assoc⟩

end Reconcile.Command
