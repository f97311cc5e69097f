/-
Reconcile.Proofs.Command.MergeOnDisk — what a merge from the command line
leaves on the disk.

A comparison is followed stage by stage: it reads the files (`load_ok`),
shows them (`opened`), puts the merge into the left pane (`merge_ok`) and
saves it when it closes (`close_alone`). Nothing on the way asks whether the left
side may be edited, except for the very last step: a side that may not be
edited is passed over by the save, its flag is cleared all the same, and the
comparison is closed as if it had been saved.

So a merge that is reported is on the disk exactly when the left side may be
edited, or was what the merge is to begin with (`merge_on_disk_iff`).
-/
import Reconcile.Proofs.Command.Stages

namespace Reconcile.Command

/-! ## The stages of a merge -/

namespace Comparison

/-- A merge that is made is that of what the panes show; it is put into the
left pane unless it is there already. -/
theorem merge_ok {origin c : Comparison} {args : CompareArguments}
    (hopened : Opened origin false c) (hmerge : args.merge = true)
    (h : (merge args c).2 = .ok ()) :
    ∃ ancestor merged,
      origin.session.state.node.content .ancestor = some ancestor ∧
      Merge.ofBytes ancestor
        ((origin.session.state.node.content .left).getD .empty)
        ((origin.session.state.node.content .right).getD .empty) = some merged ∧
      if merged.content.toUTF8
          = (origin.session.state.node.content .left).getD .empty then
        (merge args c).1.session = c.session
      else (merge args c).1.session
        = c.session.applyEdit .left merged.content.toUTF8 := by
  have hancestor : c.session.panes.ancestor
      = origin.session.state.node.content .ancestor := hopened.panes .ancestor
  have hleft : c.session.panes.left = origin.session.state.node.content .left :=
    hopened.panes .left
  have hright : c.session.panes.right = origin.session.state.node.content .right :=
    hopened.panes .right
  simp only [merge, hmerge, if_true, hancestor, hleft, hright] at h ⊢
  cases hsome : origin.session.state.node.content .ancestor with
  | none => simp [hsome] at h
  | some ancestor =>
    simp only [hsome] at h ⊢
    cases hmerged : Merge.ofBytes ancestor
        ((origin.session.state.node.content .left).getD .empty)
        ((origin.session.state.node.content .right).getD .empty) with
    | none => simp [hmerged] at h
    | some merged =>
      refine ⟨ancestor, merged, rfl, hmerged, ?_⟩
      by_cases hsame : merged.content.toUTF8
          = (origin.session.state.node.content .left).getD .empty
      · simp only [hsame, if_true]
        split <;> rfl
      · simp only [hsame, if_false, act]
        split <;> rfl

/-- A comparison that is asked to merge and not to copy: what it merges, and
what it leaves behind. -/
theorem run_ok {c : Comparison} {args : CompareArguments}
    {store : FileStore} {settings : Settings} {confirmer : Confirmer}
    (hstart : Session.start? settings store confirmer = .ok c.session)
    (hmirrored : settings.viewer.mirrored = false)
    (hpolicy : settings.viewer.savePolicy = .silentFlush)
    (hmerge : args.merge = true) (hmirror : args.mirror = false)
    (hcopy : args.copy = none) (h : (c.run args).2 = .ok ()) :
    ∃ ancestor merged, store.node.content .ancestor = some ancestor ∧
      Merge.ofBytes ancestor ((store.node.content .left).getD .empty)
        ((store.node.content .right).getD .empty) = some merged ∧
      ((merged.content.toUTF8 = (store.node.content .left).getD .empty ∨
          store.editable.left = false) ∧ (c.run args).1.session.state = store ∨
        store.save .left
            (savedBytes (some merged.content.toUTF8) (store.node.content .right))
          = .ok (c.run args).1.session.state) := by
  obtain ⟨hinput, -, hstate, hsettings, hturned⟩ := Session.start?_eq hstart
  have hasks : c.session.settings.viewer.savePolicy ≠ .confirm := by
    simp [hsettings, hpolicy]
  obtain ⟨hopened, hok⟩ := opened hinput args
  rw [hturned, hmirrored, hmirror, Bool.xor_false] at hopened
  have hnocopy : ∀ c : Comparison, copy args c = (c, .ok ()) := by
    simp [copy, hcopy]
  rw [run_eq, edited, andThen_of_ok hok] at h ⊢
  obtain ⟨hcopied, hclose⟩ := andThen_ok h
  obtain ⟨hmerged, hcopyEq⟩ := andThen_ok hcopied
  rw [hclose, hcopyEq, hnocopy] at h ⊢
  have hedited := merge_edited hopened args
  obtain ⟨ancestor, merged, hancestor, hmergeEq, hsession⟩ :=
    merge_ok hopened hmerge hmerged
  generalize merge args (andThen c.begin (mirror args)).1 = last at h hedited hsession ⊢
  rw [hstate] at hancestor hmergeEq hsession
  refine ⟨ancestor, merged, hancestor, hmergeEq, ?_⟩
  split at hsession
  · rename_i hsame
    have hclean : last.1.session.isDirty = false := by
      rw [hsession, Session.isDirty_eq_false_iff]
      exact hopened.clean
    refine .inl ⟨.inl hsame, ?_⟩
    rw [close_of_clean hclean, hedited.state, hstate]
  · rw [Session.applyEdit_eq] at hsession
    have hdirty : last.1.session.dirty.get .left = true := by
      simp [hsession]
    have hpane : last.1.session.panes.side .left = some merged.content.toUTF8 := by
      simp [hsession]
    have hleft := close_alone (hedited.mono fun _ => And.right) hasks hdirty h
    rw [hpane, hstate] at hleft
    exact hleft.imp (fun hpassed => ⟨.inr hpassed.1, hpassed.2⟩) id

end Comparison

/-! ## Runs of the program -/

/-- **A merge that is reported is on the disk exactly when the left side may
be edited**, or holds what the merge is to begin with. Whatever is on the
disk and in the settings, a comparison that is asked to merge without asking
back and exits well has merged what the three files hold. If the left side
may not be edited, the disk stays as it is, and nothing is said about that. -/
theorem merge_on_disk_iff {line : List String} {env : Environment} {d : Disk}
    {selection : Selection} {config : Option String} {args : CompareArguments}
    (hargs : Request.ofArguments line = .ok (.compare config args))
    (hmerge : args.merge = true) (hyes : args.yes = true)
    (hcopy : args.copy = none) (hexit : (run line env d selection).exit = 0) :
    ∃ settings base ancestor left right merged,
      settingsFor d env config = .ok settings ∧
      args.ancestor = some base ∧ d.read base = .ok ancestor ∧
      d.Holds args.left left ∧ d.Holds args.right right ∧
      Merge.ofBytes ancestor left right = some merged ∧
      ((run line env d selection).disk.Holds args.left merged.content.toUTF8 ↔
        settings.viewer.editable.left = true ∨ left = merged.content.toUTF8) ∧
      (settings.viewer.editable.left = false →
        (run line env d selection).disk = d) := by
  obtain ⟨hmirror, base, hbase⟩ := Request.merge_ok hargs hmerge
  simp only [run, hargs] at hexit ⊢
  obtain ⟨s, c, hsettings, hstart, hrun, hdisk⟩ := compare_ok hexit
  obtain ⟨hturned, node, hload, hsession⟩ := Comparison.start_ok hstart
  obtain ⟨⟨_, hread, hancestor⟩, hleft, hright⟩ :=
    ComparePaths.load_ok (p := Comparison.paths args) hbase hload
  have hpolicy : (Comparison.settings s args).viewer.savePolicy = .silentFlush := by
    simp [Comparison.settings, hyes]
  have heditable : (Comparison.settings s args).viewer.editable = s.viewer.editable := by
    simp [Comparison.settings, hyes]
  obtain ⟨ancestor, merged, hsome, hmerged, houtcome⟩ :=
    Comparison.run_ok hsession (hturned hmerge) hpolicy hmerge hmirror hcopy hrun
  obtain rfl := Option.some.inj (hancestor.symm.trans hsome)
  refine ⟨s, base, _, _, _, merged, hsettings, hbase, hread, hleft, hright,
    hmerged, ?_⟩
  rw [hdisk]
  rcases houtcome with ⟨hkept, hstate⟩ | hsave
  · rw [hstate]
    refine ⟨⟨fun hholds => .inr (hleft.eq hholds), fun h => ?_⟩, fun _ => rfl⟩
    rw [heditable] at hkept
    have hsame : merged.content.toUTF8 = (node.content .left).getD .empty := by
      rcases h with heditable | hsame
      · exact hkept.resolve_right (by simp [heditable])
      · exact hsame.symm
    rw [hsame]
    exact hleft
  · obtain ⟨hwritable, disk, hwrite, hafter⟩ := FileStore.save_ok hsave
    have hwritten : s.viewer.editable.left = true := by
      rw [← heditable]
      exact hwritable
    have hholds := FileStore.holds_of_writeFile hwrite
    rw [getD_savedBytes] at hholds
    rw [hafter]
    refine ⟨⟨fun _ => .inl hwritten, fun _ => hholds⟩, fun hfixed => ?_⟩
    simp [hwritten] at hfixed

/-- The right file has changed, and the left one may be edited. -/
theorem merge_on_disk_of_editable :
    let files : Disk := {
      home := []
      entries := [(["base"], .file "a\n".toUTF8), (["left"], .file "a\n".toUTF8),
        (["right"], .file "b\n".toUTF8)] }
    let line := ["compare", "left", "right", "--ancestor", "base", "--merge", "--yes"]
    (run line [] files .failed).exit = 0 ∧
      (run line [] files .failed).disk.Holds "left" "b\n".toUTF8 := by
  intro files line
  have hargs : Request.ofArguments line = .ok (.compare none {
      left := "left", right := "right", ancestor := some "base"
      merge := true, yes := true }) := ok_of_toOption (by decide +kernel)
  have hexit : (run line [] files .failed).exit = 0 := by decide +kernel
  obtain ⟨s, base, ancestor, left, right, merged, hsettings, hbase, hread, hleft,
    hright, hmerged, hiff, -⟩ := merge_on_disk_iff hargs rfl rfl rfl hexit
  have hdefault : settingsFor files [] none = .ok {} :=
    ok_of_toOption (by decide +kernel)
  obtain rfl := Except.ok.inj (hdefault.symm.trans hsettings)
  obtain rfl : "base" = base := Option.some.inj hbase
  have hold : files.read "base" = .ok "a\n".toUTF8 :=
    ok_of_toOption (by decide +kernel)
  obtain rfl := Except.ok.inj (hold.symm.trans hread)
  have hleftFile : files.content? "left" = some "a\n".toUTF8 := by decide +kernel
  have hrightFile : files.content? "right" = some "b\n".toUTF8 := by decide +kernel
  obtain rfl := hleft.eq (.inl hleftFile)
  obtain rfl := hright.eq (.inl hrightFile)
  have hclean : Merge.ofBytes "a\n".toUTF8 "a\n".toUTF8 "b\n".toUTF8
      = some (.clean "b\n") := by decide +kernel
  obtain rfl := Option.some.inj (hclean.symm.trans hmerged)
  exact ⟨hexit, hiff.mpr (.inl rfl)⟩

/-- The same with settings that say that the left side may not be edited: the
merge is reported as before, and the left file is not touched. -/
theorem merge_reported_but_not_on_disk :
    let files : Disk := {
      home := []
      entries := [(["base"], .file "a\n".toUTF8), (["left"], .file "a\n".toUTF8),
        (["right"], .file "b\n".toUTF8),
        (["settings"], .file "[viewer]\nleft_editable = false\n".toUTF8)] }
    let line := ["compare", "left", "right", "--ancestor", "base", "--merge",
      "--yes", "--config", "settings"]
    let outcome := run line [] files .failed
    outcome.exit = 0 ∧
      outcome.out = "right - left\n--- original\n+++ modified\n@@ -1 +1 @@\n" ++
        "-a\n+b\nancestor base ???\nleft     left ???\nright    right ???\n" ++
        "✓ merged without conflicts\n✓ comparison closed\n" ∧
      (Merge.ofBytes "a\n".toUTF8 "a\n".toUTF8 "b\n".toUTF8).map (·.content)
        = some "b\n" ∧
      outcome.disk = files := by
  decide +kernel

end Reconcile.Command
