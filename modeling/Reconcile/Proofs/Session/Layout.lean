/-
Reconcile.Proofs.Session.Layout — when the panes have to be laid out again.

Two flags decide whether the ancestor pane is shown: the input has to be
three-way, and the user has to want the pane. They change in different places, a
refresh and the two operations on the pane, and each of these places asks for a
layout by a rule of its own. `Arranged.asksForLayout` says that the rules agree:
an operation asks for one layout if the pane appears or disappears, and for none
if it does not. So the layouts that were asked for tell whether the pane is shown
(`layout_follows_ancestor_pane`).
-/
import Mathlib.Algebra.Ring.Parity
import Reconcile.Proofs.Session.Moves

namespace Reconcile

/-- Whether a call has to do with which panes are shown: their content, the
three-way flag, and the layout. -/
def Call.arranges : Call → Bool
  | content .. | ancestorAvailable .. | relayout | event _ (.threeWay _) => true
  | _ => false

theorem Call.arranges_of_tells {c : Call} (h : c.tells = false) :
    c.arranges = false := by
  cases c <;> simp_all [tells, arranges]

namespace Session

variable {σ : Type} {m : Model σ} {s t u : Session σ}

/-- Whether the ancestor pane is shown. -/
def ancestorShown (s : Session σ) : Bool := s.threeWay && s.ancestorVisible

/-! ## Moves that leave the layout -/

/-- `t` is `s` after something that has no bearing on which panes are shown. -/
structure KeepsLayout (s t : Session σ) : Prop where
  threeWay : t.threeWay = s.threeWay
  visible : t.ancestorVisible = s.ancestorVisible
  toggle : t.ancestorToggle = s.ancestorToggle
  calls : ∃ more, t.calls = s.calls ++ more ∧ ∀ c ∈ more, c.arranges = false

theorem KeepsLayout.refl (s : Session σ) : KeepsLayout s s :=
  ⟨rfl, rfl, rfl, [], by simp, by simp⟩

theorem KeepsLayout.trans (h : KeepsLayout s t) (g : KeepsLayout t u) :
    KeepsLayout s u :=
  ⟨g.threeWay.trans h.threeWay, g.visible.trans h.visible,
    g.toggle.trans h.toggle, Call.appended_trans h.calls g.calls⟩

theorem SmallMove.keepsLayout (h : SmallMove s t) : KeepsLayout s t := by
  cases h with
  | quiet hquiet toggle =>
    obtain ⟨more, hcalls, hmore⟩ := hquiet.calls
    exact ⟨by rw [hquiet.frame], by rw [hquiet.frame], toggle, more, hcalls,
      fun c hc => Call.arranges_of_tells (hmore c hc)⟩
  | flag side value =>
    rw [setDirty_eq]
    refine ⟨rfl, rfl, rfl, _, rfl, fun c hc => ?_⟩
    obtain ⟨l, rfl⟩ := eq_event_of_mem_flagCalls hc
    rfl

theorem Still.keepsLayout (h : Still s t) : KeepsLayout s t := by
  induction h with
  | refl => exact .refl s
  | tail _ small ih => exact ih.trans small.keepsLayout

theorem KeepsLayout.ancestorShown_eq (h : KeepsLayout s t) :
    t.ancestorShown = s.ancestorShown := by
  rw [ancestorShown, h.threeWay, h.visible, ancestorShown]

/-! ## Asking for a layout -/

theorem count_relayout_eq_zero {calls : List Call} (h : ∀ c ∈ calls, c ≠ .relayout) :
    calls.count .relayout = 0 :=
  List.count_eq_zero.mpr fun hmem => h _ hmem rfl

@[simp] theorem count_relayout_announced (s : Session σ) (e : Event) :
    (s.announced e).count .relayout = 0 := by
  refine count_relayout_eq_zero fun c hc => ?_
  obtain ⟨l, rfl⟩ := eq_event_of_mem_announced hc
  nofun

@[simp] theorem count_relayout_toolCalls (s : Session σ) (d : Direction)
    (value : Bool) : (s.toolCalls d value).count .relayout = 0 := by
  unfold toolCalls
  split <;> simp

@[simp] theorem count_relayout_currentHeaders (m : Model σ) (s : Session σ) :
    ((s.input.map fun input => s.headerCalls m input Pane.all).getD []).count
      .relayout = 0 := by
  refine count_relayout_eq_zero fun c hc => ?_
  rintro rfl
  exact nomatch tells_of_mem_currentHeaders hc

/-- Taking in the three-way flag asks for a layout if the pane is wanted and the
flag changes. -/
theorem count_relayout_layoutCalls (s : Session σ) (value : Bool) :
    (s.layoutCalls value).count .relayout =
      if (value && s.ancestorVisible) = s.ancestorShown then 0 else 1 := by
  unfold layoutCalls ancestorShown
  by_cases h : s.threeWay = value
  · simp [h]
  · by_cases hvisible : s.ancestorVisible = true
    · simp [h, Ne.symm h, hvisible]
    · simp [h, hvisible]

/-- Showing or hiding the pane does if that is a change and the input is
three-way. -/
theorem count_relayout_ancestorCalls (s : Session σ) (value : Bool) :
    (s.ancestorCalls value).count .relayout =
      if (s.threeWay && value) = s.ancestorShown then 0 else 1 := by
  unfold ancestorCalls ancestorShown
  by_cases h : s.ancestorVisible = value
  · simp [h]
  · by_cases hthreeWay : s.threeWay = true
    · simp [h, Ne.symm h, hthreeWay]
    · simp [h, hthreeWay]

/-- Of a refresh, it is the three-way flag that may ask for a layout. -/
theorem count_relayout_refreshCalls (m : Model σ) (s : Session σ) :
    (s.refreshCalls m).count .relayout =
      if (s.refresh m).ancestorShown = s.ancestorShown then 0 else 1 := by
  have hshown : (s.refresh m).ancestorShown
      = (s.currentThreeWay m && s.ancestorVisible) := by
    rw [refresh_eq]
    rfl
  rw [hshown, ← count_relayout_layoutCalls]
  simp [refreshCalls]

/-- `t` is `s` after one layout was asked for if the ancestor pane has appeared
or disappeared, and none if it has not. -/
def AsksForLayout (s t : Session σ) : Prop :=
  ∃ more, t.calls = s.calls ++ more ∧
    more.count .relayout = if t.ancestorShown = s.ancestorShown then 0 else 1

theorem KeepsLayout.asks_for_none (h : KeepsLayout s t) :
    ∃ more, t.calls = s.calls ++ more ∧ more.count .relayout = 0 := by
  obtain ⟨more, hcalls, hmore⟩ := h.calls
  refine ⟨more, hcalls, count_relayout_eq_zero fun c hc => ?_⟩
  rintro rfl
  exact nomatch hmore _ hc

theorem KeepsLayout.asksForLayout (h : KeepsLayout s t) : AsksForLayout s t := by
  obtain ⟨more, hcalls, hmore⟩ := h.asks_for_none
  exact ⟨more, hcalls, by rw [hmore, if_pos h.ancestorShown_eq]⟩

/-- What is done before the panes are shown anew asks for no layout. -/
theorem KeepsLayout.asksForLayout_refresh (h : KeepsLayout s t) :
    AsksForLayout s (t.refresh m) := by
  obtain ⟨more, hcalls, hmore⟩ := h.asks_for_none
  refine ⟨more ++ t.refreshCalls m, ?_, ?_⟩
  · rw [refresh_eq, hcalls, List.append_assoc]
  · rw [List.count_append, hmore, Nat.zero_add, count_relayout_refreshCalls,
      h.ancestorShown_eq]

theorem asksForLayout_setAncestorVisible (value : Bool) (s : Session σ) :
    AsksForLayout s (s.setAncestorVisible value).1 := by
  rw [setAncestorVisible_eq]
  exact ⟨_, rfl, count_relayout_ancestorCalls s _⟩

/-- **An operation** asks for a layout exactly if the ancestor pane appears or
disappears. -/
theorem Arranged.asksForLayout {op : Operation σ} (h : Arranged m s op t) :
    AsksForLayout s t := by
  cases h with
  | still h => exact h.keepsLayout.asksForLayout
  | refreshed h => exact h.keepsLayout.asksForLayout_refresh
  | shown value => exact asksForLayout_setAncestorVisible value s
  | locked value =>
    cases value with
    | false => exact (KeepsLayout.refl s).asksForLayout
    | true => exact asksForLayout_setAncestorVisible false s
  | listening _ h listeners => exact h.keepsLayout.asksForLayout

/-! ## The lock -/

/-- The ancestor pane is only ever wanted while it is not locked. -/
def WantedUnlocked (s : Session σ) : Prop :=
  s.ancestorVisible = true → s.ancestorToggle = true

theorem KeepsLayout.wantedUnlocked (h : KeepsLayout s t) (hs : s.WantedUnlocked) :
    t.WantedUnlocked := by
  rw [WantedUnlocked, h.visible, h.toggle]
  exact hs

theorem Arranged.wantedUnlocked {op : Operation σ} (h : Arranged m s op t)
    (hs : s.WantedUnlocked) : t.WantedUnlocked := by
  cases h with
  | still h => exact h.keepsLayout.wantedUnlocked hs
  | refreshed h =>
    rw [refresh_eq]
    exact h.keepsLayout.wantedUnlocked hs
  | shown value =>
    rw [setAncestorVisible_eq]
    cases value with
    | false => nofun
    | true =>
      -- The pane is shown if it is not locked, and stays as it is otherwise.
      cases htoggle : s.ancestorToggle <;>
        simp_all [WantedUnlocked, visibleAfter]
  | locked value =>
    cases value with
    | false => exact fun _ => rfl
    | true =>
      simp [WantedUnlocked, setIgnoreAncestor, setAncestorVisible_eq, visibleAfter]
  | listening _ h listeners => exact h.keepsLayout.wantedUnlocked hs

/-! ## Whole runs -/

/-- The layouts asked for so far tell whether the pane is shown. -/
theorem AsksForLayout.odd_iff (h : AsksForLayout s t)
    (hs : s.ancestorShown = true ↔ Odd (s.calls.count .relayout)) :
    t.ancestorShown = true ↔ Odd (t.calls.count .relayout) := by
  obtain ⟨more, hcalls, hmore⟩ := h
  rw [hcalls, List.count_append, hmore]
  by_cases heq : t.ancestorShown = s.ancestorShown
  · rw [if_pos heq, Nat.add_zero, heq]
    exact hs
  · have hflip : t.ancestorShown = true ↔ ¬ s.ancestorShown = true := by
      rw [Bool.eq_not.mpr heq]
      simp
    rw [if_neg heq, Nat.odd_add_one, ← hs, hflip]

/-- **The panes are laid out again exactly when the ancestor pane appears or
disappears.** After any run from valid settings the pane is wanted only while it
is not locked. Whatever is done next asks for one layout if it changes whether
the pane is shown, and for none if it does not; so the pane is shown exactly if
an odd number of layouts has been asked for. -/
theorem layout_follows_ancestor_pane (m : Model σ) {settings : Settings} {state : σ}
    {confirmer : Confirmer} {start : Session σ}
    (h : start? settings state confirmer = .ok start) (ops : List (Operation σ)) :
    ((start.run m ops).ancestorVisible = true →
      (start.run m ops).ancestorToggle = true) ∧
    (∀ op, ((start.run m ops).callsOf m op).count .relayout =
      if ((start.run m ops).step m op).1.ancestorShown
        = (start.run m ops).ancestorShown then 0 else 1) ∧
    ((start.run m ops).ancestorShown = true ↔
      Odd ((start.run m ops).calls.count .relayout)) := by
  obtain ⟨hthreeWay, -, -, -, hcalls⟩ := start?_told h
  obtain ⟨htoggle, hhidden⟩ := start?_ancestor h
  refine ⟨?_, fun op => ?_, ?_⟩
  · refine run_induction (P := WantedUnlocked) (fun hvisible => ?_)
      (fun t op _ => (step_arranged m t op).wantedUnlocked)
    rw [htoggle]
    cases hignore : settings.viewer.ignoreAncestor with
    | false => rfl
    | true => exact absurd hvisible (by simp [hhidden hignore])
  · obtain ⟨more, hmore, hcount⟩ := (step_arranged m (start.run m ops) op).asksForLayout
    rw [callsOf_eq hmore, hcount]
  · refine run_induction
      (P := fun t => t.ancestorShown = true ↔ Odd (t.calls.count .relayout)) ?_
      (fun t op _ => (step_arranged m t op).asksForLayout.odd_iff)
    simp [ancestorShown, hthreeWay, hcalls]

/-- A document with an ancestor: the pane appears when it is bound, stays when it
is shown anew, and disappears when the ancestor is to be ignored. -/
theorem layout_of_ignored_ancestor :
    let m := Model.shelf Document
    let state : Shelf Document :=
      ⟨[{ contents := ⟨some ⟨#[97]⟩, some ⟨#[98]⟩, some ⟨#[99]⟩⟩ }], ⟨true, true⟩⟩
    let bound : List (Operation (Shelf Document)) := [.bind (some 0)]
    ∃ start, start? { viewer := { ancestorVisible := true } } state
        (.fixed .cancel) = .ok start ∧
      (start.callsOf m (.bind (some 0))).count .relayout = 1 ∧
      ((start.run m bound).callsOf m .refresh).count .relayout = 0 ∧
      ((start.run m bound).callsOf m (.setIgnoreAncestor true)).count .relayout = 1 ∧
      Odd ((start.run m bound).calls.count .relayout) ∧
      (start.run m bound).ancestorToggle = true := by
  intro m state bound
  obtain ⟨start, hstart, hwanted, hshown, hopened, hagain, hclosed⟩ : ∃ start,
      start? { viewer := { ancestorVisible := true } } state
        (.fixed .cancel) = .ok start ∧
      (start.run m bound).ancestorVisible = true ∧
      (start.run m bound).ancestorShown = true ∧
      (start.step m (.bind (some 0))).1.ancestorShown ≠ start.ancestorShown ∧
      ((start.run m bound).step m .refresh).1.ancestorShown
        = (start.run m bound).ancestorShown ∧
      ((start.run m bound).step m (.setIgnoreAncestor true)).1.ancestorShown
        ≠ (start.run m bound).ancestorShown :=
    ⟨_, rfl, by decide +kernel⟩
  obtain ⟨-, hfirst, -⟩ := layout_follows_ancestor_pane m hstart []
  obtain ⟨hlock, hnext, hodd⟩ := layout_follows_ancestor_pane m hstart bound
  exact ⟨start, hstart, (hfirst _).trans (if_neg hopened),
    (hnext _).trans (if_pos hagain), (hnext _).trans (if_neg hclosed),
    hodd.mp hshown, hlock hwanted⟩

end Session

end Reconcile
