/-
Reconcile.Proofs.Session.IgnoredAncestor — what it comes to that the ancestor is
to be ignored.

A viewer that is set to ignore the ancestor hides the ancestor pane and locks it,
and no operation but the one that lifts the setting shows it again
(`Arranged.paneLocked`). Nothing more comes of it: the setting is not looked at when
an input is shown, so an input that compares three-way is shown and announced as
three-way. `twoWay_step_iff` says when an operation does that, and
`ignored_ancestor_hides_the_pane` when a whole run stays two-way.
-/
import Mathlib.Data.List.Induction
import Reconcile.Proofs.Session.FollowsInput
import Reconcile.Proofs.Session.Layout

namespace Reconcile

/-- Whether a call tells someone that the input is three-way. -/
def Call.tellsThreeWay : Call → Bool
  | ancestorAvailable value | event _ (.threeWay value) => value
  | _ => false

/-- Whether a call is made only when the input is shown anew. -/
def Call.presents : Call → Bool
  | content .. | ancestorAvailable .. | event _ (.threeWay _) => true
  | _ => false

theorem Call.presents_of_arranges {c : Call} (h : c.arranges = false) :
    c.presents = false := by
  cases c with
  | event l e => cases e <;> simp_all [arranges, presents]
  | _ => simp_all [arranges, presents]

theorem Call.tellsThreeWay_of_presents {c : Call} (h : c.presents = false) :
    c.tellsThreeWay = false := by
  cases c with
  | event l e => cases e <;> simp_all [presents, tellsThreeWay]
  | _ => simp_all [presents, tellsThreeWay]

namespace Session

variable {σ : Type} {m : Model σ} {s t u : Session σ}

/-! ## The locked pane -/

/-- The ancestor pane is hidden, and may not be shown. -/
structure PaneLocked (s : Session σ) : Prop where
  hidden : s.ancestorVisible = false
  locked : s.ancestorToggle = false

theorem KeepsLayout.paneLocked (h : KeepsLayout s t) (hs : s.PaneLocked) :
    t.PaneLocked :=
  ⟨h.visible.trans hs.hidden, h.toggle.trans hs.locked⟩

/-- **A locked pane** stays hidden and locked until the lock is lifted. -/
theorem Arranged.paneLocked {op : Operation σ} (h : Arranged m s op t)
    (hop : op ≠ .setIgnoreAncestor false) (hs : s.PaneLocked) : t.PaneLocked := by
  cases h with
  | still h => exact h.keepsLayout.paneLocked hs
  | refreshed h =>
    have hlocked := h.keepsLayout.paneLocked hs
    rw [refresh_eq]
    exact ⟨hlocked.hidden, hlocked.locked⟩
  | shown value =>
    rw [setAncestorVisible_eq]
    exact ⟨by simp [visibleAfter, hs.hidden, hs.locked], hs.locked⟩
  | locked value =>
    cases value with
    | false => exact absurd rfl hop
    | true =>
      refine ⟨?_, rfl⟩
      simp [setIgnoreAncestor, setAncestorVisible_eq, visibleAfter]
  | listening _ h listeners =>
    have hlocked := h.keepsLayout.paneLocked hs
    exact ⟨hlocked.hidden, hlocked.locked⟩

/-! ## Staying two-way -/

/-- The input is shown two-way, and no one has ever been told that it was not. -/
structure TwoWay (s : Session σ) : Prop where
  threeWay : s.threeWay = false
  untold : ∀ c ∈ s.calls, c.tellsThreeWay = false

/-- An operation puts into the panes what is in an input that compares
three-way. -/
def ShowsThreeWay (m : Model σ) (s : Session σ) (op : Operation σ) : Prop :=
  (∃ panes, .content panes ∈ s.callsOf m op) ∧
    ∃ input, (s.step m op).1.input = some input ∧
      m.ComparesThreeWay (s.step m op).1.state input

theorem presents_of_mem_ancestorCalls {value : Bool} {c : Call}
    (h : c ∈ s.ancestorCalls value) : c.presents = false := by
  unfold ancestorCalls at h
  split at h
  · simp at h
  · rcases eq_event_or_relayout_of_mem h with ⟨l, rfl⟩ | rfl <;> rfl

theorem presents_of_mem_toolCalls {d : Direction} {value : Bool} {c : Call}
    (h : c ∈ s.toolCalls d value) : c.presents = false := by
  rcases List.mem_cons.mp h with rfl | h
  · rfl
  · split at h
    · simp at h
    · obtain ⟨l, rfl⟩ := eq_event_of_mem_announced h
      rfl

/-- `t` is `s` after something other than showing the input anew. -/
structure Unpresented (s t : Session σ) : Prop where
  threeWay : t.threeWay = s.threeWay
  calls : ∃ more, t.calls = s.calls ++ more ∧ ∀ c ∈ more, c.presents = false

theorem KeepsLayout.unpresented (h : KeepsLayout s t) : Unpresented s t := by
  obtain ⟨more, hcalls, hmore⟩ := h.calls
  exact ⟨h.threeWay, more, hcalls, fun c hc => Call.presents_of_arranges (hmore c hc)⟩

theorem unpresented_setAncestorVisible (value : Bool) (s : Session σ) :
    Unpresented s (s.setAncestorVisible value).1 := by
  rw [setAncestorVisible_eq]
  exact ⟨rfl, _, rfl, fun c hc => presents_of_mem_ancestorCalls hc⟩

/-- An operation shows the input anew, or leaves it as it is shown. -/
theorem Arranged.presented {op : Operation σ} (h : Arranged m s op t) :
    Unpresented s t ∨ ∃ u, Unpresented s u ∧ t = u.refresh m := by
  cases h with
  | still h => exact .inl h.keepsLayout.unpresented
  | refreshed h => exact .inr ⟨_, h.keepsLayout.unpresented, rfl⟩
  | shown value => exact .inl (unpresented_setAncestorVisible value s)
  | locked value =>
    cases value with
    | false => exact .inl ⟨rfl, [], by simp [setIgnoreAncestor], by simp⟩
    | true =>
      have h := unpresented_setAncestorVisible false s
      exact .inl ⟨h.threeWay, h.calls⟩
  | listening _ h listeners =>
    have h := h.keepsLayout.unpresented
    exact .inl ⟨h.threeWay, h.calls⟩

theorem Unpresented.twoWay (h : Unpresented s t) (hs : s.TwoWay) : t.TwoWay := by
  obtain ⟨more, hcalls, hmore⟩ := h.calls
  refine ⟨h.threeWay.trans hs.threeWay, fun c hc => ?_⟩
  rw [hcalls] at hc
  rcases List.mem_append.mp hc with hc | hc
  · exact hs.untold c hc
  · exact Call.tellsThreeWay_of_presents (hmore c hc)

/-- A refresh that finds nothing three-way tells of nothing three-way. -/
theorem tellsThreeWay_of_mem_refreshCalls (htwo : s.currentThreeWay m = false)
    {c : Call} (hc : c ∈ s.refreshCalls m) : c.tellsThreeWay = false := by
  rw [refreshCalls, htwo] at hc
  rcases List.mem_append.mp hc with hc | hc
  · rcases List.mem_cons.mp hc with rfl | hc
    · rfl
    · split at hc
      · simp at hc
      · rcases eq_event_or_relayout_of_mem hc with ⟨l, rfl⟩ | rfl <;> rfl
  rcases List.mem_cons.mp hc with rfl | hc
  · rfl
  rcases List.mem_append.mp hc with hc | hc
  · exact Call.tellsThreeWay_of_presents
      (Call.presents_of_arranges (Call.arranges_of_tells (tells_of_mem_currentHeaders hc)))
  rcases List.mem_append.mp hc with hc | hc <;>
    exact Call.tellsThreeWay_of_presents (presents_of_mem_toolCalls hc)

theorem TwoWay.refresh_iff (hs : s.TwoWay) :
    (s.refresh m).TwoWay ↔ s.currentThreeWay m = false := by
  rw [refresh_eq]
  constructor
  · exact fun h => h.threeWay
  · refine fun htwo => ⟨htwo, fun c hc => ?_⟩
    rcases List.mem_append.mp hc with hc | hc
    · exact hs.untold c hc
    · exact tellsThreeWay_of_mem_refreshCalls htwo hc

/-- **A two-way viewer stays two-way** unless it shows an input that compares
three-way. -/
theorem TwoWay.step_iff (hs : s.TwoWay) (m : Model σ) (op : Operation σ) :
    (s.step m op).1.TwoWay ↔ ¬ s.ShowsThreeWay m op := by
  rcases (step_arranged m s op).presented with hidle | ⟨u, hidle, hstep⟩
  · refine iff_of_true (hidle.twoWay hs) ?_
    obtain ⟨more, hcalls, hmore⟩ := hidle.calls
    rintro ⟨⟨panes, hpanes⟩, -⟩
    rw [callsOf_eq hcalls] at hpanes
    exact nomatch hmore _ hpanes
  · obtain ⟨more, hcalls, -⟩ := hidle.calls
    have hshown : ∃ panes, .content panes ∈ s.callsOf m op := by
      have hall : (s.step m op).1.calls = s.calls ++ (more ++ u.refreshCalls m) := by
        rw [hstep, refresh_eq, hcalls, List.append_assoc]
      rw [callsOf_eq hall]
      exact ⟨u.currentPanes m, by simp [refreshCalls]⟩
    have hcurrent : u.currentThreeWay m = true ↔ s.ShowsThreeWay m op := by
      rw [ShowsThreeWay, hstep, refresh_eq, currentThreeWay_iff]
      exact ⟨fun h => ⟨hshown, h⟩, fun h => h.2⟩
    rw [← hcurrent, hstep, (hidle.twoWay hs).refresh_iff, Bool.not_eq_true]

/-! ## Whole runs -/

theorem paneLocked_start {settings : Settings} {state : σ} {confirmer : Confirmer}
    {start : Session σ} (h : start? settings state confirmer = .ok start)
    (hignore : settings.viewer.ignoreAncestor = true) : start.PaneLocked := by
  obtain ⟨htoggle, hhidden⟩ := start?_ancestor h
  exact ⟨hhidden hignore, by rw [htoggle, hignore]; rfl⟩

theorem twoWay_start {settings : Settings} {state : σ} {confirmer : Confirmer}
    {start : Session σ} (h : start? settings state confirmer = .ok start) :
    start.TwoWay := by
  obtain ⟨hthreeWay, -, -, -, hcalls⟩ := start?_told h
  exact ⟨hthreeWay, by simp [hcalls]⟩

/-- A run stays two-way exactly if none of its operations shows an input that
compares three-way. -/
theorem TwoWay.throughout_iff (hs : s.TwoWay) (m : Model σ)
    (ops : List (Operation σ)) :
    Throughout m TwoWay s ops ↔
      ∀ part op, part ++ [op] <+: ops → ¬ (s.run m part).ShowsThreeWay m op := by
  constructor
  · intro h part op hpart
    have hlast := h _ hpart
    rw [run_snoc] at hlast
    exact ((h part ((List.prefix_append part [op]).trans hpart)).step_iff m op).mp hlast
  · intro h part hpart
    induction part using List.reverseRecOn with
    | nil => exact hs
    | append_singleton part op ih =>
      have hbefore := ih ((List.prefix_append part [op]).trans hpart)
      rw [run_snoc]
      exact (hbefore.step_iff m op).mpr (h part op hpart)

/-- **To ignore the ancestor hides its pane, and no more.** From valid
settings that say so, and as long as that is not taken back, the pane is hidden
and locked at all times. The input is shown and announced as two-way throughout
exactly if no operation shows an input that compares three-way: a hunk, a kind
with a direction, or, without a kind, an ancestor. -/
theorem ignored_ancestor_hides_the_pane (m : Model σ) {settings : Settings}
    {state : σ} {confirmer : Confirmer} {start : Session σ}
    (h : start? settings state confirmer = .ok start)
    (hignore : settings.viewer.ignoreAncestor = true) {ops : List (Operation σ)}
    (hops : ∀ op ∈ ops, op ≠ .setIgnoreAncestor false) :
    Throughout m PaneLocked start ops ∧
      (Throughout m TwoWay start ops ↔
        ∀ part op, part ++ [op] <+: ops →
          ¬ (start.run m part).ShowsThreeWay m op) := by
  refine ⟨fun part hpart => ?_, (twoWay_start h).throughout_iff m ops⟩
  exact run_induction (paneLocked_start h hignore) fun t op hop =>
    (step_arranged m t op).paneLocked (hops op (hpart.subset hop))

/-- A hunk is bound and the pane asked for: the pane stays hidden and locked, but
the viewer does not stay two-way. -/
theorem ignored_ancestor_of_a_hunk :
    let m := Model.shelf Node
    let hunk : Node := { kind := .change, hunk := true, elements := ⟨none, none, none⟩ }
    let ops : List (Operation (Shelf Node)) :=
      [.bind (some 0), .setAncestorVisible true]
    ∃ start, start? { viewer := { ignoreAncestor := true } } ⟨[hunk], ⟨true, true⟩⟩
        (.fixed .save) = .ok start ∧
      Throughout m PaneLocked start ops ∧ ¬ Throughout m TwoWay start ops := by
  intro m hunk ops
  obtain ⟨start, hstart, hshown, hinput, hhunk⟩ : ∃ start,
      start? { viewer := { ignoreAncestor := true } } ⟨[hunk], ⟨true, true⟩⟩
        (.fixed .save) = .ok start ∧
      .content ⟨none, none, none⟩ ∈ start.callsOf m (.bind (some 0)) ∧
      (start.step m (.bind (some 0))).1.input = some 0 ∧
      m.isHunk (start.step m (.bind (some 0))).1.state 0 = true :=
    ⟨_, rfl, by decide +kernel⟩
  have hops : ∀ op ∈ ops, op ≠ .setIgnoreAncestor false := by
    simp [ops]
  obtain ⟨hlocked, htwoWay⟩ := ignored_ancestor_hides_the_pane m hstart rfl hops
  refine ⟨start, hstart, hlocked, fun h => ?_⟩
  refine htwoWay.mp h [] (.bind (some 0)) (by simp [ops]) ?_
  exact ⟨⟨_, hshown⟩, 0, hinput, .hunk hhunk⟩

/-- A document with an ancestor is shown three-way although the ancestor is to be
ignored: the flag is set, the event is heard, and the pane is said to be
available. -/
theorem ignored_ancestor_still_shown :
    let m := Model.shelf Document
    let state : Shelf Document :=
      ⟨[{ contents := ⟨some ⟨#[97]⟩, some ⟨#[98]⟩, some ⟨#[99]⟩⟩ }], ⟨true, true⟩⟩
    let ops : List (Operation (Shelf Document)) := [.addListener 0, .bind (some 0)]
    ∃ start, start? { viewer := { ignoreAncestor := true } } state
        (.fixed .save) = .ok start ∧
      (∀ op ∈ ops, op ≠ .setIgnoreAncestor false) ∧
      (start.run m ops).threeWay = true ∧
      .event 0 (.threeWay true) ∈ (start.run m ops).calls ∧
      .ancestorAvailable true ∈ (start.run m ops).calls ∧
      (start.run m ops).PaneLocked := by
  intro m state ops
  obtain ⟨start, hstart, hthreeWay, hheard, htold, hhidden, hlocked⟩ : ∃ start,
      start? { viewer := { ignoreAncestor := true } } state
        (.fixed .save) = .ok start ∧
      (start.run m ops).threeWay = true ∧
      .event 0 (.threeWay true) ∈ (start.run m ops).calls ∧
      .ancestorAvailable true ∈ (start.run m ops).calls ∧
      (start.run m ops).ancestorVisible = false ∧
      (start.run m ops).ancestorToggle = false :=
    ⟨_, rfl, by decide +kernel⟩
  exact ⟨start, hstart, by simp [ops], hthreeWay, hheard, htold, hhidden, hlocked⟩

end Session

end Reconcile
