/-
Reconcile.Proofs.Session.Provenance — no edit is saved to the wrong place.

A flag belongs to a side of the view and a save goes to a side of the
model, so an edit could end up elsewhere if a flag or a pane outlived the
input it was made for, or a turn of the view. None does. The proof follows
two things backwards through a run:

* `flag_origin` — a flag that is set while an input is bound was set while
  that input was bound, in the view as it is turned now;
* `pane_origin` — what a pane shows was put there while the bound input was
  bound, in the view as it is turned now.

Both are inductions on the run from its end. What carries them is that an
operation that changes the bound input or turns the view leaves no flag set
(`dirty_step`) and fills the panes anew (`panes_step`).
`saves_stay_in_place` puts the two together with what the log says of the
saves themselves.
-/
import Mathlib.Data.List.Induction
import Reconcile.Proofs.Session.Runs
import Reconcile.Proofs.Session.Seen

namespace Reconcile.Session

variable {σ : Type}

/-! ## Back through a run -/

/-- **Where a flag comes from**: it was set while the input that is bound
now was bound, with the view turned as it is now. Nothing has rebound the
input, turned the view or cleared the flag since. -/
theorem flag_origin {m : Model σ} {start : Session σ}
    (hclean : start.dirty = ⟨false, false⟩) (side : Side) (input : Place)
    (past : List (Operation σ)) :
    (start.run m past).input = some input →
    (start.run m past).dirty.get side = true →
    Since m
      (fun t => t.Shows input (start.run m past).mirrored ∧
        t.dirty.get side = true)
      (fun s op => s.Shows input (start.run m past).mirrored ∧
        Flags m side s op)
      start past := by
  induction past using List.reverseRecOn with
  | nil =>
    intro _ hd
    rw [run_nil, hclean] at hd
    cases side <;> simp [Sided.get] at hd
  | append_singleton past op ih =>
    intro hin hd
    rw [run_snoc] at hin hd ⊢
    obtain ⟨hprev, hflag⟩ := dirty_step hin hd
    have hlast : (start.run m (past ++ [op])).Shows input
        ((start.run m past).step m op).1.mirrored ∧
          (start.run m (past ++ [op])).dirty.get side = true := by
      rw [run_snoc]
      exact ⟨⟨hin, rfl⟩, hd⟩
    rcases hflag with hd' | hflags
    · have hsince := ih hprev.1 hd'
      rw [hprev.2] at hsince
      exact hsince.snoc hlast
    · exact since_last ⟨hprev, hflags⟩ hlast

/-- **Where a pane comes from**: what it shows was put there while the input
that is bound now was bound, with the view turned as it is now. -/
theorem pane_origin {m : Model σ} {start : Session σ}
    (hunbound : start.input = none) (side : Side) (input : Place)
    (past : List (Operation σ)) :
    (start.run m past).input = some input →
    Since m
      (fun t => t.Shows input (start.run m past).mirrored ∧
        t.panes.side side = (start.run m past).panes.side side)
      (Puts m input side ((start.run m past).panes.side side))
      start past := by
  induction past using List.reverseRecOn with
  | nil =>
    intro hin
    simp [hunbound] at hin
  | append_singleton past op ih =>
    intro hin
    rw [run_snoc] at hin ⊢
    have hlast : (start.run m (past ++ [op])).Shows input
        ((start.run m past).step m op).1.mirrored ∧
          (start.run m (past ++ [op])).panes.side side
            = ((start.run m past).step m op).1.panes.side side := by
      rw [run_snoc]
      exact ⟨⟨hin, rfl⟩, rfl⟩
    rcases panes_step hin side with ⟨hprev, hsame⟩ | hputs
    · have hsince := ih hprev.1
      rw [hprev.2, ← hsame] at hsince
      exact hsince.snoc hlast
    · exact since_last hputs hlast

/-! ## Where saves go -/

/-- A save of a side of the model, made by what follows a run, is in its
place: the input that is saved is bound, and the side of the view that shows
the side of the model was flagged, and its bytes shown, under that input and
with the view turned as it is now. -/
structure SavedInPlace (m : Model σ) (start : Session σ)
    (past : List (Operation σ)) (input : Place) (modelSide : Side)
    (bytes : Option ByteArray) : Prop where
  bound : (start.run m past).input = some input
  flagged :
    let now := start.run m past
    let side := modelSide.oriented now.mirrored
    Since m (fun t => t.Shows input now.mirrored ∧ t.dirty.get side = true)
      (fun s op => s.Shows input now.mirrored ∧ Flags m side s op) start past
  shown :
    let now := start.run m past
    let side := modelSide.oriented now.mirrored
    ∃ shown, Normalises shown bytes ∧
      Since m (fun t => t.Shows input now.mirrored ∧ t.panes.side side = shown)
        (Puts m input side shown) start past

/-- Where only quiet calls come after some others, a save is among those
others, and so is everything before it. -/
theorem eq_append_of_isSave {dealing more earlier later : List Call} {c : Call}
    (h : dealing ++ more = earlier ++ c :: later) (hc : c.isSave = true)
    (hquiet : ∀ c ∈ more, c.isSave = false) :
    ∃ rest, dealing = earlier ++ c :: rest := by
  rcases List.append_eq_append_iff.mp h with
    ⟨front, rfl, hmore⟩ | ⟨rest, rfl, hrest⟩
  · have hquietc := hquiet c (by simp [hmore])
    simp [hc] at hquietc
  · cases rest with
    | nil =>
      rw [List.nil_append] at hrest
      have hquietc := hquiet c (by simp [← hrest])
      simp [hc] at hquietc
    | cons first rest =>
      obtain ⟨rfl, -⟩ := List.cons.inj hrest
      exact ⟨rest, rfl⟩

theorem savedInPlace_of_settlingCall {m : Model σ} {start : Session σ}
    (hunbound : start.input = none) (hclean : start.dirty = ⟨false, false⟩)
    {past : List (Operation σ)} {input place : Place} {modelSide : Side}
    {bytes : Option ByteArray} (hin : (start.run m past).input = some input)
    (h : (start.run m past).SettlingCall input (.save place modelSide bytes)) :
    SavedInPlace m start past place modelSide bytes := by
  obtain ⟨rfl, hflag, hbytes⟩ := h.2 place modelSide bytes rfl
  exact ⟨hin, flag_origin hclean _ _ past hin hflag,
    _, hbytes, pane_origin hunbound _ _ past hin⟩

/-- **No edit is saved to the wrong place.** Whatever has happened since the
start, an operation changes the state behind the inputs by the saves that it
records and by nothing else, it saves only in place, and it saves before it
does anything but ask. A change by someone else saves nothing. -/
theorem saves_stay_in_place {m : Model σ} {settings : Settings} {state : σ}
    {confirmer : Confirmer} {start : Session σ}
    (hstart : start? settings state confirmer = .ok start)
    (past : List (Operation σ)) (op : Operation σ) :
    ((∀ change, op ≠ .elsewhere change) →
      (start.run m (past ++ [op])).state = m.carryOut (start.run m past).state
        ((start.run m past).callsOf m op)) ∧
    ∀ earlier input modelSide bytes later,
      (start.run m past).callsOf m op
        = earlier ++ .save input modelSide bytes :: later →
      (∀ c ∈ earlier, c.settles = true) ∧
      SavedInPlace m start past input modelSide bytes := by
  obtain ⟨hunbound, hclean, -⟩ := start?_eq hstart
  refine ⟨fun hop => by rw [run_snoc]; exact state_step m _ op hop, ?_⟩
  intro earlier input modelSide bytes later hcalls
  by_cases hop : ∃ change, op = .elsewhere change
  · obtain ⟨change, rfl⟩ := hop
    simp [callsOf, step] at hcalls
  obtain ⟨dealing, more, hsplit, -, -, hdealing, hquiet, -⟩ :=
    callsOf_split m (start.run m past) op fun change h => hop ⟨change, h⟩
  rw [hsplit] at hcalls
  obtain ⟨rest, rfl⟩ := eq_append_of_isSave hcalls rfl hquiet
  refine ⟨fun c hc => ?_, ?_⟩
  · obtain ⟨bound, -, hsettling⟩ := hdealing c (by simp [hc])
    exact hsettling.1
  · obtain ⟨bound, hbound, hsettling⟩ :=
      hdealing (.save input modelSide bytes) (by simp)
    exact savedInPlace_of_settlingCall hunbound hclean hbound hsettling

/-- An edit of one document, saved on request. -/
theorem saved_in_place_of_edit :
    let m := Model.shelf Document
    let shelf : Shelf Document :=
      ⟨[{ contents := ⟨none, some ⟨#[97]⟩, none⟩ }], ⟨true, true⟩⟩
    let past : List (Operation (Shelf Document)) :=
      [.bind (some 0), .applyEdit .left ⟨#[98]⟩]
    ∃ start, start? {} shelf (.fixed .save) = .ok start ∧
      (start.run m past).callsOf m (.flush .left)
        = [.save 0 .left (some ⟨#[98]⟩)] ∧
      SavedInPlace m start past 0 .left (some ⟨#[98]⟩) := by
  intro m shelf past
  obtain ⟨start, hstart, hcalls⟩ : ∃ start,
      start? {} shelf (.fixed .save) = .ok start ∧
      (start.run m past).callsOf m (.flush .left)
        = [.save 0 .left (some ⟨#[98]⟩)] := ⟨_, rfl, by decide +kernel⟩
  refine ⟨start, hstart, hcalls, ?_⟩
  have hplace := (saves_stay_in_place hstart past (.flush .left)).2 [] 0 .left
    (some ⟨#[98]⟩) [] hcalls
  exact hplace.2

end Reconcile.Session
