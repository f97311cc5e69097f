/-
Reconcile.Proofs.Session.FlushOrder — which side is flushed first.

A flush saves what a pane shows, with one exception: an empty pane next to a
missing side is saved as a missing side. Whether the other side is missing is
read off the store at that moment, so of two flushes the first one can decide
what the second one stores.

* `flushedTo` is that rule on a pair of contents: what one flush makes of what
  is stored on the two sides of the model.
* `flushedTo_comm_iff` — the order shows exactly if one side is to be emptied
  and the flush of the other one creates or removes it (`OrderShows`).
* `sameBytes_flushedTo` — even then it shows only in whether a side without
  bytes is there at all.
* `stored_flush_flush`, `stored_flushAll` — what is stored after the flushes
  of a session is what the rule says.
* `flush_order_shows_iff` — the two together, for flushes on request and for
  viewers of which one is mirrored.
-/
import Reconcile.Proofs.Session.Filled
import Reconcile.Proofs.Session.SavedOnce

namespace Reconcile

/-! ## Two flushes of stored contents -/

/-- Two pairs of contents hold the same bytes, if a missing side counts as
empty. -/
def SameBytes (a b : Sided (Option ByteArray)) : Prop :=
  ∀ side, (a.get side).getD .empty = (b.get side).getD .empty

/-- What is stored after a side is flushed, given what the sides are to hold,
if anything, and what is stored before. -/
def flushedTo (edits : Sided (Option (Option ByteArray))) (side : Side)
    (contents : Sided (Option ByteArray)) : Sided (Option ByteArray) :=
  match edits.get side with
  | none => contents
  | some shown =>
    contents.set side (savedBytes shown (contents.get side.opposite))

/-- One side is to be emptied, and the flush of the other one creates or
removes it. -/
def OrderShows (edits : Sided (Option (Option ByteArray)))
    (contents : Sided (Option ByteArray)) : Prop :=
  ∃ side, edits.get side = some (some .empty) ∧
    ((flushedTo edits side.opposite contents).get side.opposite).isSome
      ≠ (contents.get side.opposite).isSome

theorem Sided.eq_iff {α : Type} {a b : Sided α} (side : Side) :
    a = b ↔ a.get side = b.get side ∧ a.get side.opposite = b.get side.opposite := by
  cases side <;> simp [Sided.ext_iff, Sided.get, Side.opposite, and_comm]

/-- What is stored on the other side matters for an empty pane alone, and
there as far as it is missing. -/
theorem savedBytes_eq_iff {shown a b : Option ByteArray} :
    savedBytes shown a = savedBytes shown b ↔
      (shown = some .empty → a.isSome = b.isSome) := by
  unfold savedBytes
  by_cases h : shown = some .empty
  · cases a <;> cases b <;> simp [h]
  · simp [h]

section Contents

variable {edits : Sided (Option (Option ByteArray))}
  {contents : Sided (Option ByteArray)} {side : Side}

theorem flushedTo_of_none (h : edits.get side = none) :
    flushedTo edits side contents = contents := by
  simp [flushedTo, h]

theorem flushedTo_of_some {shown : Option ByteArray}
    (h : edits.get side = some shown) :
    flushedTo edits side contents =
      contents.set side (savedBytes shown (contents.get side.opposite)) := by
  simp [flushedTo, h]

/-- What the other side is to hold does not matter. -/
theorem flushedTo_congr {edits' : Sided (Option (Option ByteArray))}
    (h : edits'.get side = edits.get side) :
    flushedTo edits' side contents = flushedTo edits side contents := by
  rw [flushedTo, h, flushedTo]

/-- Flushing a side leaves the other one as it is. -/
@[simp] theorem get_opposite_flushedTo :
    (flushedTo edits side contents).get side.opposite
      = contents.get side.opposite := by
  cases h : edits.get side with
  | none => rw [flushedTo_of_none h]
  | some shown => rw [flushedTo_of_some h, Sided.get_set_opposite]

@[simp] theorem get_flushedTo_opposite :
    (flushedTo edits side.opposite contents).get side = contents.get side := by
  have h := @get_opposite_flushedTo edits contents side.opposite
  rwa [Side.opposite_opposite] at h

/-- Apart from whether a side is missing, a flush of a side stores what the
pane shows whatever the other side holds. -/
theorem getD_flushedTo {contents' : Sided (Option ByteArray)}
    (h : contents'.get side = contents.get side) :
    ((flushedTo edits side contents').get side).getD .empty
      = ((flushedTo edits side contents).get side).getD .empty := by
  cases hedit : edits.get side with
  | none => rw [flushedTo_of_none hedit, flushedTo_of_none hedit, h]
  | some shown =>
    rw [flushedTo_of_some hedit, flushedTo_of_some hedit, Sided.get_set_self,
      Sided.get_set_self, getD_savedBytes, getD_savedBytes]

/-- **In either order** the same bytes are stored. -/
theorem sameBytes_flushedTo :
    SameBytes (flushedTo edits side.opposite (flushedTo edits side contents))
      (flushedTo edits side (flushedTo edits side.opposite contents)) := by
  intro other
  rcases Side.eq_or_eq_opposite other side with rfl | rfl
  · rw [get_flushedTo_opposite]
    exact (getD_flushedTo get_flushedTo_opposite).symm
  · rw [get_opposite_flushedTo]
    exact getD_flushedTo get_opposite_flushedTo

/-- A side ends up the same in either order unless it is to be emptied and
the flush of the other one creates or removes that. -/
theorem flushedTo_eq_iff :
    (flushedTo edits side contents).get side
        = (flushedTo edits side (flushedTo edits side.opposite contents)).get side ↔
      ¬(edits.get side = some (some .empty) ∧
        ((flushedTo edits side.opposite contents).get side.opposite).isSome
          ≠ (contents.get side.opposite).isSome) := by
  cases hedit : edits.get side with
  | none =>
    rw [flushedTo_of_none hedit, flushedTo_of_none hedit]
    simp
  | some shown =>
    rw [flushedTo_of_some hedit, flushedTo_of_some hedit, Sided.get_set_self,
      Sided.get_set_self, savedBytes_eq_iff]
    simp [eq_comm]

/-- **The order of two flushes shows** in what is stored exactly if one side is
to be emptied and the flush of the other one creates or removes it. -/
theorem flushedTo_comm_iff (side : Side) :
    flushedTo edits side.opposite (flushedTo edits side contents)
        = flushedTo edits side (flushedTo edits side.opposite contents) ↔
      ¬OrderShows edits contents := by
  have hhere := @flushedTo_eq_iff edits contents side
  have hthere := @flushedTo_eq_iff edits contents side.opposite
  rw [Side.opposite_opposite] at hthere
  rw [Sided.eq_iff side, OrderShows, Side.exists_iff side, not_or, ← hhere,
    Side.opposite_opposite, ← hthere, get_flushedTo_opposite,
    get_opposite_flushedTo]
  exact and_congr_right' eq_comm

end Contents

namespace Session

variable {σ : Type} {m : Model σ} {known : σ → Place → Prop}

/-! ## Flushes of a session -/

/-- What is stored on the sides of the model. -/
def stored (m : Model σ) (input : Place) (s : Session σ) :
    Sided (Option ByteArray) :=
  ⟨m.content s.state .left input, m.content s.state .right input⟩

/-- What the sides of the model are to hold once the pending edits are
saved. -/
def edits (m : Model σ) (input : Place) (s : Session σ) :
    Sided (Option (Option ByteArray)) :=
  ⟨s.wanted m input (Side.left.oriented s.mirrored),
    s.wanted m input (Side.right.oriented s.mirrored)⟩

theorem get_stored (m : Model σ) (input : Place) (s : Session σ) (side : Side) :
    (s.stored m input).get side = m.content s.state side.pane input := by
  cases side <;> rfl

theorem get_edits (m : Model σ) (input : Place) (s : Session σ) (side : Side) :
    (s.edits m input).get side = s.wanted m input (side.oriented s.mirrored) := by
  cases side <;> rfl

/-- A flush that goes well stores what the rule says, and leaves the edits of
the other side pending. -/
theorem FlushedSide.stored_eq (hm : m.Keeps known) (he : m.KeepsEditable)
    {input : Place} {side : Side} {s t : Session σ}
    (ends : FlushedSide m input side s t (.ok ())) (hknown : known s.state input) :
    t.stored m input
        = flushedTo (s.edits m input) (side.oriented s.mirrored)
            (s.stored m input) ∧
      (t.edits m input).get (side.oriented s.mirrored).opposite
        = (s.edits m input).get (side.oriented s.mirrored).opposite := by
  have hmirrored : t.mirrored = s.mirrored := ends.settled.mirrored_eq
  have hedit : (s.edits m input).get (side.oriented s.mirrored)
      = s.wanted m input side := by
    rw [get_edits, Side.oriented_oriented]
  constructor
  · cases ends with
    | skipped hidle =>
      rw [flushedTo_of_none]
      rw [hedit, wanted, hidle]
      rfl
    | saved hpending state hsave =>
      have hshown : s.wanted m input side = some (s.panes.side side) := by
        rw [wanted, if_pos hpending]
      rw [flushedTo_of_some (hedit.trans hshown), get_stored, ← pendingBytes_eq,
        Sided.eq_iff (side.oriented s.mirrored), get_stored, get_stored,
        Sided.get_set_self, Sided.get_set_opposite, get_stored]
      exact ⟨hm.content_saved hsave hknown, hm.content_opposite hsave hknown⟩
  · rw [get_edits, get_edits, hmirrored, Side.opposite_oriented,
      Side.oriented_oriented]
    exact ends.wanted_opposite he

/-- Two flushes that go well, one of either side. -/
theorem FlushedSide.stored_both (hm : m.Keeps known) (he : m.KeepsEditable)
    {input : Place} {side : Side} {s t u : Session σ}
    (first : FlushedSide m input side s t (.ok ()))
    (second : FlushedSide m input side.opposite t u (.ok ()))
    (hknown : known s.state input) :
    u.stored m input =
      flushedTo (s.edits m input) (side.oriented s.mirrored).opposite
        (flushedTo (s.edits m input) (side.oriented s.mirrored)
          (s.stored m input)) := by
  have hside : side.opposite.oriented t.mirrored
      = (side.oriented s.mirrored).opposite := by
    rw [first.settled.mirrored_eq, Side.opposite_oriented]
  have htknown : known t.state input := by
    rw [first.due.2]
    exact hm.known_carryOut hknown
  obtain ⟨hfirst, hleft⟩ := first.stored_eq hm he hknown
  obtain ⟨hsecond, -⟩ := second.stored_eq hm he htknown
  rw [hsecond, hside, hfirst, flushedTo_congr hleft]

/-- A flush on request that is done has ended well. -/
theorem flushedSide_of_done {input : Place} {side : Side} {s : Session σ}
    (hin : s.input = some input) (hdone : (s.step m (.flush side)).2 = .done) :
    FlushedSide m input side s (s.step m (.flush side)).1 (.ok ()) := by
  have hends := flushSide_ends m input side s
  simp only [step, flush, hin, Prod.map_fst, Prod.map_snd, id_eq] at hdone ⊢
  rwa [Reply.ok_of_ofUnit hdone] at hends

theorem flushedSides_of_done {input : Place} {s : Session σ}
    (hin : s.input = some input) (hdone : (s.step m .flushAll).2 = .done) :
    FlushedSides m input s (s.step m .flushAll).1 (.ok ()) := by
  have hends := flushSides_ends m input s
  simp only [step, flushAll, hin, Prod.map_fst, Prod.map_snd, id_eq] at hdone ⊢
  rwa [Reply.ok_of_ofUnit hdone] at hends

theorem stored_flush_flush (hm : m.Keeps known) (he : m.KeepsEditable)
    {input : Place} {s : Session σ} (hin : s.input = some input)
    (hknown : known s.state input) (side : Side)
    (hdone : s.replies m [.flush side, .flush side.opposite] = [.done, .done]) :
    (s.run m [.flush side, .flush side.opposite]).stored m input =
      flushedTo (s.edits m input) (side.oriented s.mirrored).opposite
        (flushedTo (s.edits m input) (side.oriented s.mirrored)
          (s.stored m input)) := by
  simp only [replies, List.cons.injEq, and_true] at hdone
  have hfirst := flushedSide_of_done hin hdone.1
  have hsecond := flushedSide_of_done (hfirst.settled.input_eq.trans hin) hdone.2
  exact hfirst.stored_both hm he hsecond hknown

/-- Both sides are flushed with the one that is shown on the left first. -/
theorem stored_flushAll (hm : m.Keeps known) (he : m.KeepsEditable)
    {input : Place} {s : Session σ} (hin : s.input = some input)
    (hknown : known s.state input) (hdone : (s.step m .flushAll).2 = .done) :
    (s.step m .flushAll).1.stored m input =
      flushedTo (s.edits m input) (Side.left.oriented s.mirrored).opposite
        (flushedTo (s.edits m input) (Side.left.oriented s.mirrored)
          (s.stored m input)) := by
  obtain ⟨t, hleft, hright⟩ := (flushedSides_of_done hin hdone).of_ok
  exact hleft.stored_both hm he hright hknown

/-! ## Over every run -/

/-- Another viewer of the same input, mirrored if this one is not and the
other way round, with the same edits pending against the same contents. -/
structure TurnedOver (m : Model σ) (input : Place) (s t : Session σ) : Prop where
  bound : t.input = some input
  mirrored : t.mirrored = !s.mirrored
  edits : t.edits m input = s.edits m input
  stored : t.stored m input = s.stored m input

/-- **Which side is flushed first** makes no difference to the bytes that are
stored, wherever a run has led and whatever is pending. It does show in
whether a side without bytes is there at all, and that exactly if one side is
to be emptied and the flush of the other one creates or removes it. The same
holds of a viewer and a mirrored one with the same edits, which flush all
they have from opposite ends. -/
theorem flush_order_shows_iff (hm : m.Keeps known) (he : m.KeepsEditable)
    {settings : Settings} {state : σ} {confirmer : Confirmer}
    {start : Session σ} (hstart : start? settings state confirmer = .ok start)
    {past : List (Operation σ)} (hpast : ∀ op ∈ past, op.Knows known state)
    {input : Place} (hin : (start.run m past).input = some input) :
    let s := start.run m past
    let leftFirst : List (Operation σ) := [.flush .left, .flush .right]
    let rightFirst : List (Operation σ) := [.flush .right, .flush .left]
    (s.replies m leftFirst = [.done, .done] →
      s.replies m rightFirst = [.done, .done] →
      SameBytes ((s.run m leftFirst).stored m input)
          ((s.run m rightFirst).stored m input) ∧
        ((s.run m leftFirst).stored m input = (s.run m rightFirst).stored m input ↔
          ¬OrderShows (s.edits m input) (s.stored m input))) ∧
    ∀ t, s.TurnedOver m input t → known t.state input →
      (s.step m .flushAll).2 = .done → (t.step m .flushAll).2 = .done →
      SameBytes ((s.step m .flushAll).1.stored m input)
          ((t.step m .flushAll).1.stored m input) ∧
        ((s.step m .flushAll).1.stored m input
            = (t.step m .flushAll).1.stored m input ↔
          ¬OrderShows (s.edits m input) (s.stored m input)) := by
  intro s leftFirst rightFirst
  have hknown := (knownInputs_run hm hstart hpast).bound_known hin
  have hright : Side.right.oriented s.mirrored
      = (Side.left.oriented s.mirrored).opposite :=
    Side.opposite_oriented s.mirrored .left
  constructor
  · intro hleftDone hrightDone
    have hleftFirst := stored_flush_flush hm he hin hknown .left hleftDone
    have hrightFirst := stored_flush_flush hm he hin hknown .right hrightDone
    rw [hright, Side.opposite_opposite] at hrightFirst
    simp only [Side.opposite] at hleftFirst hrightFirst
    rw [hleftFirst, hrightFirst]
    exact ⟨sameBytes_flushedTo, flushedTo_comm_iff _⟩
  · intro t hturned htknown hdone htdone
    have hhere := stored_flushAll hm he hin hknown hdone
    have hthere := stored_flushAll hm he hturned.bound htknown htdone
    rw [hturned.mirrored, Side.oriented_not, Side.opposite_oriented,
      Side.opposite_opposite, hturned.edits, hturned.stored] at hthere
    rw [hhere, hthere]
    exact ⟨sameBytes_flushedTo, flushedTo_comm_iff _⟩

/-- A side is emptied next to a missing one that is flagged as well: no flush
creates or removes the missing side, so both end up missing in either order,
and from either end. -/
theorem emptied_next_to_missing_side :
    let m := Model.shelf Document
    let shelf : Shelf Document :=
      ⟨[{ contents := ⟨none, some ⟨#[97]⟩, none⟩ }], ⟨true, true⟩⟩
    let past : List (Operation (Shelf Document)) :=
      [.bind (some 0), .applyEdit .left .empty, .setDirty .right true]
    let turnedPast : List (Operation (Shelf Document)) :=
      [.bind (some 0), .applyEdit .right .empty, .setDirty .left true]
    ∃ plain turned, start? {} shelf (.fixed .save) = .ok plain ∧
      start? { viewer := { mirrored := true } } shelf (.fixed .save)
        = .ok turned ∧
      (plain.run m past).edits m 0 = ⟨some (some .empty), some none⟩ ∧
      (plain.run m (past ++ [.flush .left, .flush .right])).stored m 0
        = (plain.run m (past ++ [.flush .right, .flush .left])).stored m 0 ∧
      (plain.run m (past ++ [.flushAll])).stored m 0
        = (turned.run m (turnedPast ++ [.flushAll])).stored m 0 := by
  intro m shelf past turnedPast
  obtain ⟨plain, turned, hplain, hturned, hin, hedits, hstored, hmirrored, hleft,
      hright, hall, hallTurned, hturnedOver⟩ :
      ∃ plain turned, start? {} shelf (.fixed .save) = .ok plain ∧
      start? { viewer := { mirrored := true } } shelf (.fixed .save)
        = .ok turned ∧
      (plain.run m past).input = some 0 ∧
      (plain.run m past).edits m 0 = ⟨some (some .empty), some none⟩ ∧
      (plain.run m past).stored m 0 = ⟨some ⟨#[97]⟩, none⟩ ∧
      (plain.run m past).mirrored = false ∧
      (plain.run m past).replies m [.flush .left, .flush .right] = [.done, .done] ∧
      (plain.run m past).replies m [.flush .right, .flush .left] = [.done, .done] ∧
      ((plain.run m past).step m .flushAll).2 = .done ∧
      ((turned.run m turnedPast).step m .flushAll).2 = .done ∧
      (turned.run m turnedPast).input = some 0 ∧
      (turned.run m turnedPast).mirrored = true ∧
      (turned.run m turnedPast).edits m 0 = ⟨some (some .empty), some none⟩ ∧
      (turned.run m turnedPast).stored m 0 = ⟨some ⟨#[97]⟩, none⟩ ∧
      (turned.run m turnedPast).state.items.length = 1 :=
    ⟨_, _, rfl, rfl, by decide +kernel⟩
  obtain ⟨hbound, hturn, heditsTurned, hstoredTurned, hlength⟩ := hturnedOver
  have hknows : ∀ op ∈ past,
      op.Knows (fun s place => place < s.items.length) shelf := by
    simp [past, Operation.Knows, shelf]
  have hhidden : ¬OrderShows ((plain.run m past).edits m 0)
      ((plain.run m past).stored m 0) := by
    rw [hedits, hstored]
    rintro ⟨side, hemptied, hshows⟩
    cases side with
    | left => exact absurd rfl hshows
    | right => simp [Sided.get] at hemptied
  obtain ⟨hrequest, hflushAll⟩ := flush_order_shows_iff keeps_shelf
    keepsEditable_shelf hplain hknows hin
  have hover : (plain.run m past).TurnedOver m 0 (turned.run m turnedPast) :=
    ⟨hbound, by rw [hturn, hmirrored]; rfl, heditsTurned.trans hedits.symm,
      hstoredTurned.trans hstored.symm⟩
  refine ⟨plain, turned, hplain, hturned, hedits, ?_, ?_⟩
  · rw [run_append, run_append]
    exact (hrequest hleft hright).2.mpr hhidden
  · rw [run_snoc, run_snoc]
    exact (hflushAll _ hover (by rw [hlength]; decide) hall hallTurned).2.mpr
      hhidden

/-- A side is emptied next to a missing one that is filled: with the emptied
side first, that is saved as missing; with the other one first, it is saved as
empty. The mirrored viewer saves the other one first. -/
theorem flush_order_shows_next_to_filled_side :
    let m := Model.shelf Document
    let shelf : Shelf Document :=
      ⟨[{ contents := ⟨none, some ⟨#[97]⟩, none⟩ }], ⟨true, true⟩⟩
    let past : List (Operation (Shelf Document)) :=
      [.bind (some 0), .applyEdit .left .empty, .applyEdit .right ⟨#[98]⟩]
    let turnedPast : List (Operation (Shelf Document)) :=
      [.bind (some 0), .applyEdit .right .empty, .applyEdit .left ⟨#[98]⟩]
    let leftFirst : List (Operation (Shelf Document)) :=
      [.flush .left, .flush .right]
    let rightFirst : List (Operation (Shelf Document)) :=
      [.flush .right, .flush .left]
    ∃ plain turned, start? {} shelf (.fixed .save) = .ok plain ∧
      start? { viewer := { mirrored := true } } shelf (.fixed .save)
        = .ok turned ∧
      (plain.run m past).input = some 0 ∧
      (plain.run m past).replies m leftFirst = [.done, .done] ∧
      (plain.run m past).replies m rightFirst = [.done, .done] ∧
      (plain.run m (past ++ leftFirst)).stored m 0 = ⟨none, some ⟨#[98]⟩⟩ ∧
      (plain.run m (past ++ rightFirst)).stored m 0
        = ⟨some .empty, some ⟨#[98]⟩⟩ ∧
      (plain.run m past).edits m 0 = (turned.run m turnedPast).edits m 0 ∧
      (plain.run m past).stored m 0 = (turned.run m turnedPast).stored m 0 ∧
      (plain.run m (past ++ [.flushAll])).stored m 0 = ⟨none, some ⟨#[98]⟩⟩ ∧
      (turned.run m (turnedPast ++ [.flushAll])).stored m 0
        = ⟨some .empty, some ⟨#[98]⟩⟩ :=
  ⟨_, _, rfl, rfl, by decide +kernel⟩

end Session

end Reconcile
