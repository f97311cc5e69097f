/-
Reconcile.Proofs.Model.Sides — the two sides of an input are saved
independently of each other.

Which of two saves comes first must not matter if they are of different
sides of an input, and both sides are given content: to take a side away may
be refused because it is there, and it may be there only since the other save.
For inputs in memory the states come out equal; on disk
the entries need not be listed in the same order, and if the two sides are
one file, the later save decides what is in it, but not what the model shows.
So the law is stated up to states that are `alike`, which is as much as a
viewer can tell (`Model.Independent`).

* `independent_shelf`, `independent_guarded`, `independent_files` — it holds
  for the models of this library.
* `attempt_comm` — the form in which it is used: of two saves of content that
  are tried or not, in either order, the same ones go well.
-/
import Reconcile.Proofs.Disk
import Reconcile.Proofs.Model.Laws

namespace Reconcile

namespace Model

variable {σ : Type}

/-- The sides of an input are given content independently of each other, up to
states that are `alike`. -/
structure Independent (m : Model σ) (alike : σ → σ → Prop) : Prop where
  equivalence : Equivalence alike
  content_eq : ∀ {s t : σ}, alike s t → ∀ pane place,
    m.content t pane place = m.content s pane place
  kind_eq : ∀ {s t : σ}, alike s t → ∀ place, m.kind? t place = m.kind? s place
  hunk_eq : ∀ {s t : σ}, alike s t → ∀ place, m.isHunk t place = m.isHunk s place
  editable_eq : ∀ {s t : σ}, alike s t → ∀ side place,
    m.editable t side place = m.editable s side place
  /-- States that are alike take the same saves, and stay alike. -/
  save_alike : ∀ {s t s' : σ} {side : Side} {input : Place} {bytes : ByteArray},
    alike s t → m.save s side input (some bytes) = .ok s' →
    ∃ t', m.save t side input (some bytes) = .ok t' ∧ alike s' t'
  editable_save : m.KeepsEditable
  /-- Nothing but the bytes that are saved can appear anywhere. -/
  content_save : ∀ {s t : σ} {side : Side} {input : Place}
    {bytes : Option ByteArray}, m.save s side input bytes = .ok t →
    ∀ (other : Side) (place : Place),
      m.content t other.pane place = m.content s other.pane place ∨
        m.content t other.pane place = bytes
  save_opposite : ∀ {s t : σ} {side : Side} {input : Place} {a b : ByteArray},
    m.save s side input (some a) = .ok t →
    ((∃ u, m.save t side.opposite input (some b) = .ok u) ↔
      ∃ u, m.save s side.opposite input (some b) = .ok u)
  save_comm : ∀ {s t u v w : σ} {side : Side} {input : Place} {a b : ByteArray},
    m.save s side input (some a) = .ok t →
    m.save t side.opposite input (some b) = .ok u →
    m.save s side.opposite input (some b) = .ok v →
    m.save v side input (some a) = .ok w → alike u w

/-! ## Saves that are tried -/

/-- What becomes of a save. -/
inductive Attempt where
  /-- Nothing was to be saved. -/
  | skipped
  | saved
  | refused
  deriving DecidableEq

/-- Try to save a side, if that is wanted. -/
def attempt (m : Model σ) (input : Place) (side : Side)
    (wanted : Option (Option ByteArray)) (s : σ) : σ × Attempt :=
  match wanted with
  | none => (s, .skipped)
  | some bytes =>
    match m.save s side input bytes with
    | .ok t => (t, .saved)
    | .error _ => (s, .refused)

section Attempts

variable {m : Model σ} {alike : σ → σ → Prop} {s t : σ} {input : Place}
  {side : Side}

theorem attempt_ok {bytes : Option ByteArray}
    (h : m.save s side input bytes = .ok t) :
    m.attempt input side (some bytes) s = (t, .saved) := by
  simp [attempt, h]

theorem attempt_error {bytes : Option ByteArray} {e : SaveError}
    (h : m.save s side input bytes = .error e) :
    m.attempt input side (some bytes) s = (s, .refused) := by
  simp [attempt, h]

/-- A save that never goes well is refused. -/
theorem attempt_of_not_ok {bytes : Option ByteArray}
    (h : ¬∃ u, m.save s side input bytes = .ok u) :
    m.attempt input side (some bytes) s = (s, .refused) := by
  cases hsave : m.save s side input bytes with
  | ok u => exact absurd ⟨u, hsave⟩ h
  | error e => exact attempt_error hsave

/-- The same becomes of a save in states that are alike. -/
theorem attempt_alike (hm : m.Independent alike) (h : alike s t) (input : Place)
    (side : Side) {wanted : Option (Option ByteArray)}
    (hwanted : ∀ {bytes}, wanted = some bytes → bytes.isSome) :
    (m.attempt input side wanted t).2 = (m.attempt input side wanted s).2 ∧
      alike (m.attempt input side wanted s).1 (m.attempt input side wanted t).1 := by
  cases wanted with
  | none => exact ⟨rfl, h⟩
  | some bytes =>
    obtain ⟨bytes, rfl⟩ := Option.isSome_iff_exists.mp (hwanted rfl)
    cases hs : m.save s side input (some bytes) with
    | ok s' =>
      obtain ⟨t', ht, halike⟩ := hm.save_alike h hs
      rw [attempt_ok hs, attempt_ok ht]
      exact ⟨rfl, halike⟩
    | error e =>
      have ht : ¬∃ t', m.save t side input (some bytes) = .ok t' := by
        rintro ⟨t', ht⟩
        obtain ⟨s', hs', -⟩ := hm.save_alike (hm.equivalence.symm h) ht
        rw [hs] at hs'
        simp at hs'
      rw [attempt_error hs, attempt_of_not_ok ht]
      exact ⟨rfl, h⟩

/-- A save that is refused is refused after the other side is saved as well,
and that goes on as without it. -/
theorem attempt_after_refused (hm : m.Independent alike) {a b : ByteArray}
    (hok : m.save s side input (some a) = .ok t) {e : SaveError}
    (herror : m.save s side.opposite input (some b) = .error e) :
    m.attempt input side.opposite (some b) t = (t, .refused) := by
  refine attempt_of_not_ok fun h => ?_
  obtain ⟨u, hu⟩ := (hm.save_opposite hok).mp h
  rw [herror] at hu
  simp at hu

/-- **Saves of the two sides commute**: whichever is tried first, the same
becomes of each, and the states are alike. -/
theorem attempt_comm (hm : m.Independent alike) (s : σ) (input : Place)
    (side : Side) {a b : Option (Option ByteArray)}
    (hcontent : ∀ {bytes}, a = some bytes → bytes.isSome)
    (hcontent' : ∀ {bytes}, b = some bytes → bytes.isSome) :
    let first := m.attempt input side a s
    let second := m.attempt input side.opposite b first.1
    let first' := m.attempt input side.opposite b s
    let second' := m.attempt input side a first'.1
    second'.2 = first.2 ∧ second.2 = first'.2 ∧ alike second.1 second'.1 := by
  intro first second first' second'
  cases a with
  | none => exact ⟨rfl, rfl, hm.equivalence.refl _⟩
  | some a =>
    cases b with
    | none => exact ⟨rfl, rfl, hm.equivalence.refl _⟩
    | some b =>
      obtain ⟨a, rfl⟩ := Option.isSome_iff_exists.mp (hcontent rfl)
      obtain ⟨b, rfl⟩ := Option.isSome_iff_exists.mp (hcontent' rfl)
      simp only [first, second, first', second']
      cases ha : m.save s side input (some a) with
      | ok t =>
        cases hb : m.save s side.opposite input (some b) with
        | ok v =>
          obtain ⟨u, hu⟩ := (hm.save_opposite ha).mpr ⟨v, hb⟩
          have hback : ∃ w, m.save v side input (some a) = .ok w := by
            have h := hm.save_opposite (b := a) hb
            rw [Side.opposite_opposite] at h
            exact h.mpr ⟨t, ha⟩
          obtain ⟨w, hw⟩ := hback
          rw [attempt_ok ha, attempt_ok hb, attempt_ok hu, attempt_ok hw]
          exact ⟨rfl, rfl, hm.save_comm ha hu hb hw⟩
        | error e =>
          rw [attempt_ok ha, attempt_error hb, attempt_after_refused hm ha hb,
            attempt_ok ha]
          exact ⟨rfl, rfl, hm.equivalence.refl t⟩
      | error e =>
        cases hb : m.save s side.opposite input (some b) with
        | ok v =>
          have hback : m.attempt input side (some a) v = (v, .refused) := by
            have h := attempt_after_refused (b := a) (e := e) hm hb
            rw [Side.opposite_opposite] at h
            exact h ha
          rw [attempt_error ha, attempt_ok hb, hback]
          exact ⟨rfl, rfl, hm.equivalence.refl v⟩
        | error e' =>
          rw [attempt_error ha, attempt_error hb, attempt_error ha]
          exact ⟨rfl, rfl, hm.equivalence.refl s⟩

end Attempts

/-! ## Refused saves -/

/-- Guarded states are alike if the states are, and the same is refused. -/
def Guarded.Alike (alike : σ → σ → Prop) (g h : Guarded σ) : Prop :=
  alike g.state h.state ∧ h.refusals = g.refusals

theorem save_guarded_iff {m : Model σ} {g t : Guarded σ} {side : Side}
    {input : Place} {bytes : Option ByteArray} :
    m.guarded.save g side input bytes = .ok t ↔
      g.refusals.get side = none ∧
        m.save g.state side input bytes = .ok t.state ∧
        t.refusals = g.refusals := by
  simp only [guarded]
  cases hrefusal : g.refusals.get side with
  | some e => simp
  | none =>
    cases hsave : m.save g.state side input bytes with
    | error e => simp
    | ok state =>
      simp only [Except.ok.injEq, true_and]
      constructor
      · rintro rfl
        exact ⟨rfl, rfl⟩
      · rintro ⟨hstate, hrefusals⟩
        rw [hstate, ← hrefusals]

theorem independent_guarded {m : Model σ} {alike : σ → σ → Prop}
    (hm : m.Independent alike) :
    m.guarded.Independent (Guarded.Alike alike) where
  equivalence := {
    refl := fun g => ⟨hm.equivalence.refl g.state, rfl⟩
    symm := fun h => ⟨hm.equivalence.symm h.1, h.2.symm⟩
    trans := fun h k => ⟨hm.equivalence.trans h.1 k.1, k.2.trans h.2⟩ }
  content_eq h := hm.content_eq h.1
  kind_eq h := hm.kind_eq h.1
  hunk_eq h := hm.hunk_eq h.1
  editable_eq h := hm.editable_eq h.1
  save_alike {g h g' side input bytes} halike hsave := by
    obtain ⟨hfree, hstate, hrefusals⟩ := save_guarded_iff.mp hsave
    obtain ⟨state, hstate', halike'⟩ := hm.save_alike halike.1 hstate
    refine ⟨⟨state, h.refusals⟩, save_guarded_iff.mpr ?_, halike', ?_⟩
    · exact ⟨by rw [halike.2, hfree], hstate', rfl⟩
    · exact halike.2.trans hrefusals.symm
  editable_save := keepsEditable_guarded hm.editable_save
  content_save h := hm.content_save (save_guarded h)
  save_opposite {g t side input a b} hsave := by
    obtain ⟨-, hstate, hrefusals⟩ := save_guarded_iff.mp hsave
    have hopposite := hm.save_opposite (b := b) hstate
    constructor
    · rintro ⟨u, hu⟩
      obtain ⟨hfree, hu, -⟩ := save_guarded_iff.mp hu
      obtain ⟨v, hv⟩ := hopposite.mp ⟨_, hu⟩
      exact ⟨⟨v, g.refusals⟩,
        save_guarded_iff.mpr ⟨by rw [← hrefusals, hfree], hv, rfl⟩⟩
    · rintro ⟨u, hu⟩
      obtain ⟨hfree, hu, -⟩ := save_guarded_iff.mp hu
      obtain ⟨v, hv⟩ := hopposite.mpr ⟨_, hu⟩
      exact ⟨⟨v, t.refusals⟩,
        save_guarded_iff.mpr ⟨by rw [hrefusals, hfree], hv, rfl⟩⟩
  save_comm ht hu hv hw := by
    obtain ⟨-, ht, htr⟩ := save_guarded_iff.mp ht
    obtain ⟨-, hu, hur⟩ := save_guarded_iff.mp hu
    obtain ⟨-, hv, hvr⟩ := save_guarded_iff.mp hv
    obtain ⟨-, hw, hwr⟩ := save_guarded_iff.mp hw
    exact ⟨hm.save_comm ht hu hv hw, by rw [hwr, hvr, hur, htr]⟩

end Model

/-! ## Inputs in memory -/

/-- What an input is given on its two sides can be given in either order. -/
class SidedSubject (α : Type) [Subject α] : Prop where
  setContent_comm : ∀ (x : α) (side : Side) (a b : Option ByteArray),
    Subject.setContent (Subject.setContent x side a) side.opposite b
      = Subject.setContent (Subject.setContent x side.opposite b) side a

theorem Node.setContent_comm (n : Node) (side : Side) (a b : Option ByteArray) :
    (n.setContent side a).setContent side.opposite b
      = (n.setContent side.opposite b).setContent side a := by
  cases side <;> rfl

instance : SidedSubject Node where
  setContent_comm := Node.setContent_comm

instance : SidedSubject Document where
  setContent_comm x side a b := by cases side <;> rfl

section Shelf

variable {α : Type} [Subject α]

theorem Model.save_shelf_iff {s t : Shelf α} {side : Side} {input : Place}
    {bytes : Option ByteArray} :
    (Model.shelf α).save s side input bytes = .ok t ↔
      s.editable.get side = true ∧ t = s.setContent input side bytes := by
  simp only [Model.shelf]
  by_cases h : s.editable.get side = true
  · simp [h, eq_comm]
  · simp [h]

theorem Shelf.setContent_comm [SidedSubject α] (s : Shelf α) (input : Place)
    (side : Side) (a b : Option ByteArray) :
    (s.setContent input side a).setContent input side.opposite b
      = (s.setContent input side.opposite b).setContent input side a := by
  simp only [Shelf.setContent, Shelf.mk.injEq, and_true]
  refine List.ext_getElem? fun place => ?_
  by_cases hplace : input = place
  · simp only [hplace, List.getElem?_modify_eq, Option.map_eq_map, Option.map_map]
    have hcomm := funext fun x : α => SidedSubject.setContent_comm x side a b
    exact congrArg (fun f => s.items[place]?.map f) hcomm
  · simp [hplace]

theorem independent_shelf [LawfulSubject α] [SidedSubject α] :
    (Model.shelf α).Independent Eq where
  equivalence := ⟨Eq.refl, Eq.symm, Eq.trans⟩
  content_eq h _ _ := by rw [h]
  kind_eq h _ := by rw [h]
  hunk_eq h _ := by rw [h]
  editable_eq h _ _ := by rw [h]
  save_alike h hsave := ⟨_, by rw [← h, hsave], rfl⟩
  editable_save := keepsEditable_shelf
  content_save {s t side input bytes} h other place := by
    obtain ⟨-, rfl⟩ := Model.save_shelf_iff.mp h
    by_cases hplace : input = place
    · cases hitem : s.items[place]? with
      | none =>
        left
        simp [Model.shelf, Shelf.setContent, hplace, hitem]
      | some item =>
        rcases Side.eq_or_eq_opposite other side with rfl | rfl
        · right
          simp [Model.shelf, Shelf.setContent, hplace, hitem,
            LawfulSubject.content_setContent]
        · left
          simp [-Side.pane_opposite, Model.shelf, Shelf.setContent, hplace, hitem,
            LawfulSubject.content_setContent_opposite]
    · left
      simp [Model.shelf, Shelf.setContent, hplace]
  save_opposite h := by
    obtain ⟨-, rfl⟩ := Model.save_shelf_iff.mp h
    simp [Model.save_shelf_iff, Shelf.setContent]
  save_comm ht hu hv hw := by
    obtain ⟨-, rfl⟩ := Model.save_shelf_iff.mp ht
    obtain ⟨-, rfl⟩ := Model.save_shelf_iff.mp hu
    obtain ⟨-, rfl⟩ := Model.save_shelf_iff.mp hv
    obtain ⟨-, rfl⟩ := Model.save_shelf_iff.mp hw
    exact Shelf.setContent_comm _ _ _ _ _

end Shelf

/-! ## Inputs on disk -/

namespace FileStore

/-- Comparisons of files are alike if nothing but files tells the disks
apart, and if those are the same as well unless both sides are one file. -/
structure Alike (s t : FileStore) : Prop where
  paths : t.paths = s.paths
  node : t.node = s.node
  editable : t.editable = s.editable
  same : Disk.SameDirectories s.disk t.disk
  refusals : t.disk.refusals = s.disk.refusals
  files : s.Apart → ∀ l, t.disk.entry? l = s.disk.entry? l

theorem equivalence_alike : Equivalence Alike where
  refl s := ⟨rfl, rfl, rfl, .refl s.disk, rfl, fun _ _ => rfl⟩
  symm h := ⟨h.paths.symm, h.node.symm, h.editable.symm, h.same.symm,
    h.refusals.symm, fun hapart l =>
      (h.files (hapart.of_sameDirectories h.paths.symm h.same.symm) l).symm⟩
  trans h k := ⟨k.paths.trans h.paths, k.node.trans h.node,
    k.editable.trans h.editable, h.same.trans k.same, k.refusals.trans h.refusals,
    fun hapart l =>
      (k.files (hapart.of_sameDirectories h.paths h.same) l).trans
        (h.files hapart l)⟩

theorem save_ok_iff {s t : FileStore} {side : Side} {bytes : Option ByteArray} :
    s.save side bytes = .ok t ↔
      s.editable.get side = true ∧ ∃ disk, s.writeFile side bytes = .ok disk ∧
        t = { s with disk := disk, node := s.node.setContent side bytes } := by
  refine ⟨save_ok, ?_⟩
  rintro ⟨heditable, disk, hwrite, rfl⟩
  simp [save, heditable, hwrite]

/-- Whether a side can be given content depends on nothing but the directories,
what the system refuses, and what may be edited. -/
theorem save_of_sameDirectories {s t u : FileStore} {side : Side}
    {content : ByteArray} (hpaths : t.paths = s.paths)
    (heditable : t.editable = s.editable)
    (hsame : Disk.SameDirectories s.disk t.disk)
    (hrefusals : t.disk.refusals = s.disk.refusals)
    (hsave : s.save side (some content) = .ok u) :
    ∃ v, t.save side (some content) = .ok v := by
  obtain ⟨hside, disk, hwrite, -⟩ := save_ok_iff.mp hsave
  obtain ⟨after, hafter⟩ :=
    writeFile_of_sameDirectories hpaths hsame hrefusals hwrite
  exact ⟨_, save_ok_iff.mpr ⟨by rw [heditable, hside], after, hafter, rfl⟩⟩

theorem same_of_save {s t : FileStore} {side : Side} {bytes : Option ByteArray}
    (hsave : s.save side bytes = .ok t) :
    t.paths = s.paths ∧ t.editable = s.editable ∧
      Disk.SameDirectories s.disk t.disk ∧ t.disk.refusals = s.disk.refusals := by
  obtain ⟨-, disk, hwrite, rfl⟩ := save_ok_iff.mp hsave
  have hreplaced := replaced_writeFile hwrite
  exact ⟨rfl, rfl, hreplaced.same, hreplaced.refusals⟩

theorem Alike.save {s t s' : FileStore} (h : s.Alike t) {side : Side}
    {content : ByteArray} (hsave : s.save side (some content) = .ok s') :
    ∃ t', t.save side (some content) = .ok t' ∧ s'.Alike t' := by
  obtain ⟨heditable, disk, hwrite, rfl⟩ := save_ok_iff.mp hsave
  obtain ⟨disk', hwrite'⟩ :=
    writeFile_of_sameDirectories h.paths h.same h.refusals hwrite
  have hdone := replaced_writeFile hwrite
  have hdone' := replaced_writeFile hwrite'
  refine ⟨_, save_ok_iff.mpr ⟨by rw [h.editable, heditable], disk', hwrite', rfl⟩,
    h.paths, by rw [h.node], h.editable,
    (hdone.same.symm.trans h.same).trans hdone'.same,
    hdone'.refusals.trans (h.refusals.trans hdone.refusals.symm), ?_⟩
  intro hapart l
  have hentry := h.files (hapart.of_sameDirectories rfl hdone.same.symm) l
  by_cases hl : s.disk.locate (s.paths.side side) = .ok l
  · have hl' : t.disk.locate (t.paths.side side) = .ok l := by
      rw [h.paths]
      exact h.same.locate_iff.mpr hl
    rw [hdone.here l hl, hdone'.here l hl']
  · have hl' : t.disk.locate (t.paths.side side) ≠ .ok l := by
      rw [h.paths, ne_eq, h.same.locate_iff]
      exact hl
    rw [hdone.elsewhere l hl, hdone'.elsewhere l hl', hentry]

end FileStore

theorem independent_files : Model.files.Independent FileStore.Alike where
  equivalence := FileStore.equivalence_alike
  content_eq h pane _ := by simp [Model.files, h.node]
  kind_eq h _ := by simp [Model.files, h.node]
  hunk_eq h _ := by simp [Model.files, h.node]
  editable_eq h side _ := by simp [Model.files, h.editable]
  save_alike h hsave := h.save hsave
  editable_save := keepsEditable_files
  content_save {s t side input bytes} h other place := by
    obtain ⟨-, disk, -, rfl⟩ := FileStore.save_ok h
    rcases Side.eq_or_eq_opposite other side with rfl | rfl
    · exact .inr (Node.content_setContent _ _ _)
    · exact .inl (Node.content_setContent_opposite _ _ _)
  save_opposite {s t side input a b} h := by
    obtain ⟨hpaths, heditable, hsame, hrefusals⟩ := FileStore.same_of_save h
    constructor
    · rintro ⟨u, hu⟩
      exact FileStore.save_of_sameDirectories hpaths.symm heditable.symm
        hsame.symm hrefusals.symm hu
    · rintro ⟨u, hu⟩
      exact FileStore.save_of_sameDirectories hpaths heditable hsame hrefusals hu
  save_comm {s t u v w side input a b} ht hu hv hw := by
    obtain ⟨-, first, hfirst, rfl⟩ := FileStore.save_ok ht
    obtain ⟨-, second, hsecond, rfl⟩ := FileStore.save_ok hu
    obtain ⟨-, first', hfirst', rfl⟩ := FileStore.save_ok hv
    obtain ⟨-, second', hsecond', rfl⟩ := FileStore.save_ok hw
    have hone := FileStore.replaced_writeFile hfirst
    have htwo := FileStore.replaced_writeFile hsecond
    have hone' := FileStore.replaced_writeFile hfirst'
    have htwo' := FileStore.replaced_writeFile hsecond'
    have hback := htwo.same.symm.trans hone.same.symm
    refine ⟨rfl, (Node.setContent_comm s.node side (some a) (some b)).symm, rfl,
      hback.trans (hone'.same.trans htwo'.same), ?_, fun hapart => ?_⟩
    · simp only [hone.refusals, htwo.refusals, hone'.refusals, htwo'.refusals]
    have hbefore : s.Apart := hapart.of_sameDirectories rfl hback
    have hdifferent := hbefore.on_side side.opposite
    rw [Side.opposite_opposite] at hdifferent
    exact Disk.Replaced.comm hdifferent hone htwo hone' htwo'

end Reconcile
