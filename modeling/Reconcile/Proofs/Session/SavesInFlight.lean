/-
Reconcile.Proofs.Session.SavesInFlight — changes from outside against saves that
are running.

Whether a guard is held can be told from the operations alone: one of them has
taken it, and none has dropped it since (`Operation.Held`). The registry keeps
a counter instead. No operation but those two touches it (`step_sameSaves`), so
it is the number of guards that are held, in whatever order they are dropped
(`CountsGuards`, `countsGuards_run`).

While one is held, or if it is not about the bound input, a report of a change
does nothing at all. Otherwise pending edits are dealt with, and each side of
the input comes out dropped or stored (`ChangedOutside.left_alone`,
`ChangedOutside.stored`). `outside_change_keeps_out_of_saves` is all of it, over
every run.
-/
import Mathlib.Data.List.Induction
import Reconcile.Proofs.Session.Discarded
import Reconcile.Proofs.Session.FailedSaves
import Reconcile.Proofs.Session.FollowsInput

namespace Reconcile

/-! ## Guards that are held -/

namespace Operation

variable {σ : Type} {ops : List (Operation σ)} {op : Operation σ} {guard : SaveGuard}

/-- Whether an operation begins a save. -/
def begins : Operation σ → Bool
  | .beginSave => true
  | _ => false

/-- How many guards some operations take. Guards are numbered in that order. -/
def guardsTaken (ops : List (Operation σ)) : Nat := ops.countP begins

/-- A guard is held after some operations: one of them has taken it, and none
has dropped it since. -/
def Held (ops : List (Operation σ)) (guard : SaveGuard) : Prop :=
  ∃ before after, ops = before ++ .beginSave :: after ∧
    guardsTaken before = guard ∧ .endSave guard ∉ after

theorem not_held_nil : ¬ Held ([] : List (Operation σ)) guard := by
  rintro ⟨before, after, hops, -⟩
  simp at hops

/-- Of the guards that are taken, the next one is never held yet. -/
theorem Held.lt_guardsTaken (h : Held ops guard) : guard < guardsTaken ops := by
  obtain ⟨before, after, rfl, rfl, -⟩ := h
  simp only [guardsTaken, List.countP_append, List.countP_cons, begins, if_true]
  exact Nat.lt_add_of_pos_right (Nat.succ_pos _)

theorem held_snoc :
    Held (ops ++ [op]) guard ↔
      (Held ops guard ∧ op ≠ .endSave guard) ∨
        (op = .beginSave ∧ guardsTaken ops = guard) := by
  constructor
  · rintro ⟨before, after, hops, htaken, hdropped⟩
    rcases List.eq_nil_or_concat after with rfl | ⟨rest, last, rfl⟩
    · obtain ⟨rfl, hop⟩ := List.append_inj' hops rfl
      exact .inr ⟨List.singleton_inj.mp hop, htaken⟩
    · have hsplit : ops ++ [op] = (before ++ .beginSave :: rest) ++ [last] := by
        simpa using hops
      obtain ⟨rfl, hop⟩ := List.append_inj' hsplit rfl
      obtain rfl := List.singleton_inj.mp hop
      simp only [List.concat_eq_append, List.mem_append, List.mem_singleton,
        not_or] at hdropped
      exact .inl ⟨⟨before, rest, rfl, htaken, hdropped.1⟩, Ne.symm hdropped.2⟩
  · rintro (⟨⟨before, after, rfl, htaken, hdropped⟩, hop⟩ | ⟨rfl, htaken⟩)
    · exact ⟨before, after ++ [op], by simp, htaken, by simp [hdropped, hop.symm]⟩
    · exact ⟨ops, [], rfl, htaken, by simp⟩

end Operation

namespace Session

open Operation (Held guardsTaken)

variable {σ : Type} {m : Model σ} {s t : Session σ} {ops : List (Operation σ)}
  {guard : SaveGuard} {input : Place}

/-! ## Who counts them -/

/-- Two registries agree on the saves that are running. -/
def SameSaves (r q : WatchRegistry) : Prop := q = { r with watched := q.watched }

theorem SameSaves.of_eq {r q : WatchRegistry} (h : q = r) : SameSaves r q := by
  rw [SameSaves, h]

theorem SameSaves.trans {r q p : WatchRegistry} (h : SameSaves r q)
    (g : SameSaves q p) : SameSaves r p := by
  rw [SameSaves, g, h]

theorem sameSaves_released (s : Session σ) :
    SameSaves s.registry s.releasedRegistry := by
  unfold releasedRegistry
  split <;> rfl

theorem sameSaves_acquired (r : WatchRegistry) (input : Option Place) :
    SameSaves r (acquiredRegistry r input) := by
  cases input with
  | none => rfl
  | some place =>
    simp only [acquiredRegistry, WatchRegistry.add]
    split <;> rfl

theorem sameSaves_rebind (m : Model σ) (input : Option Place) (s : Session σ) :
    SameSaves s.registry (s.rebind m input).registry := by
  rw [rebind_eq]
  exact (sameSaves_released s).trans (sameSaves_acquired _ input)

theorem Settled.registry_eq (h : Settled m input s t) : t.registry = s.registry := by
  rw [h.frame]

theorem Dealt.registry_eq (h : Dealt m s t) : t.registry = s.registry := by
  rw [h.frame]

theorem Switching.sameSaves {next : Session σ → Session σ}
    {r : Except SaveError SwitchOutcome} (ends : Switching m next s t r)
    (hnext : ∀ u, SameSaves u.registry (next u).registry) :
    SameSaves s.registry t.registry := by
  cases ends with
  | failed resolved => exact .of_eq resolved.dealt.registry_eq
  | cancelled resolved => exact .of_eq resolved.dealt.registry_eq
  | switched resolved _ =>
    exact (SameSaves.of_eq resolved.dealt.registry_eq).trans (hnext _)

/-- A change from outside leaves alone what is bound, how it is turned, and what
is known of saves. -/
theorem ChangedOutside.bound_eq {r : Except SaveError Unit}
    (ends : ChangedOutside m s t r) :
    t.input = s.input ∧ t.mirrored = s.mirrored ∧ t.registry = s.registry := by
  have hsettled : ∀ {input : Place} {u : Session σ}, Settled m input s u →
      u.input = s.input ∧ u.mirrored = s.mirrored ∧ u.registry = s.registry :=
    fun h => ⟨h.input_eq, h.mirrored_eq, h.registry_eq⟩
  cases ends with
  | unbound => exact ⟨rfl, rfl, rfl⟩
  | saving => exact ⟨rfl, rfl, rfl⟩
  | failed _ _ resolved => exact hsettled resolved.settled
  | dropped _ _ resolved =>
    have hkept := hsettled resolved.settled
    rw [refresh_eq, clearDirty_eq]
    exact hkept
  | shown _ _ resolved _ =>
    have hkept := hsettled resolved.settled
    rw [refresh_eq]
    exact hkept

/-- **No operation has a bearing on the saves that are running**, but to begin
one and to drop a guard. -/
theorem step_sameSaves (m : Model σ) (s : Session σ) {op : Operation σ}
    (hbegin : op ≠ .beginSave) (hend : ∀ guard, op ≠ .endSave guard) :
    SameSaves s.registry (s.step m op).1.registry := by
  cases op with
  | bind input =>
    by_cases h : s.input = input
    · rw [step, bind, if_pos h]
      exact .of_eq rfl
    · exact (bind_ends h).sameSaves (sameSaves_rebind m input)
  | setDirty side value => exact .of_eq (by rw [step, setDirty_eq])
  | applyEdit side bytes => exact .of_eq (by rw [step, applyEdit_eq])
  | copy d =>
    refine .of_eq ?_
    simp only [step, copy]
    split
    · rfl
    · split
      · simp only [Prod.map_fst, id, applyEdit_eq]
      · rfl
  | flush side =>
    refine .of_eq ?_
    simp only [step, flush]
    split
    · rfl
    · exact (flushSide_ends m _ side s).settled.registry_eq
  | flushAll =>
    refine .of_eq ?_
    simp only [step, flushAll]
    split
    · rfl
    · exact (flushSides_ends m _ s).settled.registry_eq
  | refresh => exact .of_eq (by rw [step, refresh_eq])
  | externalChange => exact .of_eq (externalChange_ends m s).bound_eq.2.2
  | inputChanged input =>
    refine .of_eq ?_
    simp only [step, inputChanged]
    split
    · exact (externalChange_ends m s).bound_eq.2.2
    · rfl
  | labelsChanged inputs =>
    refine .of_eq ?_
    simp only [step, labelsChanged]
    split
    · rfl
    · split
      · rw [showHeaders_eq]
      · rfl
  | setMirrored value =>
    by_cases h : s.mirrored = value
    · rw [step, setMirrored, if_pos h]
      exact .of_eq rfl
    · refine (setMirrored_ends h).sameSaves fun u => .of_eq ?_
      rw [turn, refresh_eq]
  | setAncestorVisible value =>
    refine .of_eq ?_
    simp only [step, Prod.map_fst, id, setAncestorVisible_eq]
  | setIgnoreAncestor value =>
    refine .of_eq ?_
    cases value with
    | false => rfl
    | true => simp only [step, setIgnoreAncestor, setAncestorVisible_eq, if_true]
  | addListener l => exact .of_eq rfl
  | removeListener l => exact .of_eq rfl
  | dispose =>
    simp only [step, dispose, release_eq]
    exact sameSaves_released s
  | beginSave => exact absurd rfl hbegin
  | endSave guard => exact absurd rfl (hend guard)
  | elsewhere change => exact .of_eq rfl

/-- A registry counts the guards that are held after some operations, and
knows which ones they are. -/
structure CountsGuards (ops : List (Operation σ)) (r : WatchRegistry) : Prop where
  next : r.nextGuard = guardsTaken ops
  held : ∀ guard, guard ∈ r.guards ↔ Held ops guard
  nodup : r.guards.Nodup
  count : r.savesInFlight = r.guards.length

namespace CountsGuards

variable {r : WatchRegistry}

theorem beginSave (h : CountsGuards ops r) :
    CountsGuards (ops ++ [.beginSave]) r.beginSave where
  next := by simp [WatchRegistry.beginSave, h.next, guardsTaken, Operation.begins]
  held guard := by
    simp only [WatchRegistry.beginSave, List.mem_append, List.mem_singleton,
      h.held, h.next, Operation.held_snoc]
    simp [eq_comm]
  nodup := by
    have hnew : r.nextGuard ∉ r.guards := by
      rw [h.held, h.next]
      exact fun hheld => Nat.lt_irrefl _ hheld.lt_guardsTaken
    exact List.nodup_append.mpr
      ⟨h.nodup, by simp, fun guard hguard other hother heq =>
        hnew (by rwa [← List.mem_singleton.mp hother, ← heq])⟩
  count := by simp [WatchRegistry.beginSave, h.count]

/-- A guard that is dropped is one that is held, or nothing happens. -/
theorem endSave (h : CountsGuards ops r) (guard : SaveGuard) :
    CountsGuards (ops ++ [.endSave guard]) (r.endSave guard) := by
  have hheld : ∀ other, Held (ops ++ [.endSave guard]) other ↔
      Held ops other ∧ other ≠ guard := by
    intro other
    simp [Operation.held_snoc, eq_comm]
  have htaken : guardsTaken (ops ++ [.endSave guard]) = guardsTaken ops := by
    simp [guardsTaken, Operation.begins]
  unfold WatchRegistry.endSave
  split
  · rename_i hmem
    refine ⟨by rw [htaken]; exact h.next, fun other => ?_, h.nodup.erase guard, ?_⟩
    · rw [h.nodup.mem_erase_iff, h.held, hheld, and_comm]
    · rw [List.length_erase_of_mem hmem, h.count]
  · rename_i hmem
    refine ⟨by rw [htaken]; exact h.next, fun other => ?_, h.nodup, h.count⟩
    rw [h.held, hheld, iff_self_and]
    rintro hother rfl
    exact hmem ((h.held other).mpr hother)

theorem isSaving_iff (h : CountsGuards ops r) :
    r.isSaving = true ↔ ∃ guard, Held ops guard := by
  simp only [← h.held, WatchRegistry.isSaving, h.count, decide_eq_true_eq,
    gt_iff_lt, List.length_pos_iff_exists_mem]

theorem of_sameSaves {q : WatchRegistry} (h : CountsGuards ops r)
    (hsame : SameSaves r q) {op : Operation σ} (hbegin : op ≠ .beginSave)
    (hend : ∀ guard, op ≠ .endSave guard) : CountsGuards (ops ++ [op]) q := by
  have htaken : guardsTaken (ops ++ [op]) = guardsTaken ops := by
    cases op <;> simp_all [guardsTaken, Operation.begins]
  rw [hsame]
  refine ⟨h.next.trans htaken.symm, fun guard => ?_, h.nodup, h.count⟩
  simp [Operation.held_snoc, h.held, hbegin, hend]

end CountsGuards

theorem countsGuards_step (m : Model σ) (op : Operation σ)
    (h : CountsGuards ops s.registry) :
    CountsGuards (ops ++ [op]) (s.step m op).1.registry := by
  by_cases hbegin : op = .beginSave
  · subst hbegin
    exact h.beginSave
  by_cases hend : ∃ guard, op = .endSave guard
  · obtain ⟨guard, rfl⟩ := hend
    exact h.endSave guard
  have hother : ∀ guard, op ≠ .endSave guard := fun guard heq => hend ⟨guard, heq⟩
  exact h.of_sameSaves (step_sameSaves m s hbegin hother) hbegin hother

theorem countsGuards_start {settings : Settings} {state : σ}
    {confirmer : Confirmer} {start : Session σ}
    (h : start? settings state confirmer = .ok start) :
    CountsGuards ([] : List (Operation σ)) start.registry := by
  unfold start? at h
  split at h
  · simp at h
  · obtain rfl := Except.ok.inj h
    exact ⟨rfl, fun guard => by simp [Operation.not_held_nil], List.nodup_nil, rfl⟩

theorem countsGuards_run (m : Model σ)
    (h : CountsGuards ([] : List (Operation σ)) s.registry)
    (ops : List (Operation σ)) : CountsGuards ops (s.run m ops).registry := by
  induction ops using List.reverseRecOn with
  | nil => exact h
  | append_singleton ops op ih =>
    rw [run_snoc]
    exact countsGuards_step m op ih

/-! ## What becomes of pending edits -/

/-- Edits that are not saved leave what is stored as it was, and what a change
from outside calls for is done. -/
theorem ChangedOutside.left_alone {r : Except SaveError Unit}
    (ends : ChangedOutside m s t r) (hin : s.input = some input)
    (hidle : s.registry.isSaving = false)
    (hanswer : s.isDirty = true → (s.decision m input .externalChange).2 ≠ .save) :
    r = .ok () ∧ t.state = s.state := by
  have hdrop : s.isDirty = true →
      (s.decision m input .externalChange).2.Drops .externalChange := by
    intro hdirty
    have hne := hanswer hdirty
    cases hd : (s.decision m input .externalChange).2 with
    | save => exact absurd hd hne
    | discard => exact .inl rfl
    | cancel => exact .inr ⟨rfl, rfl⟩
  obtain ⟨u, -, hfollows, -, rfl, hr⟩ := ends.drops hin hidle hdrop
  exact ⟨hr, (follows_refresh m u).state.trans hfollows.state⟩

/-- What is stored of a side when its edits, if it has any, have been saved. -/
structure SideStored (m : Model σ) (input : Place) (side : Side)
    (s t : Session σ) : Prop where
  saved : s.pending m input side = true →
    Normalises (s.panes.side side) (storedFor m input side s.mirrored t.state)
  spared : s.pending m input side = false →
    storedFor m input side s.mirrored t.state
      = storedFor m input side s.mirrored s.state

theorem CameOut.sideStored {side : Side} {stored : σ}
    (h : CameOut m input side stored s t (s.dueSave m input side stored) none) :
    SideStored m input side s t := by
  generalize hdue : s.dueSave m input side stored = due at h
  unfold dueSave at hdue
  cases h with
  | spared _ content =>
    split at hdue
    · simp at hdue
    · rename_i hidle
      exact ⟨fun hpending => absurd hpending hidle, fun _ => content⟩
  | saved bytes _ _ content =>
    split at hdue
    · rename_i hpending
      obtain ⟨-, -, hbytes⟩ := Call.save.inj (List.singleton_inj.mp hdue)
      refine ⟨fun _ => ?_, fun hidle => by simp [hpending] at hidle⟩
      rw [content, ← hbytes]
      exact normalises_savedBytes _ _
    · simp at hdue

/-- When both sides are flushed and that works out, both are stored. -/
theorem FlushedSides.sideStored {known : σ → Place → Prop} (hm : m.Keeps known)
    (he : m.KeepsEditable) (ends : FlushedSides m input s t (.ok ()))
    (hknown : known s.state input) (side : Side) : SideStored m input side s t := by
  obtain ⟨-, made, left, right, htried, hfailure⟩ := ends.tried hm he hknown
  obtain ⟨rfl, rfl⟩ : left = none ∧ right = none := by
    cases left <;> cases right <;> simp_all [failure]
  cases side with
  | left => exact htried.left.sideStored
  | right => exact htried.right.sideStored

theorem ChangedOutside.stored {known : σ → Place → Prop} (hm : m.Keeps known)
    (he : m.KeepsEditable) (ends : ChangedOutside m s t (.ok ()))
    (hin : s.input = some input) (hidle : s.registry.isSaving = false)
    (hanswer : (s.decision m input .externalChange).2 = .save)
    (hknown : known s.state input) (side : Side) : SideStored m input side s t := by
  cases ends with
  | unbound h => simp [hin] at h
  | saving h => simp [hidle] at h
  | dropped h _ resolved =>
    obtain rfl := Option.some.inj (hin.symm.trans h)
    cases resolved with
    | cancelled _ answer => simp [hanswer] at answer
  | shown h _ resolved _ =>
    obtain rfl := Option.some.inj (hin.symm.trans h)
    rw [refresh_eq]
    cases resolved with
    | clean hclean =>
      have hflags := isDirty_eq_false_iff.mp hclean
      have hspared : s.pending m input side = false := by
        cases side <;> simp [pending, hflags, Sided.get]
      exact ⟨fun hpending => by simp [hspared] at hpending, fun _ => rfl⟩
    | saved _ _ flushed =>
      rw [decision_eq] at flushed
      have hstored := flushed.sideStored hm he hknown side
      rw [clearDirty_eq]
      exact ⟨hstored.saved, hstored.spared⟩
    | discarded _ answer => simp [hanswer] at answer
    | cancelled _ answer => simp [hanswer] at answer

/-! ## Over every run -/

/-- What a registry says of saves when some operations have been done. -/
structure TellsOfSaves (past : List (Operation σ)) (r : WatchRegistry) : Prop where
  saving : r.isSaving = true ↔ ∃ guard, Held past guard
  count : ∃ held : List SaveGuard, held.Nodup ∧
    (∀ guard, guard ∈ held ↔ Held past guard) ∧ r.savesInFlight = held.length
  /-- To drop a guard never takes the counter below zero. -/
  dropped : ∀ guard, Held past guard →
    (r.endSave guard).savesInFlight + 1 = r.savesInFlight

theorem CountsGuards.tellsOfSaves {r : WatchRegistry} (h : CountsGuards ops r) :
    TellsOfSaves ops r where
  saving := h.isSaving_iff
  count := ⟨r.guards, h.nodup, h.held, h.count⟩
  dropped guard hheld := by
    have hmem : guard ∈ r.guards := (h.held guard).mpr hheld
    have hpos : 0 < r.savesInFlight := by
      rw [h.count]
      exact List.length_pos_of_mem hmem
    simp only [WatchRegistry.endSave, if_pos hmem]
    omega

/-- What it comes to that a session, as it was and as it is then, is told that
its input was changed outside. -/
structure TookIn (m : Model σ) (input : Place) (s t : Session σ)
    (reply : Reply) : Prop where
  bound : t.input = some input ∧ t.mirrored = s.mirrored
  /-- No flag is left, and the panes show what is stored. -/
  shows : reply = .done → ShowsInput m t
  /-- Edits that are not to be saved are dropped, and that cannot fail. -/
  dropped : (s.isDirty = true → (s.decision m input .externalChange).2 ≠ .save) →
    reply = .done ∧ t.state = s.state
  stored : (s.decision m input .externalChange).2 = .save → reply = .done →
    ∀ known, m.Keeps known → m.KeepsEditable → known s.state input →
      ∀ side, SideStored m input side s t

theorem ChangedOutside.tookIn {r : Except SaveError Unit}
    (ends : ChangedOutside m s t r) (hin : s.input = some input)
    (hidle : s.registry.isSaving = false) :
    TookIn m input s t (.ofUnit r) where
  bound := ⟨ends.bound_eq.1.trans hin, ends.bound_eq.2.1⟩
  shows := ends.showsInput hin hidle
  dropped hanswer := by
    obtain ⟨rfl, hstate⟩ := ends.left_alone hin hidle hanswer
    exact ⟨rfl, hstate⟩
  stored hanswer hdone known hm he hknown side := by
    obtain rfl := Reply.ok_of_ofUnit hdone
    exact ends.stored hm he hin hidle hanswer hknown side

/-- **Changes from outside keep out of the way of saves.** After every run the
registry counts the guards that are held, so a save is in progress exactly
while one is, in whatever order they were taken and dropped. A report on an
input that is not the bound one, however alike the two are, or on any input
while a guard is held, does nothing at all. Every other report is taken in:
unless a save fails, no flag is left and the panes show what is stored, and that
is as it was for edits that are dropped, and as it was edited for edits that are
saved. -/
theorem outside_change_keeps_out_of_saves (m : Model σ) {settings : Settings}
    {state : σ} {confirmer : Confirmer} {start : Session σ}
    (hstart : start? settings state confirmer = .ok start)
    (past : List (Operation σ)) :
    TellsOfSaves past (start.run m past).registry ∧
    ∀ input,
      ((start.run m past).input ≠ some input ∨ (∃ guard, Held past guard) →
        (start.run m past).step m (.inputChanged input)
          = (start.run m past, .done)) ∧
      ((start.run m past).input = some input → (¬ ∃ guard, Held past guard) →
        TookIn m input (start.run m past)
          (start.run m (past ++ [.inputChanged input]))
          ((start.run m past).step m (.inputChanged input)).2) := by
  have hcounts := countsGuards_run m (countsGuards_start hstart) past
  refine ⟨hcounts.tellsOfSaves, fun input => ?_⟩
  rw [run_snoc]
  generalize start.run m past = s at hcounts
  refine ⟨fun hignored => ?_, fun hin hnone => ?_⟩
  · by_cases hin : s.input = some input
    · have hsaving : s.registry.isSaving = true :=
        hcounts.isSaving_iff.mpr (hignored.resolve_left (not_not_intro hin))
      simp [step, inputChanged, externalChange, hin, hsaving, Reply.ofUnit]
    · simp [step, inputChanged, hin, Reply.ofUnit]
  · have hidle : s.registry.isSaving = false := by
      rw [← Bool.not_eq_true, hcounts.isSaving_iff]
      exact hnone
    have hchange : s.inputChanged m input = s.externalChange m := if_pos hin
    simp only [step, hchange, Prod.map_fst, Prod.map_snd, id]
    exact (externalChange_ends m s).tookIn hin hidle

/-- Two documents that are equal, the first one bound. Two saves are begun, and
end in the order in which they were begun; in between, the left side is edited.
A report is taken in only when both have ended, and only of the first document:
the edit is saved then. -/
theorem change_taken_in_after_two_saves :
    let m := Model.shelf Document
    let document : Document := { contents := ⟨none, some ⟨#[97]⟩, some ⟨#[98]⟩⟩ }
    let during : List (Operation (Shelf Document)) :=
      [.bind (some 0), .beginSave, .beginSave, .endSave 0, .applyEdit .left ⟨#[99]⟩]
    ∃ start s t, start? {} ⟨[document, document], ⟨true, true⟩⟩ (.fixed .save)
        = .ok start ∧
      s = start.run m during ∧ t = start.run m (during ++ [.endSave 1]) ∧
      s.registry.isSaving = true ∧ t.registry.isSaving = false ∧
      s.step m (.inputChanged 0) = (s, .done) ∧
      t.step m (.inputChanged 1) = (t, .done) ∧
      ShowsInput m (t.step m (.inputChanged 0)).1 ∧
      SideStored m 0 .left t (t.step m (.inputChanged 0)).1 ∧
      (t.step m (.inputChanged 0)).1.panes = ⟨none, some ⟨#[99]⟩, some ⟨#[98]⟩⟩ := by
  intro m document during
  obtain ⟨start, hstart, hin, hidle, hknown, hanswer, hdone, hpanes⟩ : ∃ start,
      start? {} ⟨[document, document], ⟨true, true⟩⟩ (.fixed .save) = .ok start ∧
      (start.run m (during ++ [.endSave 1])).input = some 0 ∧
      (start.run m (during ++ [.endSave 1])).registry.isSaving = false ∧
      0 < (start.run m (during ++ [.endSave 1])).state.items.length ∧
      ((start.run m (during ++ [.endSave 1])).decision m 0 .externalChange).2
        = .save ∧
      ((start.run m (during ++ [.endSave 1])).step m (.inputChanged 0)).2 = .done ∧
      ((start.run m (during ++ [.endSave 1])).step m (.inputChanged 0)).1.panes
        = ⟨none, some ⟨#[99]⟩, some ⟨#[98]⟩⟩ :=
    ⟨_, rfl, by decide +kernel⟩
  have hheld : ∃ guard, Held during guard :=
    ⟨1, [.bind (some 0), .beginSave], [.endSave 0, .applyEdit .left ⟨#[99]⟩], rfl,
      rfl, by simp⟩
  obtain ⟨hduring, hreports⟩ := outside_change_keeps_out_of_saves m hstart during
  obtain ⟨hafter, hreportsAfter⟩ :=
    outside_change_keeps_out_of_saves m hstart (during ++ [.endSave 1])
  have hnone : ¬ ∃ guard, Held (during ++ [.endSave 1]) guard := by
    rw [← hafter.saving, hidle]
    decide
  have htook := (hreportsAfter 0).2 hin hnone
  rw [run_snoc] at htook
  exact ⟨start, _, _, hstart, rfl, rfl, hduring.saving.mpr hheld, hidle,
    (hreports 0).1 (.inr hheld), (hreportsAfter 1).1 (.inl (by simp [hin])),
    htook.shows hdone,
    htook.stored hanswer hdone _ keeps_shelf keepsEditable_shelf hknown .left, hpanes⟩

end Session

end Reconcile
