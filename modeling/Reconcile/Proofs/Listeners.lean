/-
Reconcile.Proofs.Listeners — who is told of an event, from what was asked before.

A list of listeners holds those who are registered, and nothing of how they came to
be. The requests that were made of it say the same without a list. Who is on it is
told by the last word about each listener since the list was last cleared
(`lastWord?`), and in which order by when each was registered (`RegisteredAt`): a
listener that is added again without having been taken off keeps its place, and one
that was taken off in between comes last.

* `step_order` — all that one request does to a list: those whom it spares stay, in
  their order, and at most one listener joins them at the end.
* `lastWord?_snoc`, `registeredAt_snoc` — what one more request does to a history.
* `FollowsHistory` — which list a history calls for. The empty list follows no
  requests, every further request keeps that so (`FollowsHistory.snoc`), and no two
  lists follow one history (`FollowsHistory.unique`).

`delivery_follows_registrations` is what comes of it, after any requests and for
every next one.
-/
import Mathlib.Data.List.DropRight
import Mathlib.Data.List.Induction
import Reconcile.Listeners

namespace Reconcile.Listeners

/-! ## Requests -/

/-- What a list of listeners can be asked for. -/
inductive Request where
  | add (l : Listener)
  | remove (l : Listener)
  | clear
  | fire (e : Event)
  deriving DecidableEq, Repr

namespace Request

/-- Whether a request is a word about a listener: that it is to be on the list, or
that it is not to be. -/
def concerns (l : Listener) : Request → Bool
  | add other => other = l
  | remove other => other = l
  | _ => false

/-- Whether a listener that is on the list stays there. -/
def spares : Request → Listener → Bool
  | remove other => (· ≠ other)
  | clear => fun _ => false
  | _ => fun _ => true

theorem spares_iff {r : Request} {l : Listener} :
    r.spares l = true ↔ r ≠ .remove l ∧ r ≠ .clear := by
  cases r with
  | add _ => simp [spares]
  | remove other => simpa [spares] using not_congr eq_comm
  | clear => simp [spares]
  | fire _ => simp [spares]

end Request

/-- What comes of a request: the answer, where there is one, and who is called with
which event. -/
structure Response where
  answer : Option Bool := none
  calls : List (Listener × Event) := []
  deriving DecidableEq, Repr

/-- What a request does to a list of listeners, and what comes of it. -/
def step (ls : Listeners) : Request → Listeners × Response
  | .add l => (ls.add l).map id fun answer => { answer := some answer }
  | .remove l => (ls.remove l).map id fun answer => { answer := some answer }
  | .clear => (ls.clear, {})
  | .fire e => (ls, { calls := ls.fire e })

/-- The list after some requests, the first of them made of an empty list. -/
def after (past : List Request) : Listeners :=
  past.foldl (fun ls r => (ls.step r).1) {}

/-- Whom a request puts at the end of a list. -/
def joining (ls : Listeners) : Request → List Listener
  | .add l => if l ∈ ls.order then [] else [l]
  | _ => []

section Step

variable {ls : Listeners} {r : Request} {l : Listener}

theorem mem_joining : l ∈ ls.joining r ↔ r = .add l ∧ l ∉ ls.order := by
  cases r with
  | add other =>
    by_cases hother : other ∈ ls.order
    · simp only [joining, if_pos hother, List.not_mem_nil, Request.add.injEq, false_iff]
      rintro ⟨rfl, hl⟩
      exact hl hother
    · simp only [joining, if_neg hother, List.mem_singleton, Request.add.injEq]
      exact ⟨fun h => ⟨h.symm, h ▸ hother⟩, fun h => h.1.symm⟩
  | remove _ => simp [joining]
  | clear => simp [joining]
  | fire _ => simp [joining]

/-- No two listeners join at once. -/
theorem pairwise_joining {R : Listener → Listener → Prop} :
    (ls.joining r).Pairwise R := by
  cases r with
  | add l => by_cases hl : l ∈ ls.order <;> simp [joining, hl]
  | remove _ => exact .nil
  | clear => exact .nil
  | fire _ => exact .nil

/-- **One request.** Those whom it spares stay, in their order, and whom it adds comes
after them. -/
theorem step_order (ls : Listeners) (r : Request) :
    (ls.step r).1.order = ls.order.filter r.spares ++ ls.joining r := by
  cases r with
  | add l => by_cases hl : l ∈ ls.order <;> simp [step, add, joining, Request.spares, hl]
  | remove l =>
    by_cases hl : l ∈ ls.order
    · simp [step, remove, joining, Request.spares, hl]
    · have hspared : ls.order.filter (Request.remove l).spares = ls.order :=
        List.filter_eq_self.mpr fun k hk => by
          simpa [Request.spares] using ne_of_mem_of_not_mem hk hl
      simp [step, remove, joining, hl, hspared]
  | clear => simp [step, clear, joining, Request.spares]
  | fire _ => simp [step, joining, Request.spares]

theorem step_add (ls : Listeners) (l : Listener) :
    (ls.step (.add l)).2 = { answer := some (decide (l ∉ ls.order)) } := by
  by_cases hl : l ∈ ls.order <;> simp [step, add, hl]

theorem step_remove (ls : Listeners) (l : Listener) :
    (ls.step (.remove l)).2 = { answer := some (decide (l ∈ ls.order)) } := by
  by_cases hl : l ∈ ls.order <;> simp [step, remove, hl]

theorem map_fst_fire (ls : Listeners) (e : Event) :
    (ls.fire e).map Prod.fst = ls.order := by
  simp [fire, Function.comp_def]

theorem snd_of_mem_fire {e : Event} {call : Listener × Event} (h : call ∈ ls.fire e) :
    call.2 = e := by
  obtain ⟨l, -, rfl⟩ := List.mem_map.mp h
  rfl

theorem after_snoc (past : List Request) (r : Request) :
    after (past ++ [r]) = ((after past).step r).1 :=
  List.foldl_concat ..

end Step

/-! ## What the requests say -/

/-- The last word about a listener since the list was last cleared. -/
def lastWord? (past : List Request) (l : Listener) : Option Request :=
  ((past.rtakeWhile (· ≠ .clear)).filter (Request.concerns l)).getLast?

/-- A listener is registered since a request that came after `i` others: that request
was to add it, the answer was yes, and nothing after it was to take the listener off,
alone or with all the others. -/
def RegisteredAt (past : List Request) (l : Listener) (i : Nat) : Prop :=
  ∃ before since, past = before ++ .add l :: since ∧ before.length = i ∧
    ((after before).step (.add l)).2.answer = some true ∧
    .remove l ∉ since ∧ .clear ∉ since

section History

variable {past : List Request} {r : Request} {l : Listener} {i : Nat}

theorem lastWord?_snoc :
    lastWord? (past ++ [r]) l = some (.add l) ↔
      (lastWord? past l = some (.add l) ∧ r.spares l = true) ∨ r = .add l := by
  cases r with
  | add other =>
    by_cases h : other = l <;> simp [lastWord?, Request.concerns, Request.spares, h]
  | remove other =>
    by_cases h : other = l
    · simp [lastWord?, Request.concerns, Request.spares, h]
    · simp [lastWord?, Request.concerns, Request.spares, h, Ne.symm h]
  | clear => simp [lastWord?, Request.spares]
  | fire _ => simp [lastWord?, Request.concerns, Request.spares]

theorem RegisteredAt.lt_length (h : RegisteredAt past l i) : i < past.length := by
  obtain ⟨before, since, rfl, rfl, -⟩ := h
  simp

theorem not_registeredAt_nil : ¬ RegisteredAt [] l i :=
  fun h => Nat.not_lt_zero i h.lt_length

/-- A listener is registered since a request before the last one, which spares it, or
since the last one, with which it joins. -/
theorem registeredAt_snoc :
    RegisteredAt (past ++ [r]) l i ↔
      (RegisteredAt past l i ∧ r.spares l = true) ∨
        (l ∈ (after past).joining r ∧ past.length = i) := by
  rw [Request.spares_iff, mem_joining]
  constructor
  · rintro ⟨before, since, hpast, hindex, hgranted, hremoved, hcleared⟩
    rcases List.eq_nil_or_concat since with rfl | ⟨rest, last, rfl⟩
    · obtain ⟨rfl, hlast⟩ := List.append_inj' hpast rfl
      have hnew : l ∉ (after past).order := by simpa [step_add] using hgranted
      exact .inr ⟨⟨List.singleton_inj.mp hlast, hnew⟩, hindex⟩
    · have hsplit : past ++ [r] = (before ++ .add l :: rest) ++ [last] := by
        simpa using hpast
      obtain ⟨rfl, hlast⟩ := List.append_inj' hsplit rfl
      obtain rfl := List.singleton_inj.mp hlast
      simp only [List.concat_eq_append, List.mem_append, List.mem_singleton,
        not_or] at hremoved hcleared
      exact .inl ⟨⟨before, rest, rfl, hindex, hgranted, hremoved.1, hcleared.1⟩,
        Ne.symm hremoved.2, Ne.symm hcleared.2⟩
  · rintro (⟨⟨before, since, rfl, hindex, hgranted, hremoved, hcleared⟩, hr, hclear⟩ |
      ⟨⟨rfl, hnew⟩, hindex⟩)
    · exact ⟨before, since ++ [r], by simp, hindex, hgranted,
        by simp [hremoved, hr.symm], by simp [hcleared, hclear.symm]⟩
    · exact ⟨past, [], rfl, hindex, by simp [step_add, hnew], by simp, by simp⟩

end History

/-! ## The list and its history -/

/-- Some listeners, in order, are those that the requests in the past call for. -/
structure FollowsHistory (past : List Request) (order : List Listener) : Prop where
  nodup : order.Nodup
  /-- A listener is among them exactly if the last word about it, since the list was
  last cleared, was to add it. -/
  mem_iff : ∀ l, l ∈ order ↔ lastWord? past l = some (.add l)
  /-- Each of them is registered since one request, and no one else is. -/
  registered : ∀ l, l ∈ order ↔ ∃ i, RegisteredAt past l i
  once : ∀ l i j, RegisteredAt past l i → RegisteredAt past l j → i = j
  /-- They stand in the order of these requests. -/
  ordered : order.Pairwise fun l k =>
    ∀ i j, RegisteredAt past l i → RegisteredAt past k j → i < j

namespace FollowsHistory

variable {past : List Request} {order other : List Listener} {r : Request}
  {l : Listener} {i j : Nat}

theorem nil : FollowsHistory [] [] where
  nodup := .nil
  mem_iff l := by simp [lastWord?]
  registered l := by simp [not_registeredAt_nil]
  once l i j hi _ := absurd hi not_registeredAt_nil
  ordered := .nil

/-- At most one list follows a history. -/
theorem unique (h : FollowsHistory past order) (g : FollowsHistory past other) :
    order = other := by
  have hmem : ∀ l, l ∈ order ↔ l ∈ other := fun l =>
    (h.mem_iff l).trans (g.mem_iff l).symm
  have hperm : order.Perm other :=
    (List.perm_ext_iff_of_nodup h.nodup g.nodup).mpr hmem
  refine hperm.eq_of_pairwise (fun l k hl hk hlk hkl => ?_) h.ordered g.ordered
  -- each of the two would have been registered before the other
  obtain ⟨i, hi⟩ := (h.registered l).mp hl
  obtain ⟨j, hj⟩ := (g.registered k).mp hk
  exact absurd (hlk i j hi hj) (Nat.lt_asymm (hkl j i hj hi))

/-- Who is on the list already does not register once more. -/
theorem registeredAt_of_mem (hl : l ∈ (after past).order)
    (hi : RegisteredAt (past ++ [r]) l i) : RegisteredAt past l i := by
  rcases registeredAt_snoc.mp hi with ⟨hi, -⟩ | ⟨hjoins, -⟩
  · exact hi
  · exact absurd hl (mem_joining.mp hjoins).2

/-- Who joins is registered since the last request, and since no other. -/
theorem eq_length_of_joins (h : FollowsHistory past (after past).order)
    (hl : l ∈ (after past).joining r) (hi : RegisteredAt (past ++ [r]) l i) :
    i = past.length := by
  rcases registeredAt_snoc.mp hi with ⟨hi, -⟩ | ⟨-, hindex⟩
  · exact absurd ((h.registered l).mpr ⟨i, hi⟩) (mem_joining.mp hl).2
  · exact hindex.symm

/-- **The step.** A list that follows its history does so after one more request. -/
theorem snoc (h : FollowsHistory past (after past).order) (r : Request) :
    FollowsHistory (past ++ [r]) (after (past ++ [r])).order := by
  have horder : (after (past ++ [r])).order
      = (after past).order.filter r.spares ++ (after past).joining r := by
    rw [after_snoc, step_order]
  have hmem : ∀ l, l ∈ (after (past ++ [r])).order ↔
      (l ∈ (after past).order ∧ r.spares l = true) ∨ l ∈ (after past).joining r := by
    simp [horder]
  refine ⟨?nodup, fun l => ?mem_iff, fun l => ?registered, fun l i j hi hj => ?once,
    ?ordered⟩
  case nodup =>
    rw [horder]
    refine List.nodup_append.mpr ⟨h.nodup.filter _, pairwise_joining, ?_⟩
    rintro l hl _ hjoins rfl
    exact (mem_joining.mp hjoins).2 (List.mem_of_mem_filter hl)
  case mem_iff =>
    rw [hmem, lastWord?_snoc, ← h.mem_iff, mem_joining]
    constructor
    · exact Or.imp_right And.left
    · rintro (hstays | rfl)
      · exact .inl hstays
      · -- a request to add a listener that is there already changes nothing
        by_cases hl : l ∈ (after past).order
        · exact .inl ⟨hl, rfl⟩
        · exact .inr ⟨rfl, hl⟩
  case registered =>
    simp only [hmem, registeredAt_snoc, exists_or, exists_and_right, exists_eq_right',
      h.registered]
  case once =>
    rcases registeredAt_snoc.mp hi with ⟨hstays, -⟩ | ⟨hjoins, hindex⟩
    · have hl : l ∈ (after past).order := (h.registered l).mpr ⟨i, hstays⟩
      exact h.once l i j hstays (registeredAt_of_mem hl hj)
    · exact hindex.symm.trans (h.eq_length_of_joins hjoins hj).symm
  case ordered =>
    rw [horder]
    refine List.pairwise_append.mpr ⟨?_, pairwise_joining, ?_⟩
    · refine (h.ordered.filter _).imp_of_mem fun {l k} hl hk hlk i j hi hj => ?_
      exact hlk i j (registeredAt_of_mem (List.mem_of_mem_filter hl) hi)
        (registeredAt_of_mem (List.mem_of_mem_filter hk) hj)
    · intro l hl k hk i j hi hj
      rw [h.eq_length_of_joins hk hj]
      exact (registeredAt_of_mem (List.mem_of_mem_filter hl) hi).lt_length

end FollowsHistory

/-- **Every run.** The list follows the requests that were made of it. -/
theorem followsHistory_after (past : List Request) :
    FollowsHistory past (after past).order := by
  -- the past grows at its end, so the last request is taken off, not the first
  induction past using List.reverseRecOn with
  | nil => exact .nil
  | append_singleton past r ih => exact ih.snoc r

/-- **Who is told follows from who was registered.** After any requests, the list is
the one that they call for: no listener is on it twice, one is on it exactly if, since
the list was last cleared, the last word about it was to add it, and they stand in the
order of the requests since which they are registered. A request to add a listener is
answered yes exactly if it is not on the list, one to remove it exactly if it is, and
an event calls those who are on the list, once each and in their order, with that
event. No other request calls anyone. -/
theorem delivery_follows_registrations (past : List Request) :
    (∀ order, FollowsHistory past order ↔ order = (after past).order) ∧
    (∀ l, ((after past).step (.add l)).2
      = { answer := some (decide (l ∉ (after past).order)) }) ∧
    (∀ l, ((after past).step (.remove l)).2
      = { answer := some (decide (l ∈ (after past).order)) }) ∧
    ((after past).step .clear).2 = {} ∧
    ∀ e, ∃ calls, ((after past).step (.fire e)).2 = { calls := calls } ∧
      calls.map Prod.fst = (after past).order ∧ ∀ call ∈ calls, call.2 = e := by
  have hfollows := followsHistory_after past
  refine ⟨fun order => ⟨fun h => h.unique hfollows, ?_⟩, step_add _, step_remove _, rfl,
    fun e => ⟨(after past).fire e, rfl, map_fst_fire _ e, fun _ => snd_of_mem_fire⟩⟩
  rintro rfl
  exact hfollows

/-- Listeners 1, 2 and 3 are added after the list was cleared of listener 4. To add 2
once more is refused, and 2 keeps its place; 1 is taken off, added again, and comes
last. -/
theorem delivery_after_registering_again :
    let past : List Request := [.add 4, .clear, .add 1, .add 2, .add 3, .add 2,
      .fire (.dirtyState true), .remove 1, .remove 7, .add 1]
    let event : Event := .threeWay true
    FollowsHistory past [2, 3, 1] ∧
      (∀ i, RegisteredAt past 1 i ↔ i = 9) ∧ (∀ i, RegisteredAt past 2 i ↔ i = 3) ∧
      ((after past).step (.add 2)).2 = { answer := some false } ∧
      ((after past).step (.add 4)).2 = { answer := some true } ∧
      ((after past).step (.remove 3)).2 = { answer := some true } ∧
      ((after past).step (.remove 7)).2 = { answer := some false } ∧
      ((after past).step (.fire event)).2
        = { calls := [(2, event), (3, event), (1, event)] } := by
  intro past event
  have horder : (after past).order = [2, 3, 1] := by decide
  obtain ⟨hlist, hadd, hremove, -, hfire⟩ := delivery_follows_registrations past
  simp only [horder] at hadd hremove hfire
  have hfollows : FollowsHistory past [2, 3, 1] := (hlist _).mpr horder.symm
  have hfirst : RegisteredAt past 1 9 := ⟨past.take 9, [], by decide⟩
  have hsecond : RegisteredAt past 2 3 := ⟨past.take 3, past.drop 4, by decide⟩
  refine ⟨hfollows, fun i => ⟨fun h => hfollows.once 1 i 9 h hfirst, ?_⟩,
    fun i => ⟨fun h => hfollows.once 2 i 3 h hsecond, ?_⟩, hadd 2, hadd 4, hremove 3,
    hremove 7, ?_⟩
  · rintro rfl
    exact hfirst
  · rintro rfl
    exact hsecond
  · obtain ⟨calls, hcalls, hcalled, hevent⟩ := hfire event
    have hpaired : (calls.map Prod.fst).map (·, event) = calls := by
      rw [List.map_map]
      refine (List.map_congr_left fun call hcall => ?_).trans (List.map_id calls)
      rw [Function.comp_apply, ← hevent call hcall]
      rfl
    rw [hcalls, ← hpaired, hcalled]
    rfl

end Reconcile.Listeners
