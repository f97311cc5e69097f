/-
Reconcile.Proofs.Session.KnownInputs — the bound input stays known.

A model keeps what is saved to it at the places that it knows
(`Model.Keeps`). The bound input is one of them at every point of a run
(`knownInputs_run`) if operations bind known places only and someone else
forgets none (`Operation.Knows`): saves forget none either, and nothing but
binding an input makes it the bound one.
-/
import Reconcile.Proofs.Session.Runs
import Reconcile.Proofs.Session.Seen

namespace Reconcile

/-- An operation binds known places only, and what someone else does leaves
known places known. -/
def Operation.Knows {σ : Type} (known : σ → Place → Prop) (state : σ) :
    Operation σ → Prop
  | .bind (some place) => known state place
  | .elsewhere change => ∀ s place, known s place → known (change s) place
  | _ => True

theorem Model.Keeps.known_carryOut {σ : Type} {m : Model σ}
    {known : σ → Place → Prop} (hm : m.Keeps known) {place : Place}
    {calls : List Call} {state : σ} (h : known state place) :
    known (m.carryOut state calls) place :=
  carryOut_keeps (fun hsave => hm.known_save hsave) calls h

namespace Session

variable {σ : Type} {m : Model σ} {known : σ → Place → Prop}

/-- The places that were known at the start still are, and the bound input
is one of them. -/
structure KnownInputs (known : σ → Place → Prop) (state : σ)
    (s : Session σ) : Prop where
  kept : ∀ {place : Place}, known state place → known s.state place
  bound : ∀ {place : Place}, s.input = some place → known state place

theorem KnownInputs.bound_known {state : σ} {s : Session σ}
    (h : KnownInputs known state s) {place : Place}
    (hin : s.input = some place) : known s.state place :=
  h.kept (h.bound hin)

theorem knownInputs_step (hm : m.Keeps known) {state : σ} {s : Session σ}
    {op : Operation σ} (hop : op.Knows known state)
    (h : KnownInputs known state s) :
    KnownInputs known state (s.step m op).1 where
  kept {place} hp := by
    by_cases hother : ∃ change, op = .elsewhere change
    · obtain ⟨change, rfl⟩ := hother
      exact hop s.state place (h.kept hp)
    · rw [state_step m s op fun change heq => hother ⟨change, heq⟩]
      exact hm.known_carryOut (h.kept hp)
  bound {place} hin := by
    rcases input_step hin with hbefore | rfl
    · exact h.bound hbefore
    · exact hop

theorem knownInputs_start {settings : Settings} {state : σ}
    {confirmer : Confirmer} {start : Session σ}
    (hstart : start? settings state confirmer = .ok start) :
    KnownInputs known state start := by
  obtain ⟨hunbound, -, hstate, -⟩ := start?_eq hstart
  refine ⟨fun hp => by rwa [hstate], fun hin => ?_⟩
  simp [hunbound] at hin

theorem knownInputs_run (hm : m.Keeps known) {settings : Settings} {state : σ}
    {confirmer : Confirmer} {start : Session σ}
    (hstart : start? settings state confirmer = .ok start)
    {ops : List (Operation σ)} (hops : ∀ op ∈ ops, op.Knows known state) :
    KnownInputs known state (start.run m ops) :=
  run_induction (knownInputs_start hstart)
    fun _ op hop h => knownInputs_step hm (hops op hop) h

end Session

end Reconcile
