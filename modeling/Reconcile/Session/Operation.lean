/-
Reconcile.Session.Operation — everything that can happen to a session, as
data, and what a whole run of it does.
-/
import Reconcile.Session

namespace Reconcile

/-- Something that happens to a session. -/
inductive Operation (σ : Type) where
  | bind (input : Option Place)
  | setDirty (side : Side) (value : Bool)
  | applyEdit (side : Side) (bytes : ByteArray)
  | copy (direction : Direction)
  | flush (side : Side)
  | flushAll
  | refresh
  | externalChange
  | inputChanged (input : Place)
  | labelsChanged (inputs : List Place)
  | setMirrored (value : Bool)
  | setAncestorVisible (value : Bool)
  | setIgnoreAncestor (value : Bool)
  | addListener (listener : Listener)
  | removeListener (listener : Listener)
  | dispose
  /-- A save begins; a guard holds it open. -/
  | beginSave
  /-- A guard is dropped. -/
  | endSave (guard : SaveGuard)
  /-- The state behind the inputs is changed by someone else. -/
  | elsewhere (change : σ → σ)

/-- What an operation answers. -/
inductive Reply where
  | done
  | outcome (outcome : Session.SwitchOutcome)
  | flag (value : Bool)
  | failed (error : SaveError)
  deriving DecidableEq, Repr

namespace Reply

/-- The answer of an operation that may fail and has nothing else to say. -/
def ofUnit : Except SaveError Unit → Reply
  | .ok () => done
  | .error e => failed e

/-- The answer of an operation that may replace what the viewer shows. -/
def ofOutcome : Except SaveError Session.SwitchOutcome → Reply
  | .ok o => outcome o
  | .error e => failed e

end Reply

namespace Session

variable {σ : Type}

/-- What an operation does to a session, and what it answers. -/
def step (m : Model σ) (s : Session σ) : Operation σ → Session σ × Reply
  | .bind input => (s.bind m input).map id .ofOutcome
  | .setDirty side value => (s.setDirty side value, .done)
  | .applyEdit side bytes => (s.applyEdit side bytes, .done)
  | .copy direction => (s.copy m direction).map id .flag
  | .flush side => (s.flush m side).map id .ofUnit
  | .flushAll => (s.flushAll m).map id .ofUnit
  | .refresh => (s.refresh m, .done)
  | .externalChange => (s.externalChange m).map id .ofUnit
  | .inputChanged input => (s.inputChanged m input).map id .ofUnit
  | .labelsChanged inputs => (s.labelsChanged m inputs, .done)
  | .setMirrored value => (s.setMirrored m value).map id .ofOutcome
  | .setAncestorVisible value => (s.setAncestorVisible value).map id .flag
  | .setIgnoreAncestor value => (s.setIgnoreAncestor value, .done)
  | .addListener l =>
    ({ s with listeners := (s.listeners.add l).1 }, .done)
  | .removeListener l =>
    ({ s with listeners := (s.listeners.remove l).1 }, .done)
  | .dispose => (s.dispose m, .done)
  | .beginSave => ({ s with registry := s.registry.beginSave }, .done)
  | .endSave guard => ({ s with registry := s.registry.endSave guard }, .done)
  | .elsewhere change => ({ s with state := change s.state }, .done)

/-- The session after a run of operations. -/
def run (m : Model σ) (s : Session σ) (ops : List (Operation σ)) : Session σ :=
  ops.foldl (fun s op => (s.step m op).1) s

end Session

end Reconcile
