/-
Reconcile.Proofs.Command.Validation — a check of settings and their use agree.

A check of a file goes step by step, so that it can report on settings that are not
valid; a comparison takes what is accepted as a whole. Both come to the same verdict,
with and without a report, and the report shows what the comparison uses
(`validate_ends`). Here a report is the text that is printed: what it shows is what
is read in it (`Checked.reports`). A comparison may change the policy after that, and its session
checks the settings again. No demand on settings looks at the policy, so a session
never refuses what was accepted (`start?_settings`).

`validation_agrees_with_use` is all of it, for every disk and environment.
-/
import Reconcile.Proofs.Command.Stages
import Reconcile.Proofs.Json
import Reconcile.Proofs.Settings.Resolution

namespace Reconcile

/-- The value of a field of an object. -/
def Json.field? : Json → String → Option Json
  | .object fields, key => fields.lookup key
  | _, _ => none

theorem SavePolicy.name_injective {p q : SavePolicy} (h : p.name = q.name) : p = q :=
  Option.some.inj ((ofName?_eq_some_iff.mpr h).symm.trans (ofName?_eq_some_iff.mpr rfl)).symm

namespace Command

open Reconcile.Terminal (Screen)

variable {d : Disk} {env : Environment} {screen : Screen} {path : String}

/-! ## The verdict -/

section Verdict

variable {s used : Settings} {policy : Option String}

theorem examine_of_finish_ok (h : s.finish policy = .ok used) :
    examine s policy = (used, none) := by
  obtain ⟨changed, hoverride, h⟩ := ok_of_bind h
  obtain ⟨⟨⟩, hcheck, h⟩ := ok_of_bind h
  obtain rfl := Except.ok.inj h
  simp only [examine, hoverride, hcheck]

theorem examine_of_finish_error {e : SettingsError} (h : s.finish policy = .error e) :
    ∃ shown, examine s policy = (shown, some e) := by
  rcases error_of_bind h with hoverride | ⟨changed, hoverride, h⟩
  · exact ⟨s, by simp only [examine, hoverride]⟩
  · rcases error_of_bind h with hcheck | ⟨⟨⟩, -, h⟩
    · exact ⟨changed, by simp only [examine, hoverride, hcheck]⟩
    · cases h

theorem settingsFor_file_ok_iff :
    settingsFor d env (some path) = .ok used ↔ ∃ loaded, Settings.load d path = .ok loaded ∧
      loaded.finish (variableText env Settings.policyVariable) = .ok used := by
  rw [← bind_eq_ok_iff]
  simp only [settingsFor, Settings.resolve]
  split <;> simp [*]

/-- How a check of a settings file ends: with success exactly if a comparison has
settings to use, and then a report shows these. -/
inductive Checked (d : Disk) (env : Environment) (screen : Screen) (path : String)
    (json : Bool) : Outcome → Prop where
  | unloaded {chain : Chain} (unusable : ∀ s, settingsFor d env (some path) ≠ .ok s) :
      Checked d env screen path json (fail screen d chain)
  | accepted {used : Settings} {after : Screen}
      (usable : settingsFor d env (some path) = .ok used)
      (reported : json = true → after = screen.line (report path used none).pretty) :
      Checked d env screen path json (succeed after d)
  | refused {shown : Settings} {e : SettingsError} {after : Screen} {chain : Chain}
      (unusable : ∀ s, settingsFor d env (some path) ≠ .ok s)
      (reported : json = true → after = screen.line (report path shown (some e)).pretty) :
      Checked d env screen path json (fail after d chain)

theorem validate_ends (d : Disk) (env : Environment) (screen : Screen) (path : String)
    (json : Bool) : Checked d env screen path json (validate d env screen path json) := by
  unfold validate
  cases hload : Settings.load d path with
  | error e => exact .unloaded fun s hs => by simp [settingsFor_file_ok_iff, hload] at hs
  | ok loaded =>
    cases hfinish : loaded.finish (variableText env Settings.policyVariable) with
    | ok used =>
      have husable := settingsFor_file_ok_iff.mpr ⟨loaded, hload, hfinish⟩
      simp only [examine_of_finish_ok hfinish]
      cases json with
      | true => exact .accepted husable fun _ => rfl
      | false => exact .accepted husable (by simp)
    | error e =>
      have hunusable : ∀ s, settingsFor d env (some path) ≠ .ok s := fun s hs => by
        simp [settingsFor_file_ok_iff, hload, hfinish] at hs
      obtain ⟨shown, hshown⟩ := examine_of_finish_error hfinish
      have hrefused : ∀ {after : Screen} {chain : Chain},
          (json = true → after = screen.line (report path shown (some e)).pretty) →
          Checked d env screen path json (fail after d chain) := .refused hunusable
      simp only [hshown]
      cases json with
      | true => exact hrefused fun _ => rfl
      | false => exact hrefused (by simp)

theorem Checked.exit_iff {json : Bool} {outcome : Outcome}
    (h : Checked d env screen path json outcome) :
    outcome.exit = 0 ↔ ∃ s, settingsFor d env (some path) = .ok s := by
  cases h with
  | accepted usable => exact iff_of_true rfl ⟨_, usable⟩
  | unloaded unusable | refused unusable =>
    refine iff_of_false (by simp [fail]) ?_
    rintro ⟨s, hs⟩
    exact unusable s hs

end Verdict

/-! ## The report -/

/-- Settings that look alike in a report are the same. -/
theorem settingsReport_injective {s s' : Settings}
    (h : settingsReport s = settingsReport s') : s = s' := by
  obtain ⟨⟨policy, visible, ignore, mirrored, sides⟩, messages, level⟩ := s
  obtain ⟨⟨policy', visible', ignore', mirrored', sides'⟩, messages', level'⟩ := s'
  cases messages
  cases messages'
  simp only [settingsReport, Json.object.injEq, Json.string.injEq, Json.bool.injEq,
    List.cons.injEq, Prod.mk.injEq, true_and, and_true] at h
  obtain ⟨rfl, ⟨rfl, rfl, rfl, rfl⟩, rfl, rfl, hleft, rfl, hright, hpolicy⟩ := h
  rw [SavePolicy.name_injective hpolicy, Sided.ext hleft hright]

/-- What a check prints as a report: nothing if nothing could be loaded, and else a
text in which an object is read. That says whether the settings are valid, which is so
exactly if a comparison has settings to use, and then it shows these. -/
inductive Reports (d : Disk) (env : Environment) (path : String) : String → Prop where
  | nothing (unusable : ∀ s, settingsFor d env (some path) ≠ .ok s) : Reports d env path ""
  | object {text : String} {read : Json} {valid : Bool}
      (holds : Json.ofText? text = some read)
      (verdict : read.field? "valid" = some (.bool valid))
      (valid_iff : valid = true ↔ ∃ s, settingsFor d env (some path) = .ok s)
      (shows_used : ∀ s, settingsFor d env (some path) = .ok s ↔
        valid = true ∧ read.field? "config" = some (settingsReport s)) :
      Reports d env path text

theorem Checked.reports {outcome : Outcome}
    (h : Checked d env screen path true outcome) (hscreen : screen.out = "") :
    Reports d env path outcome.out := by
  have hread : ∀ (after : Screen) {j : Json}, after = screen.line j.pretty →
      Json.ofText? after.out = some j := by
    rintro _ j rfl
    simp only [Screen.line, Screen.print, hscreen, String.empty_append]
    exact Json.ofText?_pretty j (by simp [Json.isBlank])
  cases h with
  | unloaded unusable =>
    rw [show (fail screen d _).out = "" from hscreen]
    exact .nothing unusable
  | @accepted used after usable reported =>
    refine .object (hread after (reported rfl))
      (show Json.field? _ "valid" = some (.bool true) from rfl)
      (iff_of_true rfl ⟨used, usable⟩) fun s => ⟨fun hs => ?_, ?_⟩
    · exact ⟨rfl, Except.ok.inj (usable.symm.trans hs) ▸ rfl⟩
    · rintro ⟨-, hconfig⟩
      rw [usable, settingsReport_injective (Option.some.inj hconfig)]
  | @refused shown e after chain unusable reported =>
    refine .object (hread after (reported rfl))
      (show Json.field? _ "valid" = some (.bool false) from rfl)
      (iff_of_false (by simp) ?_) fun s => ?_
    · rintro ⟨s, hs⟩
      exact unusable s hs
    · exact iff_of_false (unusable s) (by simp)

/-! ## The session -/

theorem check_of_settingsFor {config : Option String} {s : Settings}
    (h : settingsFor d env config = .ok s) : s.check = .ok () := by
  cases config with
  | some path =>
    obtain ⟨loaded, -, hfinish⟩ := settingsFor_file_ok_iff.mp h
    obtain ⟨changed, -, h⟩ := ok_of_bind hfinish
    obtain ⟨⟨⟩, hcheck, h⟩ := ok_of_bind h
    exact Except.ok.inj h ▸ hcheck
  | none =>
    simp only [settingsFor] at h
    split at h
    · simp at h
    · split at h
      · simp at h
      · rename_i hcheck
        exact Except.ok.inj h ▸ hcheck

/-- Settings are as valid when nobody is to be asked. -/
theorem check_settings (s : Settings) (args : CompareArguments) :
    (Comparison.settings s args).check = s.check := by
  unfold Comparison.settings
  split <;> rfl

/-- **A session starts** with everything that was accepted. -/
theorem start?_settings {σ : Type} {config : Option String} {s : Settings}
    (h : settingsFor d env config = .ok s) (args : CompareArguments) (state : σ)
    (confirmer : Confirmer) :
    ∃ session, Session.start? (Comparison.settings s args) state confirmer = .ok session := by
  rw [Session.start?, check_settings, check_of_settingsFor h]
  exact ⟨_, rfl⟩

theorem head?_chain_ne (e : LoadError) :
    e.chain.head? ≠ some "invalid viewer configuration" := by
  have hfirst : ∀ {c : Char} {text rest : String}, text.toList.head? = some c → c ≠ 'i' →
      text ++ rest ≠ "invalid viewer configuration" := by
    intro c text rest hhead hc heq
    have hi : (text ++ rest).toList.head? = some 'i' := heq ▸ rfl
    rw [String.toList_append, List.head?_append, hhead] at hi
    exact hc (Option.some.inj hi)
  intro h
  cases e with
  | unreadable path fault => exact hfirst (c := 'f') rfl (by decide) (Option.some.inj h)
  | noAncestor path =>
    rw [LoadError.chain, String.append_assoc] at h
    exact hfirst (c := 'a') rfl (by decide) (Option.some.inj h)
  | noSides left right =>
    simp only [LoadError.chain, String.append_assoc] at h
    exact hfirst (c := 'n') rfl (by decide) (Option.some.inj h)

/-- A comparison that does not start has been asked for something else that cannot be
done. -/
theorem start_error {config : Option String} {s : Settings} {args : CompareArguments}
    {selection : Selection} {chain : Chain} (h : settingsFor d env config = .ok s)
    (hstart : Comparison.start d s args selection screen = .error chain) :
    chain.head? ≠ some "invalid viewer configuration" := by
  simp only [Comparison.start] at hstart
  split at hstart
  · rw [← Except.error.inj hstart]
    decide
  · split at hstart
    · rename_i e hload
      exact Except.error.inj hstart ▸ head?_chain_ne e
    · rename_i node hload
      obtain ⟨session, hsession⟩ := start?_settings h args
        (⟨d, Comparison.paths args, node, (Comparison.settings s args).viewer.editable⟩ :
          FileStore) (.atTerminal selection)
      rw [hsession] at hstart
      simp at hstart

/-! ## Command lines -/

section Lines

open Level

variable {p : ValidateParts}

theorem option_config (hpath : path ≠ "") (hnone : p.config = none) :
    validateLevel.option p ("--config=" ++ path) =
      .ok ({ p with config := some path }, none) := by
  have hlist : ("--config=" ++ path).toList =
      '-' :: '-' :: ("config=".toList ++ path.toList) := by
    rw [String.toList_append]
    rfl
  have hsplit : splitLong ("config=".toList ++ path.toList) = ("config", some path) := by
    show ("config", some (String.ofList path.toList)) = _
    rw [String.ofList_toList]
  have heffect : validateLevel.long? "config" = some (.value fun p text => do
      return { p with config := ← once "config" p.config (← Command.path text) }) := rfl
  unfold option
  rw [hlist]
  simp only [longOption, hsplit, heffect]
  simp [Command.path, once, hnone, hpath, bind, Except.bind, pure, Except.pure]

theorem read_config (hpath : path ≠ "") (hnone : p.config = none) :
    validateLevel.read p ["--config=" ++ path] =
      .ok ({ p with config := some path }, []) := by
  have hfirst : ("--config=" ++ path).toList =
      '-' :: '-' :: 'c' :: ("onfig=".toList ++ path.toList) := by
    rw [String.toList_append]
    rfl
  have hne : "--config=" ++ path ≠ "--" := by
    intro heq
    rw [heq] at hfirst
    simp at hfirst
  have hoption : isOption ("--config=" ++ path) = true := by
    rw [isOption, hfirst]
    rfl
  rw [Level.read, if_neg hne, if_pos hoption, option_config hpath hnone]
  show Level.read _ _ [] = _
  rw [Level.read]

theorem ofArguments_validate {args : List String} {json : Bool}
    (h : validateLevel.read {} args = .ok (⟨some path, json⟩, [])) :
    Request.ofArguments ("validate" :: args) = .ok (.validate path json) := by
  have hprogram : programLevel.read none ("validate" :: args) =
      .ok (none, "validate" :: args) := by
    rw [Level.read]
    rfl
  rw [Request.ofArguments, hprogram]
  show readCommand none "validate" args = _
  have hcommand : Topic.ofCommand? "validate" = some .validate := rfl
  simp only [readCommand, hcommand, h]
  rfl

/-- Every path can be named on a command line. -/
theorem ofArguments_config (hpath : path ≠ "") :
    Request.ofArguments ["validate", "--config=" ++ path] = .ok (.validate path false) ∧
      Request.ofArguments ["validate", "--json", "--config=" ++ path] =
        .ok (.validate path true) := by
  refine ⟨ofArguments_validate (read_config hpath rfl), ofArguments_validate ?_⟩
  have hjson : validateLevel.read {} ["--json", "--config=" ++ path] =
      validateLevel.read { json := true } ["--config=" ++ path] := by
    rw [Level.read]
    rfl
  rw [hjson, read_config hpath rfl]

end Lines

/-! ## Validation and use -/

/-- **Validation agrees with use**, whatever is on the disk and in the environment. A
check of a settings file exits well exactly if a comparison has settings to use, with a
report and without; what is printed as a report says so to one who reads it, and shows
the settings that are used. With what is accepted, from a file or without one, a session
starts, whether or not somebody is to be asked, so that a comparison never fails because
its settings are not valid. -/
theorem validation_agrees_with_use (d : Disk) (env : Environment)
    (selection : Selection) :
    (∀ path, path ≠ "" →
      Request.ofArguments ["validate", "--config=" ++ path] = .ok (.validate path false) ∧
      Request.ofArguments ["validate", "--json", "--config=" ++ path] =
        .ok (.validate path true)) ∧
    (∀ line path json, Request.ofArguments line = .ok (.validate path json) →
      ((run line env d selection).exit = 0 ↔ ∃ s, settingsFor d env (some path) = .ok s) ∧
      (json = true → Reports d env path (run line env d selection).out)) ∧
    ∀ config s, settingsFor d env config = .ok s → ∀ args,
      (args.yes = false → Comparison.settings s args = s) ∧
      (∀ (store : FileStore) confirmer, ∃ session,
        Session.start? (Comparison.settings s args) store confirmer = .ok session ∧
          session.settings = Comparison.settings s args) ∧
      ∀ screen chain, Comparison.start d s args selection screen = .error chain →
        chain.head? ≠ some "invalid viewer configuration" := by
  refine ⟨fun path hpath => ofArguments_config hpath, fun line path json hline => ?_,
    fun config s hs args => ⟨fun hyes => ?_, fun store confirmer => ?_,
      fun screen chain hstart => start_error hs hstart⟩⟩
  · simp only [run, hline]
    have hends := validate_ends d env { style := styleOf env } path json
    refine ⟨hends.exit_iff, ?_⟩
    rintro rfl
    exact hends.reports rfl
  · simp [Comparison.settings, hyes]
  · obtain ⟨session, hsession⟩ := start?_settings hs args store confirmer
    exact ⟨session, hsession, (Session.start?_eq hsession).2.2.2.1⟩

/-- One file has settings that can be used, and the session of a comparison starts with
them even if nobody is to be asked. The other one has settings that contradict each
other. -/
theorem validation_of_two_files :
    let files : Disk := {
      home := []
      entries := [(["good"], .file "[viewer]\nmirrored = true\n".toUTF8),
        (["bad"], .file "[viewer]\nancestor_visible = true\nignore_ancestor = true\n".toUTF8)] }
    let used : Settings := { viewer := { mirrored := true } }
    let args : CompareArguments := { left := "a", right := "b", yes := true }
    settingsFor files [] (some "good") = .ok used ∧
      (run ["validate", "--config=good"] [] files .failed).exit = 0 ∧
      (run ["validate", "--json", "--config=bad"] [] files .failed).exit ≠ 0 ∧
      Reports files [] "bad"
        (run ["validate", "--json", "--config=bad"] [] files .failed).out ∧
      (∀ (store : FileStore) confirmer, ∃ session,
        Session.start? (Comparison.settings used args) store confirmer = .ok session ∧
          session.settings = Comparison.settings used args) ∧
      ∀ screen chain, Comparison.start files used args .failed screen = .error chain →
        chain.head? ≠ some "invalid viewer configuration" := by
  intro files used args
  have husable : settingsFor files [] (some "good") = .ok used :=
    ok_of_toOption (by decide +kernel)
  obtain ⟨e, hunusable⟩ : ∃ e, settingsFor files [] (some "bad") = .error e :=
    error_of_toOption (by decide +kernel)
  obtain ⟨hlines, hchecks, hstarts⟩ := validation_agrees_with_use files [] .failed
  have hgood := hchecks _ _ _ (hlines "good" (by decide)).1
  have hbad := hchecks _ _ _ (hlines "bad" (by decide)).2
  have hstart := hstarts _ _ husable args
  refine ⟨husable, hgood.1.mpr ⟨used, husable⟩, fun hexit => ?_, hbad.2 rfl, hstart.2⟩
  obtain ⟨s, hs⟩ := hbad.1.mp hexit
  simp [hunusable] at hs

end Command

end Reconcile
