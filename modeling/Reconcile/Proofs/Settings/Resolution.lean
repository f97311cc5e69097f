/-
Reconcile.Proofs.Settings.Resolution — which settings are accepted, and what is said
of the others.

Settings come from a file, take a policy from the environment, and are checked. The
three steps are told without each other here: what a file holds (`Loads`), what the
variable asks for (`Asks`), and what is demanded of settings (`demands`). Accepted is
what is loaded and valid, with the policy that is asked for in its place; of everything
else it is said what the first step that fails says of it (`resolve_accepts_valid`).

* `check_error_iff` — the check names the first demand that is not met.
* `override_ok_iff` — the policy of the environment is the one whose name stands there,
  with blanks around it.
-/
import Reconcile.Command
import Reconcile.Proofs.Session.Policies
import Reconcile.Proofs.Settings.Overlay

namespace Reconcile

/-! ## Blanks around a text -/

namespace Text

/-- A text that is another one with blanks before and after it. -/
def Padded (text inner : String) : Prop :=
  ∃ before after : List Char, text.toList = before ++ inner.toList ++ after ∧
    (∀ c ∈ before, isBlank c = true) ∧ ∀ c ∈ after, isBlank c = true

/-- A text that begins and ends with something that is not blank. -/
structure Tight (inner : List Char) : Prop where
  first : ∃ c ∈ inner.head?, isBlank c = false
  last : ∃ c ∈ inner.getLast?, isBlank c = false

variable {cs inner before after : List Char}

/-- What is taken off is blank. -/
theorem eq_append_trimChars (cs : List Char) :
    ∃ before after, cs = before ++ trimChars cs ++ after ∧
      (∀ c ∈ before, isBlank c = true) ∧ ∀ c ∈ after, isBlank c = true := by
  have hblank : ∀ cs : List Char, ∀ c ∈ cs.takeWhile isBlank, isBlank c = true :=
    fun _ => List.all_eq_true.mp List.all_takeWhile
  refine ⟨cs.takeWhile isBlank, ((cs.dropWhile isBlank).reverse.takeWhile isBlank).reverse,
    ?_, hblank cs, fun c hc => hblank _ c (List.mem_reverse.mp hc)⟩
  rw [trimChars, List.append_assoc, ← List.reverse_append, List.takeWhile_append_dropWhile,
    List.reverse_reverse, List.takeWhile_append_dropWhile]

theorem dropWhile_blank_append (hbefore : ∀ c ∈ before, isBlank c = true)
    (hinner : ∃ c ∈ inner.head?, isBlank c = false) :
    (before ++ inner ++ after).dropWhile isBlank = inner ++ after := by
  obtain ⟨c, hc, hdark⟩ := hinner
  obtain ⟨rest, rfl⟩ := List.head?_eq_some_iff.mp hc
  rw [List.append_assoc, List.dropWhile_append_of_pos hbefore, List.cons_append,
    List.dropWhile_cons_of_neg (by simp [hdark])]

theorem trimChars_append (hinner : Tight inner) (hbefore : ∀ c ∈ before, isBlank c = true)
    (hafter : ∀ c ∈ after, isBlank c = true) :
    trimChars (before ++ inner ++ after) = inner := by
  have hlast : ∃ c ∈ inner.reverse.head?, isBlank c = false := by
    simpa using hinner.last
  have hreverse : (after.reverse ++ inner.reverse ++ []).dropWhile isBlank =
      inner.reverse ++ [] :=
    dropWhile_blank_append (fun c hc => hafter c (List.mem_reverse.mp hc)) hlast
  rw [List.append_nil, List.append_nil] at hreverse
  rw [trimChars, dropWhile_blank_append hbefore hinner.first, List.reverse_append, hreverse,
    List.reverse_reverse]

theorem trim_eq_iff {text inner : String} (hinner : Tight inner.toList) :
    trim text = inner ↔ Padded text inner := by
  constructor
  · rintro rfl
    simpa [Padded, trim] using eq_append_trimChars text.toList
  · rintro ⟨before, after, htext, hbefore, hafter⟩
    rw [trim, htext, trimChars_append hinner hbefore hafter, String.ofList_toList]

/-- Something in a text is not blank. -/
def HasContent (text : String) : Prop := ∃ c ∈ text.toList, isBlank c = false

theorem allBlank_eq_false_iff {text : String} : allBlank text = false ↔ HasContent text := by
  simp [allBlank, HasContent]

end Text

open Text (Padded HasContent)

theorem SavePolicy.parse?_eq_some_iff {raw : String} {p : SavePolicy} :
    SavePolicy.parse? raw = some p ↔ Padded raw p.name := by
  have htight : Text.Tight p.name.toList := by
    cases p <;> exact ⟨⟨_, rfl, by decide⟩, ⟨_, rfl, by decide⟩⟩
  rw [SavePolicy.parse?, SavePolicy.ofName?_eq_some_iff, Text.trim_eq_iff htight]

namespace Settings

/-! ## What is demanded of settings -/

/-- A condition on settings, and what is said of a field if it does not hold. -/
structure Demand where
  field : String
  detail : String
  Holds : Settings → Prop

namespace Demand

/-- That the ancestor pane is not shown if it is hidden for good. -/
def ancestor : Demand where
  field := "viewer.ancestor_visible"
  detail := "ancestor pane cannot be visible while ignore_ancestor is set"
  Holds s := ¬ (s.viewer.ancestorVisible = true ∧ s.viewer.ignoreAncestor = true)

/-- That a text of the question has something in it. -/
def text (field : String) (text : Settings → String) : Demand where
  field := field
  detail := "prompt text must not be empty"
  Holds s := HasContent (text s)

/-- That the level is one of those that there are. -/
def level : Demand where
  field := "logging.level"
  detail := "expected one of trace, debug, info, warn, error"
  Holds s := s.logLevel ∈ ["trace", "debug", "info", "warn", "error"]

end Demand

/-- What is demanded of settings, in the order in which it is looked at. -/
def demands : List Demand := [
  .ancestor,
  .text "messages.save_title" (·.messages.saveTitle),
  .text "messages.save_message" (·.messages.saveMessage),
  .text "messages.resource_changed_title" (·.messages.changedTitle),
  .text "messages.resource_changed_message" (·.messages.changedMessage),
  .level]

/-- Settings that meet every demand. -/
def Valid (s : Settings) : Prop := ∀ d ∈ demands, d.Holds s

/-- What is said of settings that do not meet a demand, but all before it. -/
def FirstFault (s : Settings) (e : SettingsError) : Prop :=
  ∃ met d rest, demands = met ++ d :: rest ∧ (∀ m ∈ met, m.Holds s) ∧ ¬ d.Holds s ∧
    e = .invalid d.field d.detail

open Classical in
/-- What is said of settings because of a demand. -/
noncomputable def Demand.faults (s : Settings) (d : Demand) : List SettingsError :=
  if d.Holds s then [] else [.invalid d.field d.detail]

variable {s : Settings} {d : Demand} {e : SettingsError}

theorem Demand.faults_eq_nil_iff : d.faults s = [] ↔ d.Holds s := by
  simp [Demand.faults]

theorem Demand.head?_faults_eq_some_iff :
    (d.faults s).head? = some e ↔ ¬ d.Holds s ∧ e = .invalid d.field d.detail := by
  by_cases h : d.Holds s <;> simp [Demand.faults, h, eq_comm]

theorem Demand.faults_eq_ite {p : Prop} [Decidable p] (h : p ↔ ¬ d.Holds s) :
    (if p then [.invalid d.field d.detail] else []) = d.faults s := by
  by_cases hd : d.Holds s
  · rw [if_neg fun hp => h.mp hp hd, Demand.faults, if_pos hd]
  · rw [if_pos (h.mpr hd), Demand.faults, if_neg hd]

theorem map_filter_eq_flatMap {α β : Type} (f : α → β) (p : α → Bool) (l : List α) :
    (l.filter p).map f = l.flatMap fun x => if p x then [f x] else [] := by
  induction l with
  | nil => rfl
  | cons x l ih => cases h : p x <;> simp [h, ih]

/-- The check looks for faults demand by demand. -/
theorem faults_eq (s : Settings) : s.faults = demands.flatMap (·.faults s) := by
  have hancestor : (if s.viewer.ignoreAncestor && s.viewer.ancestorVisible then
        [SettingsError.invalid "viewer.ancestor_visible"
          "ancestor pane cannot be visible while ignore_ancestor is set"] else []) =
      Demand.ancestor.faults s :=
    Demand.faults_eq_ite (d := .ancestor) (by simp [Demand.ancestor, and_comm])
  have htext : ∀ (field : String) (text : Settings → String),
      (if Text.allBlank (text s) then
        [SettingsError.invalid field "prompt text must not be empty"] else []) =
      (Demand.text field text).faults s := fun field text => by
    refine Demand.faults_eq_ite (d := .text field text) ?_
    rw [← Bool.not_eq_false, Text.allBlank_eq_false_iff]
    rfl
  have hlevel : (if s.logLevel ∈ logLevels then [] else
        [SettingsError.invalid "logging.level"
          ("expected one of " ++ ", ".intercalate logLevels)]) = Demand.level.faults s := by
    rw [← ite_not]
    exact Demand.faults_eq_ite (d := .level) Iff.rfl
  rw [faults, map_filter_eq_flatMap, hancestor, hlevel]
  simp only [texts, demands, List.flatMap_cons, List.flatMap_nil, List.append_nil,
    List.append_assoc, ← htext]

/-! ## The check -/

theorem check_ok_iff : s.check = .ok () ↔ s.Valid := by
  have hnil : s.check = .ok () ↔ s.faults = [] := by
    unfold check
    split <;> simp [*]
  simp only [hnil, faults_eq, List.flatMap_eq_nil_iff, Demand.faults_eq_nil_iff, Valid]

/-- **The check** names the first demand that is not met. -/
theorem check_error_iff : s.check = .error e ↔ s.FirstFault e := by
  have hhead : s.check = .error e ↔ s.faults.head? = some e := by
    unfold check
    split <;> simp [*]
  simp only [hhead, faults_eq, List.head?_flatMap, List.findSome?_eq_some_iff,
    Demand.head?_faults_eq_some_iff, List.head?_eq_none_iff, Demand.faults_eq_nil_iff,
    FirstFault]
  exact exists_congr fun met => exists_congr fun d => exists_congr fun rest =>
    and_congr_right fun _ => and_comm

/-! ## The environment -/

/-- What the variable that names a policy asks for: nothing if it is not set, is no text
or is empty, and else the policy whose name is there, with blanks around it. -/
inductive Asks : Option ByteArray → Option SavePolicy → Prop where
  | unset : Asks none none
  | noText {bytes : ByteArray} (h : String.fromUTF8? bytes = none) : Asks (some bytes) none
  | empty : Asks (some "".toUTF8) none
  | policy {raw : String} {p : SavePolicy} (h : Padded raw p.name) :
      Asks (some raw.toUTF8) (some p)

/-- What is said of a value that is neither empty nor the name of a policy. -/
def Misnames (value : Option ByteArray) (e : SettingsError) : Prop :=
  ∃ raw : String, value = some raw.toUTF8 ∧ raw ≠ "" ∧
    (∀ p : SavePolicy, ¬ Padded raw p.name) ∧
    e = .invalid "MERGEVIEW_SAVE_POLICY" ("unknown save policy '" ++ raw ++
      "' (expected silent_flush, confirm or always_flush)")

variable {value : Option ByteArray} {s' : Settings}

theorem not_padded_empty {p : SavePolicy} : ¬ Padded "" p.name := by
  rw [← SavePolicy.parse?_eq_some_iff]
  cases p <;> decide +kernel

theorem asks_or_misnames (value : Option ByteArray) :
    (∃ wish, Asks value wish) ∨ ∃ e, Misnames value e := by
  cases value with
  | none => exact .inl ⟨none, .unset⟩
  | some bytes =>
    cases htext : String.fromUTF8? bytes with
    | none => exact .inl ⟨none, .noText htext⟩
    | some raw =>
      obtain rfl := fromUTF8?_eq_some_iff.mp htext
      by_cases hempty : raw = ""
      · subst hempty
        exact .inl ⟨none, .empty⟩
      · by_cases hnames : ∃ p : SavePolicy, Padded raw p.name
        · obtain ⟨p, hp⟩ := hnames
          exact .inl ⟨some p, .policy hp⟩
        · exact .inr ⟨_, raw, rfl, hempty, not_exists.mp hnames, rfl⟩

theorem override_of_asks {wish : Option SavePolicy} (h : Asks value wish) :
    s.override (value.bind String.fromUTF8?) =
      .ok (s.withPolicy (wish.getD s.viewer.savePolicy)) := by
  cases h with
  | unset => rfl
  | noText h =>
    rw [Option.bind_some, h]
    rfl
  | empty =>
    rw [Option.bind_some, fromUTF8?_eq_some_iff.mpr rfl]
    rfl
  | @policy raw p h =>
    have hne : raw ≠ "" := fun hempty => not_padded_empty (hempty ▸ h)
    rw [Option.bind_some, fromUTF8?_eq_some_iff.mpr rfl]
    simp only [override, if_neg hne, SavePolicy.parse?_eq_some_iff.mpr h]
    rfl

theorem override_of_misnames (h : Misnames value e) :
    s.override (value.bind String.fromUTF8?) = .error e := by
  obtain ⟨raw, rfl, hne, hno, rfl⟩ := h
  have hnone : SavePolicy.parse? raw = none :=
    Option.eq_none_iff_forall_ne_some.mpr fun p hp =>
      hno p (SavePolicy.parse?_eq_some_iff.mp hp)
  rw [Option.bind_some, fromUTF8?_eq_some_iff.mpr rfl]
  simp only [override, if_neg hne, hnone]
  rfl

/-- The policy that is asked for is put in its place, and nothing else is changed. -/
theorem override_ok_iff : s.override (value.bind String.fromUTF8?) = .ok s' ↔
    ∃ wish, Asks value wish ∧ s' = s.withPolicy (wish.getD s.viewer.savePolicy) := by
  constructor
  · intro h
    rcases asks_or_misnames value with ⟨wish, hasks⟩ | ⟨e, hmisnames⟩
    · exact ⟨wish, hasks, Except.ok.inj (h.symm.trans (override_of_asks hasks))⟩
    · simp [override_of_misnames hmisnames] at h
  · rintro ⟨wish, hasks, rfl⟩
    exact override_of_asks hasks

theorem override_error_iff :
    s.override (value.bind String.fromUTF8?) = .error e ↔ Misnames value e := by
  refine ⟨fun h => ?_, override_of_misnames⟩
  rcases asks_or_misnames value with ⟨wish, hasks⟩ | ⟨e', hmisnames⟩
  · simp [override_of_asks hasks] at h
  · rw [override_of_misnames hmisnames] at h
    exact Except.error.inj h ▸ hmisnames

/-! ## The file -/

/-- Settings that a file holds. -/
def Loads (d : Disk) (path : String) (s : Settings) : Prop :=
  ∃ text : String, d.read path = .ok text.toUTF8 ∧ ofToml text = .ok s

/-- What is said of a file from which no settings can be loaded. -/
inductive Unloadable (d : Disk) (path : String) : SettingsError → Prop where
  | missing (h : d.contains path = false) : Unloadable d path (.notFound path)
  | directory (hthere : d.contains path = true) (h : d.read path = .error .isDirectory) :
      Unloadable d path (.io DiskFault.isDirectory.message)
  | refused {reason : String} (hthere : d.contains path = true)
      (h : d.read path = .error (.refused reason)) : Unloadable d path (.io reason)
  | noText {bytes : ByteArray} (h : d.read path = .ok bytes)
      (htext : String.fromUTF8? bytes = none) :
      Unloadable d path (.io DiskFault.notText.message)
  | malformed {text detail : String} (h : d.read path = .ok text.toUTF8)
      (hparse : ofToml text = .error (.malformed detail)) :
      Unloadable d path (.malformed detail)

variable {disk : Disk} {path : String}

theorem load_ok_iff : load disk path = .ok s ↔ Loads disk path s := by
  unfold load Loads
  by_cases hthere : disk.contains path = true
  · simp only [hthere, if_true, ← Disk.readText_eq_ok_iff]
    cases disk.readText path <;> simp
  · rw [if_neg hthere]
    refine iff_of_false (by simp) ?_
    rintro ⟨text, hread, -⟩
    exact hthere (Disk.contains_of_read hread)

theorem load_error_iff : load disk path = .error e ↔ Unloadable disk path e := by
  unfold load
  constructor
  · intro h
    split at h
    · rename_i hthere
      split at h
      · rename_i text htext
        obtain ⟨detail, rfl⟩ := malformed_of_ofToml h
        exact .malformed (Disk.readText_eq_ok_iff.mp htext) h
      · rename_i fault hfault
        obtain rfl := Except.error.inj h
        rcases Disk.readText_eq_error_iff.mp hfault with hread | ⟨bytes, hread, htext, rfl⟩
        · obtain rfl | ⟨reason, rfl⟩ := Disk.fault_of_read hthere hread
          · exact .directory hthere hread
          · exact .refused hthere hread
        · exact .noText hread htext
    · rename_i hmissing
      exact Except.error.inj h ▸ .missing (Bool.eq_false_iff.mpr hmissing)
  · intro h
    cases h with
    | missing h => rw [h]; rfl
    | directory hthere h => rw [if_pos hthere, Disk.readText_eq_error_iff.mpr (.inl h)]
    | refused hthere h =>
      rw [if_pos hthere, Disk.readText_eq_error_iff.mpr (.inl h)]
      rfl
    | noText h htext =>
      rw [if_pos (Disk.contains_of_read h),
        Disk.readText_eq_error_iff.mpr (.inr ⟨_, h, htext, rfl⟩)]
    | malformed h hparse =>
      rw [if_pos (Disk.contains_of_read h), Disk.readText_eq_ok_iff.mpr h]
      exact hparse

/-! ## The whole -/

theorem finish_ok_iff : s.finish (value.bind String.fromUTF8?) = .ok s' ↔
    ∃ wish, Asks value wish ∧ s.Valid ∧
      s' = s.withPolicy (wish.getD s.viewer.savePolicy) := by
  simp only [finish, bind_eq_ok_iff, override_ok_iff]
  constructor
  · rintro ⟨_, ⟨wish, hasks, rfl⟩, ⟨⟩, hcheck, h⟩
    -- no demand looks at the policy
    exact ⟨wish, hasks, check_ok_iff.mp hcheck, (Except.ok.inj h).symm⟩
  · rintro ⟨wish, hasks, hvalid, rfl⟩
    exact ⟨_, ⟨wish, hasks, rfl⟩, (), (check_ok_iff (s := s)).mpr hvalid, rfl⟩

theorem finish_error_iff : s.finish (value.bind String.fromUTF8?) = .error e ↔
    Misnames value e ∨ ∃ wish, Asks value wish ∧ s.FirstFault e := by
  simp only [finish, bind_eq_error_iff, override_ok_iff, override_error_iff]
  refine or_congr_right ⟨?_, ?_⟩
  · rintro ⟨_, ⟨wish, hasks, rfl⟩, hcheck | ⟨⟨⟩, -, h⟩⟩
    · exact ⟨wish, hasks, check_error_iff.mp hcheck⟩
    · cases h
  · rintro ⟨wish, hasks, hfault⟩
    exact ⟨_, ⟨wish, hasks, rfl⟩, .inl ((check_error_iff (s := s)).mpr hfault)⟩

/-- **Settings are accepted** if a file holds them, the variable asks for a policy or
for nothing, and they are valid; then only their policy is another one. Everything else
is refused with what the first step that fails says, and for settings that are not
valid that is the first demand which is not met. The step that takes the policy changes
nothing else, and nothing at all if it fails. -/
theorem resolve_accepts_valid (disk : Disk) (env : Command.Environment) (path : String) :
    (∀ s, resolve disk (Command.variableText env policyVariable) path = .ok s ↔
      ∃ loaded wish, Loads disk path loaded ∧ Asks (env.lookup "MERGEVIEW_SAVE_POLICY") wish ∧
        loaded.Valid ∧ s = loaded.withPolicy (wish.getD loaded.viewer.savePolicy)) ∧
    (∀ e, resolve disk (Command.variableText env policyVariable) path = .error e ↔
      Unloadable disk path e ∨ ∃ loaded, Loads disk path loaded ∧
        (Misnames (env.lookup "MERGEVIEW_SAVE_POLICY") e ∨
          ∃ wish, Asks (env.lookup "MERGEVIEW_SAVE_POLICY") wish ∧ loaded.FirstFault e)) ∧
    ∀ (s : Settings) (value : Option String),
      (∀ s', s.override value = .ok s' → s' = s.withPolicy s'.viewer.savePolicy) ∧
      ∀ e, s.override value = .error e → Command.examine s value = (s, some e) := by
  refine ⟨fun s => ?_, fun e => ?_, fun s value => ⟨fun s' h => ?_, fun e h => ?_⟩⟩
  · simp only [resolve, Command.variableText, bind_eq_ok_iff, load_ok_iff, finish_ok_iff,
      exists_and_left]
    rfl
  · simp only [resolve, Command.variableText, bind_eq_error_iff, load_ok_iff, load_error_iff,
      finish_error_iff]
    rfl
  · obtain ⟨bytes, rfl⟩ : ∃ bytes : Option ByteArray, bytes.bind String.fromUTF8? = value :=
      ⟨value.map String.toUTF8, by cases value <;> simp [fromUTF8?_eq_some_iff]⟩
    obtain ⟨wish, -, rfl⟩ := override_ok_iff.mp h
    rfl
  · rw [Command.examine, h]

/-- The name of a policy with blanks around it is put in its place, and what names none
leaves settings as they are. -/
theorem resolve_with_padded_policy :
    let files : Disk := {
      home := []
      entries := [(["a"], .file "[viewer]\nmirrored = true\n".toUTF8)] }
    let value := " silent_flush\n".toUTF8
    let changed : Settings := { viewer := { savePolicy := .silentFlush, mirrored := true } }
    (∃ loaded wish, Loads files "a" loaded ∧ Asks (some value) wish ∧ loaded.Valid ∧
      changed = loaded.withPolicy (wish.getD loaded.viewer.savePolicy)) ∧
    changed.override (some "confirm ") = .ok (changed.withPolicy .confirm) ∧
    ∃ e, changed.override (some "CONFIRM") = .error e ∧
      Command.examine changed (some "CONFIRM") = (changed, some e) := by
  intro files value changed
  obtain ⟨haccepts, -, hoverrides⟩ :=
    resolve_accepts_valid files [("MERGEVIEW_SAVE_POLICY", value)] "a"
  have hok : changed.override (some "confirm ") = .ok {
      viewer := { savePolicy := .confirm, mirrored := true } } :=
    ok_of_toOption (by decide +kernel)
  obtain ⟨e, herror⟩ : ∃ e, changed.override (some "CONFIRM") = .error e :=
    error_of_toOption (by decide +kernel)
  exact ⟨(haccepts changed).mp (ok_of_toOption (by decide +kernel)),
    hok.trans (congrArg Except.ok ((hoverrides _ _).1 _ hok)), e, herror,
    (hoverrides _ _).2 e herror⟩

end Settings

end Reconcile
