/-
Reconcile.Proofs.Settings.Fields — what the keys of a section do to its fields.

A section takes in its keys one after the other. Each key that is known fills one
field and leaves the others alone, and a key that is not known does nothing, so that
of keys which are there once the order does not matter.

* `Fills` — a key of a section fills one field, and no other key changes it.
* `Fills.takeAll` — what that means for keys taken in one after the other.
* `malformed_of_ofToml` — what is refused is refused as malformed.
-/
import Reconcile.Proofs.Disk
import Reconcile.Proofs.Toml.Keys
import Reconcile.Settings.Decode

namespace Reconcile

theorem SavePolicy.ofName?_eq_some_iff {text : String} {p : SavePolicy} :
    SavePolicy.ofName? text = some p ↔ text = p.name := by
  constructor
  · intro h
    unfold SavePolicy.ofName? at h
    exact (beq_iff_eq.mp (List.find?_some (p := fun q : SavePolicy => q.name == text) h)).symm
  · rintro rfl
    cases p <;> rfl

namespace Settings

open Reconcile.Toml (Value Table Origin)

/-! ## Values of a type -/

/-- A value that names a save policy: with its name as a text, or as the only key of a
table and nothing behind it. -/
inductive Names : Value → SavePolicy → Prop where
  | text (p : SavePolicy) : Names (.string p.name) p
  | key (p : SavePolicy) (origin : Origin) {inner : Value} (h : isVoid inner = true) :
      Names (.table origin [(p.name, inner)]) p

section Values

variable {name : String} {v : Value}

theorem asBool_eq_ok_iff {b : Bool} : asBool name v = .ok b ↔ v = .boolean b := by
  cases v <;> simp [asBool]

theorem asText_eq_ok_iff {text : String} : asText name v = .ok text ↔ v = .string text := by
  cases v <;> simp [asText]

theorem asPolicy_eq_ok_iff {p : SavePolicy} : asPolicy name v = .ok p ↔ Names v p := by
  constructor
  · intro h
    rw [asPolicy.eq_def] at h
    simp only at h
    split at h
    · rename_i policy hname
      obtain rfl := Except.ok.inj h
      obtain ⟨text, htext, hname⟩ := Option.bind_eq_some_iff.mp hname
      rw [SavePolicy.ofName?_eq_some_iff] at hname
      subst hname
      split at htext
      · exact Option.some.inj htext ▸ .text policy
      · split at htext
        · rename_i hvoid
          exact Option.some.inj htext ▸ .key policy _ hvoid
        · simp at htext
      · simp at htext
    · simp at h
  · have hname : SavePolicy.ofName? p.name = some p := SavePolicy.ofName?_eq_some_iff.mpr rfl
    intro h
    cases h with
    | text => simp only [asPolicy.eq_def, Option.bind_some, hname]
    | key _ _ hvoid => simp only [asPolicy.eq_def, hvoid, if_true, Option.bind_some, hname]

end Values

/-! ## What a key fills -/

variable {α β : Type} {s : Section α}

/-- A key of a section fills one field of what the section stands for, with what its
value is read as, and no other key changes that field. -/
structure Fills (s : Section α) (key : String) (get : α → β)
    (Reads : Value → β → Prop) : Prop where
  ready : ∀ {v x}, Reads v x → ∀ a, ∃ b, s.take a key v = .ok b
  own : ∀ {v a b}, s.take a key v = .ok b → Reads v (get b)
  other : ∀ {k v a b}, k ≠ key → s.take a k v = .ok b → get b = get a

/-- A field has what is read from the value that is given for it, and the default if
none is given. -/
def Given (Reads : Value → β → Prop) (given : Option Value) (default x : β) : Prop :=
  match given with
  | none => x = default
  | some v => Reads v x

/-- What is not given is as if its default were, so that a value is determined by what
is given or is the default. -/
theorem Given.unique {Reads : Value → β → Prop} {given given' : Option Value}
    {default x y : β} (h : Given Reads given default x) (h' : Given Reads given' default y)
    (hunique : ∀ {v x y}, Reads v x → Reads v y → x = y) {std : Value}
    (hstd : Reads std default) (hsame : given.getD std = given'.getD std) : x = y := by
  have hreads : ∀ {given : Option Value} {x : β}, Given Reads given default x →
      Reads (given.getD std) x := by
    intro given x h
    cases given with
    | none => exact (show x = default from h) ▸ hstd
    | some v => exact h
  exact hunique (hreads h) (hsame ▸ hreads h')

theorem take_of_unknown {a : α} {key : String} (v : Value)
    (h : key ∉ s.fields.map (·.key)) : s.take a key v = .ok a := by
  have hnone : s.fields.find? (·.key == key) = none := by
    simpa [List.find?_eq_none] using h
  rw [Section.take, hnone]

/-- Values that can be taken in one by one can be taken in together. -/
theorem takeAll_ok {entries : Table}
    (h : ∀ entry ∈ entries, ∀ a, ∃ b, s.take a entry.1 entry.2 = .ok b) (start : α) :
    ∃ a, s.takeAll start entries = .ok a := by
  induction entries generalizing start with
  | nil => exact ⟨start, rfl⟩
  | cons entry entries ih =>
    obtain ⟨hentry, hentries⟩ := List.forall_mem_cons.mp h
    obtain ⟨next, hnext⟩ := hentry start
    obtain ⟨a, ha⟩ := ih hentries next
    refine ⟨a, ?_⟩
    rw [Section.takeAll, List.foldlM_cons, hnext]
    exact ha

/-- Keys that are there once can be taken in if those that are known can be. -/
theorem takeAll_ok_of_known {entries : Table} (hkeys : (entries.map Prod.fst).Nodup)
    (h : ∀ key ∈ s.fields.map (·.key), ∀ v ∈ entries.get? key, ∀ a, ∃ b,
      s.take a key v = .ok b) (start : α) : ∃ a, s.takeAll start entries = .ok a := by
  refine takeAll_ok (fun entry hentry a => ?_) start
  by_cases hknown : entry.1 ∈ s.fields.map (·.key)
  · exact h entry.1 hknown entry.2 (Table.get?_of_mem hkeys hentry) a
  · exact ⟨a, take_of_unknown entry.2 hknown⟩

theorem Fills.take_ok {key : String} {get : α → β} {Reads : Value → β → Prop}
    (h : Fills s key get Reads) {given : Option Value}
    (hgiven : ∀ v ∈ given, ∃ x, Reads v x) :
    ∀ v ∈ given, ∀ a, ∃ b, s.take a key v = .ok b := by
  intro v hv
  obtain ⟨x, hx⟩ := hgiven v hv
  exact h.ready hx

/-- **Keys taken in one after the other**, each of them there once: a field has what is
read from the value of its key, or stays as it was. -/
theorem Fills.takeAll {key : String} {get : α → β} {Reads : Value → β → Prop}
    (h : Fills s key get Reads) {entries : Table} {start a : α}
    (hkeys : (entries.map Prod.fst).Nodup) (ha : s.takeAll start entries = .ok a) :
    Given Reads (entries.get? key) (get start) (get a) := by
  induction entries generalizing start with
  | nil =>
    obtain rfl := Except.ok.inj ha
    rfl
  | cons entry entries ih =>
    obtain ⟨k, v⟩ := entry
    rw [List.map_cons, List.nodup_cons] at hkeys
    rw [Section.takeAll, List.foldlM_cons] at ha
    obtain ⟨next, hnext, ha⟩ := ok_of_bind ha
    have hrest := ih hkeys.2 ha
    by_cases hk : k = key
    · -- the key is not there again, so the field stays as it is now
      subst hk
      have hget : Table.get? ((k, v) :: entries) k = some v := List.lookup_cons_self
      have hnone : Table.get? entries k = none := by
        refine List.lookup_eq_none_iff.mpr fun entry hentry => ?_
        have hne : k ≠ entry.1 := fun heq =>
          hkeys.1 (List.mem_map.mpr ⟨entry, hentry, heq.symm⟩)
        simpa using hne
      rw [hnone] at hrest
      rw [hget, Given, show get a = get next from hrest]
      exact h.own hnext
    · have hget : Table.get? ((k, v) :: entries) key = Table.get? entries key := by
        rw [Table.get?, List.lookup_cons, beq_eq_false_iff_ne.mpr (Ne.symm hk)]
        rfl
      rw [hget, ← h.other hk hnext]
      exact hrest

/-- A field that is read and then put in its place. -/
theorem fills_of_take {key : String} {f : Field α} {read : Value → Except SettingsError β}
    {put : β → α → α} {get : α → β} {Reads : Value → β → Prop}
    (hfind : s.fields.find? (·.key == key) = some f)
    (htake : ∀ a v, f.take a v = (do return put (← read v) a))
    (hread : ∀ {v x}, read v = .ok x ↔ Reads v x)
    (hput : ∀ x a, get (put x a) = x)
    (hothers : ∀ f ∈ s.fields, f.key ≠ key → ∀ {v a b}, f.take a v = .ok b → get b = get a) :
    Fills s key get Reads := by
  have hown : ∀ a v, s.take a key v = (do return put (← read v) a) := by
    intro a v
    rw [Section.take, hfind, ← htake]
  refine ⟨fun {v x} hreads a => ⟨put x a, ?_⟩, fun {v a b} h => ?_, fun {k v a b} hk h => ?_⟩
  · rw [hown, hread.mpr hreads]
    rfl
  · rw [hown] at h
    obtain ⟨x, hx, h⟩ := ok_of_bind h
    obtain rfl := Except.ok.inj h
    rw [hput]
    exact hread.mp hx
  · unfold Section.take at h
    split at h
    · rename_i f hf
      have hkey : f.key = k := by simpa using List.find?_some hf
      exact hothers f (List.mem_of_find?_eq_some hf) (hkey ▸ hk) h
    · rw [Except.ok.inj h]

/-! ## The sections -/

-- A section is a list of fields that are given one by one, so what holds of each field
-- is read off that list once, and every key takes its own part of it.

theorem field_take_ok {owner key : String}
    {read : String → Value → Except SettingsError β} {put : β → α → α} {v : Value} {a b : α}
    (h : (field owner key read put).take a v = .ok b) : ∃ x, b = put x a := by
  obtain ⟨x, -, h⟩ := ok_of_bind h
  exact ⟨x, (Except.ok.inj h).symm⟩

/-- Behaviour in which at most the field of a key is another one. -/
structure SameBehaviour (key : String) (a b : Behaviour) : Prop where
  savePolicy : key ≠ "save_policy" → b.savePolicy = a.savePolicy
  ancestorVisible : key ≠ "ancestor_visible" → b.ancestorVisible = a.ancestorVisible
  ignoreAncestor : key ≠ "ignore_ancestor" → b.ignoreAncestor = a.ignoreAncestor
  mirrored : key ≠ "mirrored" → b.mirrored = a.mirrored
  left : key ≠ "left_editable" → b.editable.left = a.editable.left
  right : key ≠ "right_editable" → b.editable.right = a.editable.right

theorem sameBehaviour_of_field : ∀ f ∈ viewerSection.fields, ∀ {v a b},
    f.take a v = .ok b → SameBehaviour f.key a b := by
  simp only [viewerSection, List.forall_mem_cons, List.not_mem_nil, false_implies,
    implies_true, and_true]
  refine ⟨?_, ?_, ?_, ?_, ?_, ?_⟩ <;>
    · intro v a b h
      obtain ⟨x, rfl⟩ := field_take_ok h
      constructor <;> simp [field, Sided.set]

/-- Texts of which at most that of a key is another one. -/
structure SameMessages (key : String) (a b : Messages) : Prop where
  saveTitle : key ≠ "save_title" → b.saveTitle = a.saveTitle
  saveMessage : key ≠ "save_message" → b.saveMessage = a.saveMessage
  changedTitle : key ≠ "resource_changed_title" → b.changedTitle = a.changedTitle
  changedMessage : key ≠ "resource_changed_message" → b.changedMessage = a.changedMessage

theorem sameMessages_of_field : ∀ f ∈ messagesSection.fields, ∀ {v a b},
    f.take a v = .ok b → SameMessages f.key a b := by
  simp only [messagesSection, List.forall_mem_cons, List.not_mem_nil, false_implies,
    implies_true, and_true]
  refine ⟨?_, ?_, ?_, ?_⟩ <;>
    · intro v a b h
      obtain ⟨x, rfl⟩ := field_take_ok h
      constructor <;> simp [field]

/-- Settings of which at most the section of a key is another one. -/
structure SameSettings (key : String) (a b : Settings) : Prop where
  viewer : key ≠ "viewer" → b.viewer = a.viewer
  messages : key ≠ "messages" → b.messages = a.messages
  level : key ≠ "logging" → b.logLevel = a.logLevel

theorem sameSettings_of_section : ∀ f ∈ document.fields, ∀ {v a b},
    f.take a v = .ok b → SameSettings f.key a b := by
  simp only [document, List.forall_mem_cons, List.not_mem_nil, false_implies,
    implies_true, and_true]
  refine ⟨?_, ?_, ?_⟩ <;>
    · intro v a b h
      obtain ⟨x, -, h⟩ := ok_of_bind h
      obtain rfl := Except.ok.inj h
      constructor <;> simp [Section.asField, viewerSection, messagesSection, loggingSection]

/-- A value that is on or off. -/
def IsFlag (v : Value) (b : Bool) : Prop := v = .boolean b

/-- A value that is a text. -/
def IsText (v : Value) (text : String) : Prop := v = .string text

theorem Names.unique {v : Value} {p q : SavePolicy} (hp : Names v p) (hq : Names v q) :
    p = q := by
  rw [← @asPolicy_eq_ok_iff ""] at hp hq
  exact Except.ok.inj (hp.symm.trans hq)

theorem Given.flag_unique {given given' : Option Value} {default x y : Bool}
    (h : Given IsFlag given default x) (h' : Given IsFlag given' default y)
    (hsame : given.getD (.boolean default) = given'.getD (.boolean default)) : x = y :=
  h.unique h' (fun h h' => Value.boolean.inj (h.symm.trans h')) rfl hsame

theorem Given.text_unique {given given' : Option Value} {default x y : String}
    (h : Given IsText given default x) (h' : Given IsText given' default y)
    (hsame : given.getD (.string default) = given'.getD (.string default)) : x = y :=
  h.unique h' (fun h h' => Value.string.inj (h.symm.trans h')) rfl hsame

/-- A section as a whole. -/
def Decodes (s : Section α) (v : Value) (a : α) : Prop := s.decode v = .ok a

theorem fills_savePolicy : Fills viewerSection "save_policy" (·.savePolicy) Names :=
  fills_of_take rfl (fun _ _ => rfl) asPolicy_eq_ok_iff (fun _ _ => rfl)
    fun f hf hne _ _ _ h => (sameBehaviour_of_field f hf h).savePolicy hne

theorem fills_ancestorVisible :
    Fills viewerSection "ancestor_visible" (·.ancestorVisible) IsFlag :=
  fills_of_take rfl (fun _ _ => rfl) asBool_eq_ok_iff (fun _ _ => rfl)
    fun f hf hne _ _ _ h => (sameBehaviour_of_field f hf h).ancestorVisible hne

theorem fills_ignoreAncestor :
    Fills viewerSection "ignore_ancestor" (·.ignoreAncestor) IsFlag :=
  fills_of_take rfl (fun _ _ => rfl) asBool_eq_ok_iff (fun _ _ => rfl)
    fun f hf hne _ _ _ h => (sameBehaviour_of_field f hf h).ignoreAncestor hne

theorem fills_mirrored : Fills viewerSection "mirrored" (·.mirrored) IsFlag :=
  fills_of_take rfl (fun _ _ => rfl) asBool_eq_ok_iff (fun _ _ => rfl)
    fun f hf hne _ _ _ h => (sameBehaviour_of_field f hf h).mirrored hne

theorem fills_leftEditable :
    Fills viewerSection "left_editable" (·.editable.left) IsFlag :=
  fills_of_take rfl (fun _ _ => rfl) asBool_eq_ok_iff (fun _ _ => rfl)
    fun f hf hne _ _ _ h => (sameBehaviour_of_field f hf h).left hne

theorem fills_rightEditable :
    Fills viewerSection "right_editable" (·.editable.right) IsFlag :=
  fills_of_take rfl (fun _ _ => rfl) asBool_eq_ok_iff (fun _ _ => rfl)
    fun f hf hne _ _ _ h => (sameBehaviour_of_field f hf h).right hne

theorem fills_saveTitle : Fills messagesSection "save_title" (·.saveTitle) IsText :=
  fills_of_take rfl (fun _ _ => rfl) asText_eq_ok_iff (fun _ _ => rfl)
    fun f hf hne _ _ _ h => (sameMessages_of_field f hf h).saveTitle hne

theorem fills_saveMessage : Fills messagesSection "save_message" (·.saveMessage) IsText :=
  fills_of_take rfl (fun _ _ => rfl) asText_eq_ok_iff (fun _ _ => rfl)
    fun f hf hne _ _ _ h => (sameMessages_of_field f hf h).saveMessage hne

theorem fills_changedTitle :
    Fills messagesSection "resource_changed_title" (·.changedTitle) IsText :=
  fills_of_take rfl (fun _ _ => rfl) asText_eq_ok_iff (fun _ _ => rfl)
    fun f hf hne _ _ _ h => (sameMessages_of_field f hf h).changedTitle hne

theorem fills_changedMessage :
    Fills messagesSection "resource_changed_message" (·.changedMessage) IsText :=
  fills_of_take rfl (fun _ _ => rfl) asText_eq_ok_iff (fun _ _ => rfl)
    fun f hf hne _ _ _ h => (sameMessages_of_field f hf h).changedMessage hne

theorem fills_level : Fills loggingSection "level" id IsText :=
  fills_of_take rfl (fun _ _ => rfl) asText_eq_ok_iff (fun _ _ => rfl)
    (by simp [loggingSection, field])

theorem fills_viewer : Fills document "viewer" (·.viewer) (Decodes viewerSection) :=
  fills_of_take rfl (fun _ _ => rfl) Iff.rfl (fun _ _ => rfl)
    fun f hf hne _ _ _ h => (sameSettings_of_section f hf h).viewer hne

theorem fills_messages : Fills document "messages" (·.messages) (Decodes messagesSection) :=
  fills_of_take rfl (fun _ _ => rfl) Iff.rfl (fun _ _ => rfl)
    fun f hf hne _ _ _ h => (sameSettings_of_section f hf h).messages hne

theorem fills_logging : Fills document "logging" (·.logLevel) (Decodes loggingSection) :=
  fills_of_take rfl (fun _ _ => rfl) Iff.rfl (fun _ _ => rfl)
    fun f hf hne _ _ _ h => (sameSettings_of_section f hf h).level hne

/-! ## What is refused -/

/-- A reading that refuses what it refuses as malformed. -/
def Complains (read : Value → Except SettingsError α) : Prop :=
  ∀ {v e}, read v = .error e → ∃ detail, e = .malformed detail

theorem complains_asBool {name : String} : Complains (asBool name) := by
  intro v e h
  cases v <;> simp only [asBool, reduceCtorEq, Except.error.injEq] at h <;>
    exact ⟨_, h.symm⟩

theorem complains_asText {name : String} : Complains (asText name) := by
  intro v e h
  cases v <;> simp only [asText, reduceCtorEq, Except.error.injEq] at h <;>
    exact ⟨_, h.symm⟩

theorem complains_asPolicy {name : String} : Complains (asPolicy name) := by
  intro v e h
  rw [asPolicy.eq_def] at h
  simp only at h
  split at h
  · simp at h
  · exact ⟨_, (Except.error.inj h).symm⟩

theorem complains_field {owner key : String}
    {read : String → Value → Except SettingsError β} {put : β → α → α}
    (h : ∀ name, Complains (read name)) (a : α) :
    Complains ((field owner key read put).take a) := by
  intro v e herror
  rcases error_of_bind herror with herror | ⟨x, -, herror⟩
  · exact h _ herror
  · cases herror

theorem error_of_takeAll {entries : Table} {start : α} {e : SettingsError}
    (hfields : ∀ f ∈ s.fields, ∀ a, Complains (f.take a))
    (h : s.takeAll start entries = .error e) : ∃ detail, e = .malformed detail := by
  induction entries generalizing start with
  | nil => cases h
  | cons entry entries ih =>
    rw [Section.takeAll, List.foldlM_cons] at h
    rcases error_of_bind h with hentry | ⟨next, -, hentries⟩
    · unfold Section.take at hentry
      split at hentry
      · rename_i f hfind
        exact hfields f (List.mem_of_find?_eq_some hfind) start hentry
      · simp at hentry
    · exact ih hentries

theorem complains_decode (hfields : ∀ f ∈ s.fields, ∀ a, Complains (f.take a)) :
    Complains s.decode := by
  intro v e h
  unfold Section.decode at h
  split at h
  · exact error_of_takeAll hfields h
  · exact error_of_takeAll hfields h
  · exact error_of_takeAll hfields h
  · simp at h
  · exact ⟨_, (Except.error.inj h).symm⟩

theorem complains_asField {put : α → Settings → Settings}
    (hfields : ∀ f ∈ s.fields, ∀ a, Complains (f.take a)) (settings : Settings) :
    Complains ((s.asField put).take settings) := by
  intro v e herror
  rcases error_of_bind herror with herror | ⟨x, -, herror⟩
  · exact complains_decode hfields herror
  · cases herror

/-- What is refused is refused as malformed. -/
theorem malformed_of_ofToml {text : String} {e : SettingsError}
    (h : ofToml text = .error e) : ∃ detail, e = .malformed detail := by
  unfold ofToml at h
  split at h
  · refine error_of_takeAll ?_ h
    simp only [document, List.forall_mem_cons, List.not_mem_nil, false_implies, implies_true,
      and_true]
    refine ⟨complains_asField ?_, complains_asField ?_, complains_asField ?_⟩
    · simp only [viewerSection, List.forall_mem_cons, List.not_mem_nil, false_implies,
        implies_true, and_true]
      exact ⟨complains_field fun _ => complains_asPolicy,
        complains_field fun _ => complains_asBool, complains_field fun _ => complains_asBool,
        complains_field fun _ => complains_asBool, complains_field fun _ => complains_asBool,
        complains_field fun _ => complains_asBool⟩
    · simp only [messagesSection, List.forall_mem_cons, List.not_mem_nil, false_implies,
        implies_true, and_true]
      exact ⟨complains_field fun _ => complains_asText,
        complains_field fun _ => complains_asText, complains_field fun _ => complains_asText,
        complains_field fun _ => complains_asText⟩
    · simp only [loggingSection, List.forall_mem_cons, List.not_mem_nil, false_implies,
        implies_true, and_true]
      exact complains_field fun _ => complains_asText
  · exact ⟨_, (Except.error.inj h).symm⟩

end Settings

end Reconcile
