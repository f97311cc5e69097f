/-
Reconcile.Proofs.Settings.Overlay — what a document makes of the default settings.

The defaults are there twice: those of a section that is missing, and those of the
keys that are missing in a section. A document that has the sections as tables,
with values of the right type for the keys that are known, stands for the defaults
with what is given in their place (`document_overlays_defaults`), so it does not
matter which of the two a default comes from, or whether it is spelled out.

* `overlays_of_ofTable` — what is read is the defaults with what is given in their
  place.
* `Overlays.unique` — no other settings are.
* `ofTable_ok` — nothing of it is refused.
-/
import Reconcile.Proofs.Settings.Fields

namespace Reconcile.Settings

open Reconcile.Toml (Value Table Origin)

variable {α : Type} {s : Section α}

/-! ## What a document gives -/

/-- The value that a document gives for a key of a section. -/
def given? (t : Table) (name key : String) : Option Value :=
  match t.get? name with
  | some (.table _ entries) => Table.get? entries key
  | _ => none

/-- A document that has the sections as tables, if it has them, and gives values of the
right type for the keys that are known. What else is in it does not matter. -/
structure WellTyped (t : Table) : Prop where
  tables : ∀ name ∈ ["viewer", "messages", "logging"], ∀ v ∈ t.get? name,
    ∃ origin entries, v = .table origin entries
  policy : ∀ v ∈ given? t "viewer" "save_policy", ∃ p, Names v p
  flags : ∀ key ∈ ["ancestor_visible", "ignore_ancestor", "mirrored", "left_editable",
    "right_editable"], ∀ v ∈ given? t "viewer" key, ∃ b, IsFlag v b
  texts : ∀ key ∈ ["save_title", "save_message", "resource_changed_title",
    "resource_changed_message"], ∀ v ∈ given? t "messages" key, ∃ text, IsText v text
  level : ∀ v ∈ given? t "logging" "level", ∃ text, IsText v text

section Decidable

variable (v : Value)

instance : Decidable (∃ origin entries, v = Value.table origin entries) :=
  match v with
  | .table origin entries => .isTrue ⟨origin, entries, rfl⟩
  | .string _ | .integer _ | .float _ | .boolean _ | .dateTime _ | .array _ | .tables _ =>
    .isFalse (by simp)

instance : Decidable (∃ p, Names v p) :=
  decidable_of_iff ((asPolicy "" v).isOk = true) <| by
    simp only [isOk_iff, asPolicy_eq_ok_iff]

instance : Decidable (∃ b, IsFlag v b) :=
  decidable_of_iff ((asBool "" v).isOk = true) <| by
    simp only [isOk_iff, asBool_eq_ok_iff, IsFlag]

instance : Decidable (∃ text, IsText v text) :=
  decidable_of_iff ((asText "" v).isOk = true) <| by
    simp only [isOk_iff, asText_eq_ok_iff, IsText]

instance (t : Table) : Decidable (WellTyped t) :=
  decidable_of_iff (_ ∧ _ ∧ _ ∧ _ ∧ _)
    ⟨fun h => ⟨h.1, h.2.1, h.2.2.1, h.2.2.2.1, h.2.2.2.2⟩,
      fun h => ⟨h.tables, h.policy, h.flags, h.texts, h.level⟩⟩

end Decidable

/-- Behaviour that is the default, but for what is given. -/
structure OverlaysBehaviour (given? : String → Option Value) (b : Behaviour) : Prop where
  savePolicy : Given Names (given? "save_policy") ({} : Behaviour).savePolicy b.savePolicy
  ancestorVisible : Given IsFlag (given? "ancestor_visible")
    ({} : Behaviour).ancestorVisible b.ancestorVisible
  ignoreAncestor : Given IsFlag (given? "ignore_ancestor")
    ({} : Behaviour).ignoreAncestor b.ignoreAncestor
  mirrored : Given IsFlag (given? "mirrored") ({} : Behaviour).mirrored b.mirrored
  left : Given IsFlag (given? "left_editable") ({} : Behaviour).editable.left b.editable.left
  right : Given IsFlag (given? "right_editable")
    ({} : Behaviour).editable.right b.editable.right

/-- Texts that are the default ones, but for what is given. -/
structure OverlaysMessages (given? : String → Option Value) (m : Messages) : Prop where
  saveTitle : Given IsText (given? "save_title") ({} : Messages).saveTitle m.saveTitle
  saveMessage : Given IsText (given? "save_message") ({} : Messages).saveMessage m.saveMessage
  changedTitle : Given IsText (given? "resource_changed_title")
    ({} : Messages).changedTitle m.changedTitle
  changedMessage : Given IsText (given? "resource_changed_message")
    ({} : Messages).changedMessage m.changedMessage

/-- A level that is the default one, but for what is given. -/
def OverlaysLevel (given? : String → Option Value) (level : String) : Prop :=
  Given IsText (given? "level") ({} : Settings).logLevel level

/-- Settings that are the default ones, but for what a document gives. -/
structure Overlays (t : Table) (s : Settings) : Prop where
  viewer : OverlaysBehaviour (given? t "viewer") s.viewer
  messages : OverlaysMessages (given? t "messages") s.messages
  level : OverlaysLevel (given? t "logging") s.logLevel

/-- A section that is missing is the default, and one that is a table has what its keys
give: in both cases what the document gives for it. -/
theorem overlays_section {Over : (String → Option Value) → α → Prop} {t : Table}
    {name : String} {default a : α} (hmissing : Over (fun _ => none) default)
    (hthere : ∀ {entries : Table} {a : α}, (entries.map Prod.fst).Nodup →
      s.takeAll s.bare entries = .ok a → Over entries.get? a)
    (hkeyed : t.Keyed)
    (htable : ∀ v ∈ t.get? name, ∃ origin entries, v = .table origin entries)
    (h : Given (Decodes s) (t.get? name) default a) : Over (given? t name) a := by
  unfold given?
  cases hget : t.get? name with
  | none =>
    rw [hget] at h
    exact (show a = default from h) ▸ hmissing
  | some v =>
    obtain ⟨origin, entries, rfl⟩ := htable v hget
    rw [hget] at h
    exact hthere (Table.keyed_table_iff.mp (hkeyed.get? hget)).nodup h

theorem overlays_of_ofTable {t : Table} {settings : Settings} (hkeyed : t.Keyed)
    (ht : WellTyped t) (h : ofTable t = .ok settings) : Overlays t settings where
  viewer := overlays_section (by constructor <;> rfl)
    (fun hkeys h => ⟨fills_savePolicy.takeAll hkeys h, fills_ancestorVisible.takeAll hkeys h,
      fills_ignoreAncestor.takeAll hkeys h, fills_mirrored.takeAll hkeys h,
      fills_leftEditable.takeAll hkeys h, fills_rightEditable.takeAll hkeys h⟩)
    hkeyed (ht.tables "viewer" (by simp)) (fills_viewer.takeAll hkeyed.nodup h)
  messages := overlays_section (by constructor <;> rfl)
    (fun hkeys h => ⟨fills_saveTitle.takeAll hkeys h, fills_saveMessage.takeAll hkeys h,
      fills_changedTitle.takeAll hkeys h, fills_changedMessage.takeAll hkeys h⟩)
    hkeyed (ht.tables "messages" (by simp)) (fills_messages.takeAll hkeyed.nodup h)
  level := overlays_section rfl (fun hkeys h => fills_level.takeAll hkeys h)
    hkeyed (ht.tables "logging" (by simp)) (fills_logging.takeAll hkeyed.nodup h)

/-! ## Documents -/

/-- A section that is a table can be taken in if what the document gives for its keys
can be. -/
theorem decodes_of_known {t : Table} {name : String} (hkeyed : t.Keyed)
    (htable : ∀ v ∈ t.get? name, ∃ origin entries, v = .table origin entries)
    (hknown : ∀ key ∈ s.fields.map (·.key), ∀ v ∈ given? t name key, ∀ a, ∃ b,
      s.take a key v = .ok b) : ∀ v ∈ t.get? name, ∃ a, Decodes s v a := by
  intro v hv
  obtain ⟨origin, entries, rfl⟩ := htable v hv
  have hgiven : ∀ key, given? t name key = Table.get? entries key := fun key => by
    rw [given?, hv]
  simp only [hgiven] at hknown
  exact takeAll_ok_of_known (Table.keyed_table_iff.mp (hkeyed.get? hv)).nodup hknown s.bare

theorem viewer_ok {t : Table} (hkeyed : t.Keyed) (ht : WellTyped t) :
    ∀ v ∈ t.get? "viewer", ∃ b, Decodes viewerSection v b := by
  refine decodes_of_known hkeyed (ht.tables "viewer" (by simp)) ?_
  simp only [viewerSection, field, List.map_cons, List.map_nil, List.forall_mem_cons,
    List.not_mem_nil, false_implies, implies_true, and_true]
  exact ⟨fills_savePolicy.take_ok ht.policy,
    fills_ancestorVisible.take_ok (ht.flags _ (by simp)),
    fills_ignoreAncestor.take_ok (ht.flags _ (by simp)),
    fills_mirrored.take_ok (ht.flags _ (by simp)),
    fills_leftEditable.take_ok (ht.flags _ (by simp)),
    fills_rightEditable.take_ok (ht.flags _ (by simp))⟩

theorem messages_ok {t : Table} (hkeyed : t.Keyed) (ht : WellTyped t) :
    ∀ v ∈ t.get? "messages", ∃ m, Decodes messagesSection v m := by
  refine decodes_of_known hkeyed (ht.tables "messages" (by simp)) ?_
  simp only [messagesSection, field, List.map_cons, List.map_nil, List.forall_mem_cons,
    List.not_mem_nil, false_implies, implies_true, and_true]
  exact ⟨fills_saveTitle.take_ok (ht.texts _ (by simp)),
    fills_saveMessage.take_ok (ht.texts _ (by simp)),
    fills_changedTitle.take_ok (ht.texts _ (by simp)),
    fills_changedMessage.take_ok (ht.texts _ (by simp))⟩

theorem logging_ok {t : Table} (hkeyed : t.Keyed) (ht : WellTyped t) :
    ∀ v ∈ t.get? "logging", ∃ level, Decodes loggingSection v level := by
  refine decodes_of_known hkeyed (ht.tables "logging" (by simp)) ?_
  simp only [loggingSection, field, List.map_cons, List.map_nil, List.forall_mem_cons,
    List.not_mem_nil, false_implies, implies_true, and_true]
  exact fills_level.take_ok ht.level

theorem ofTable_ok {t : Table} (hkeyed : t.Keyed) (ht : WellTyped t) :
    ∃ settings, ofTable t = .ok settings := by
  refine takeAll_ok_of_known hkeyed.nodup ?_ _
  simp only [document, Section.asField, List.map_cons, List.map_nil, List.forall_mem_cons,
    List.not_mem_nil, false_implies, implies_true, and_true]
  exact ⟨fills_viewer.take_ok (viewer_ok hkeyed ht),
    fills_messages.take_ok (messages_ok hkeyed ht),
    fills_logging.take_ok (logging_ok hkeyed ht)⟩

/-- The keys of the sections, with their defaults as a document would spell them. -/
def spelled : List (String × String × Value) := [
  ("viewer", "save_policy", .string "confirm"),
  ("viewer", "ancestor_visible", .boolean false),
  ("viewer", "ignore_ancestor", .boolean false),
  ("viewer", "mirrored", .boolean false),
  ("viewer", "left_editable", .boolean true),
  ("viewer", "right_editable", .boolean true),
  ("messages", "save_title", .string "Save Resource"),
  ("messages", "save_message", .string "The comparison has been modified. Save changes?"),
  ("messages", "resource_changed_title", .string "Resource Changed"),
  ("messages", "resource_changed_message", .string
    ("The resource being compared was changed outside the viewer. " ++
      "Save your changes before they are replaced?")),
  ("logging", "level", .string "warn")]

/-- Documents that say the same of every key, where to say nothing is to say the
default. -/
def SameSpelled (t t' : Table) : Prop :=
  ∀ entry ∈ spelled, (given? t entry.1 entry.2.1).getD entry.2.2 =
    (given? t' entry.1 entry.2.1).getD entry.2.2

theorem SameSpelled.refl (t : Table) : SameSpelled t t := fun _ _ => rfl

/-- Settings are determined by what the document says of every key. -/
theorem Overlays.unique {t t' : Table} {s s' : Settings} (h : Overlays t s)
    (h' : Overlays t' s') (hsame : SameSpelled t t') : s = s' := by
  simp only [SameSpelled, spelled, List.forall_mem_cons, List.not_mem_nil, false_implies,
    implies_true, and_true] at hsame
  obtain ⟨hpolicy, hvisible, hignore, hmirrored, hleft, hright, hsaveTitle, hsaveMessage,
    hchangedTitle, hchangedMessage, hlevel⟩ := hsame
  obtain ⟨hviewer, hmessages, hlogging⟩ := h
  obtain ⟨hviewer', hmessages', hlogging'⟩ := h'
  cases s
  cases s'
  rw [Settings.mk.injEq]
  refine ⟨?_, ?_, Given.text_unique hlogging hlogging' hlevel⟩
  · rename_i b _ _ b' _ _
    cases b
    cases b'
    rw [Behaviour.mk.injEq]
    exact ⟨hviewer.savePolicy.unique hviewer'.savePolicy Names.unique (.text .confirm)
        hpolicy,
      hviewer.ancestorVisible.flag_unique hviewer'.ancestorVisible hvisible,
      hviewer.ignoreAncestor.flag_unique hviewer'.ignoreAncestor hignore,
      hviewer.mirrored.flag_unique hviewer'.mirrored hmirrored,
      Sided.ext (hviewer.left.flag_unique hviewer'.left hleft)
        (hviewer.right.flag_unique hviewer'.right hright)⟩
  · rename_i m _ _ m' _
    cases m
    cases m'
    rw [Messages.mk.injEq]
    exact ⟨hmessages.saveTitle.text_unique hmessages'.saveTitle hsaveTitle,
      hmessages.saveMessage.text_unique hmessages'.saveMessage hsaveMessage,
      hmessages.changedTitle.text_unique hmessages'.changedTitle hchangedTitle,
      hmessages.changedMessage.text_unique hmessages'.changedMessage hchangedMessage⟩

/-! ## Texts -/

/-- **A document overlays the defaults.** A text whose document has the sections as
tables, if it has them, with values of the right type for the keys that are known,
stands for settings: the default ones, with what it gives in their place. Texts of
which the documents say the same, be it that they leave out a default or spell it, stand
for the same settings. -/
theorem document_overlays_defaults {text : String} {t : Table}
    (h : Toml.parse? text = some t) (ht : WellTyped t) :
    (∃ settings, ofToml text = .ok settings ∧
      ∀ other, Overlays t other ↔ other = settings) ∧
    ∀ text' t', Toml.parse? text' = some t' → WellTyped t' → SameSpelled t t' →
      ofToml text' = ofToml text := by
  have hoverlays : ∀ {text t}, Toml.parse? text = some t → WellTyped t →
      ∃ settings, ofToml text = .ok settings ∧ Overlays t settings := by
    intro text t h ht
    have hkeyed := Toml.keyed_of_parse? h
    obtain ⟨settings, hsettings⟩ := ofTable_ok hkeyed ht
    exact ⟨settings, by rw [ofToml, h]; exact hsettings,
      overlays_of_ofTable hkeyed ht hsettings⟩
  obtain ⟨settings, hok, hover⟩ := hoverlays h ht
  refine ⟨⟨settings, hok, fun other => ?_⟩, fun text' t' h' ht' hsame => ?_⟩
  · constructor
    · exact fun hother => hother.unique hover (.refl t)
    · rintro rfl
      exact hover
  · obtain ⟨settings', hok', hover'⟩ := hoverlays h' ht'
    rw [hok, hok', hover.unique hover' hsame]

/-- A document that leaves out the defaults and says more than is known, and one that
spells a default and has a section without keys. -/
theorem mirrored_document_overlays_defaults :
    ∃ t t', Toml.parse? "[viewer]\nmirrored = true\nextra = 1\n[other]\nx = 2\n" = some t ∧
      Toml.parse? "[messages]\n[viewer]\nmirrored = true\nsave_policy = \"confirm\"\n" =
        some t' ∧
      WellTyped t ∧ WellTyped t' ∧ SameSpelled t t' ∧
      ofToml "[messages]\n[viewer]\nmirrored = true\nsave_policy = \"confirm\"\n" =
        ofToml "[viewer]\nmirrored = true\nextra = 1\n[other]\nx = 2\n" ∧
      Overlays t { viewer := { mirrored := true } } := by
  have hparse : Toml.parse? "[viewer]\nmirrored = true\nextra = 1\n[other]\nx = 2\n" =
      some [("viewer", .table .header [("mirrored", .boolean true), ("extra", .integer 1)]),
        ("other", .table .header [("x", .integer 2)])] := by with_unfolding_all rfl
  have hparse' : Toml.parse?
        "[messages]\n[viewer]\nmirrored = true\nsave_policy = \"confirm\"\n" =
      some [("messages", .table .header []), ("viewer", .table .header
        [("mirrored", .boolean true), ("save_policy", .string "confirm")])] := by
    with_unfolding_all rfl
  -- from here on the two tables are known by these equations alone
  refine ⟨_, _, hparse, hparse', ?_⟩
  generalize ht : [("viewer", Value.table .header _), _] = t at hparse ⊢
  generalize ht' : [("messages", Value.table .header _), _] = t' at hparse' ⊢
  have hwell : WellTyped t := ht ▸ by decide +kernel
  have hwell' : WellTyped t' := ht' ▸ by decide +kernel
  have hspelled : SameSpelled t t' := by
    simp only [SameSpelled, spelled, List.forall_mem_cons, List.not_mem_nil, false_implies,
      implies_true, and_true, ← ht, ← ht']
    exact ⟨rfl, rfl, rfl, rfl, rfl, rfl, rfl, rfl, rfl, rfl, rfl⟩
  obtain ⟨⟨settings, hok, hover⟩, hsame⟩ := document_overlays_defaults hparse hwell
  have hsettings : settings = { viewer := { mirrored := true } } :=
    Except.ok.inj (hok.symm.trans (ok_of_toOption (by decide +kernel)))
  exact ⟨hwell, hwell', hspelled, hsame _ _ hparse' hwell' hspelled,
    (hover _).mpr hsettings.symm⟩

end Reconcile.Settings
