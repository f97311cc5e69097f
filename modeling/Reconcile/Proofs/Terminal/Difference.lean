/-
Reconcile.Proofs.Terminal.Difference — what a terminal says about the two sides.

A patch has hunks exactly if it leads from one text to another one
(`Patch.ofTexts_eq_nil_iff`), and without colours its text has more than two lines
exactly if it has hunks. With colours it always has: the colour of its head ends
in a line of its own. So a terminal with colours never says that there are no
differences; and bytes that are no text it calls different without a look
(`content_tells_iff`).
-/
import Reconcile.Terminal.Screen
import Reconcile.Proofs.Disk
import Reconcile.Proofs.Script.Readings
import Reconcile.Proofs.Text.Lines

namespace Reconcile.Patch

open Reconcile.Text (lines Ended)
open Reconcile.Terminal (Style)

/-! ## Patches without hunks -/

/-- A script without replacements keeps what it reads. -/
theorem eq_of_replacementsFrom_eq_nil {script : Script String} {current : Replacement}
    (h : replacementsFrom current script = []) :
    current.isEmpty = true ∧ script.old = script.new := by
  induction script generalizing current with
  | nil => simpa [replacementsFrom] using h
  | cons e script ih =>
    obtain ⟨kind, ls⟩ := e
    cases kind with
    | keep =>
      rw [replacementsFrom] at h
      split at h
      · rename_i hempty
        exact ⟨hempty, congrArg (ls ++ ·) (ih h).2⟩
      · simp at h
    | delete =>
      rw [replacementsFrom] at h
      obtain ⟨hempty, hsame⟩ := ih h
      simp_all [Replacement.isEmpty, Edit.old, Edit.new]
    | insert =>
      rw [replacementsFrom] at h
      obtain ⟨hempty, hsame⟩ := ih h
      simp_all [Replacement.isEmpty, Edit.old, Edit.new]

theorem hunksFrom_ne_nil (old new : List String) (h : Hunk) (last : Replacement)
    (rs : List Replacement) : hunksFrom old new h last rs ≠ [] := by
  induction rs generalizing h last with
  | nil => simp [hunksFrom]
  | cons r rs ih =>
    rw [hunksFrom]
    split
    · exact ih _ _
    · simp

theorem hunks_eq_nil_iff (old new : List String) (rs : List Replacement) :
    hunks old new rs = [] ↔ rs = [] := by
  cases rs with
  | nil => simp [hunks]
  | cons r rs => simp [hunks, hunksFrom_ne_nil]

/-- **A patch without hunks** leads from a text to itself. -/
theorem ofTexts_eq_nil_iff (old new : String) : ofTexts old new = [] ↔ old = new := by
  rw [ofTexts, hunks_eq_nil_iff]
  constructor
  · intro h
    have hsame := (eq_of_replacementsFrom_eq_nil h).2
    have hbetween := Script.between_compact_shortest (lines old) (lines new)
    rw [hbetween.old, hbetween.new] at hsame
    rw [← Text.join_lines old, hsame, Text.join_lines]
  · rintro rfl
    rw [Script.compact_shortest_self, Script.single]
    split <;> rfl

/-! ## The lines of a patch -/

theorem Hunk.render_ne_empty (style : Style) (h : Hunk) : h.render style ≠ "" := by
  simp [Hunk.render]

theorem join_render_eq_empty_iff (style : Style) (hs : List Hunk) :
    String.join (hs.map (·.render style)) = "" ↔ hs = [] := by
  cases hs with
  | nil => simp
  | cons h hs => simp [Hunk.render_ne_empty]

/-- What a patch begins with: its head, in colour up to its second line feed. -/
def opening (style : Style) : String :=
  (if style.colour then Terminal.Attribute.bold.sequence else "") ++ head

/-- What a patch goes on with. -/
def remainder (style : Style) (hs : List Hunk) : String :=
  (if style.colour then Terminal.reset else "") ++
    String.join (hs.map (·.render style))

theorem render_eq (style : Style) (hs : List Hunk) :
    render style hs = opening style ++ remainder style hs := by
  cases hcolour : style.colour <;>
    simp [render, opening, remainder, Style.paint, hcolour, String.append_assoc]

theorem remainder_eq_empty_iff (style : Style) (hs : List Hunk) :
    remainder style hs = "" ↔ style.colour = false ∧ hs = [] := by
  cases hcolour : style.colour <;>
    simp [remainder, hcolour, join_render_eq_empty_iff, Terminal.reset]

/-- A patch has more lines than its head if it is coloured or has hunks. -/
theorem two_lt_length_lines_render (style : Style) (hs : List Hunk) :
    2 < (lines (render style hs)).length ↔ style.colour = true ∨ hs ≠ [] := by
  have hopening : ∀ colour : Bool, Ended (opening ⟨colour⟩) ∧
      (lines (opening ⟨colour⟩)).length = 2 := by
    decide +kernel
  obtain ⟨hended, htwo⟩ := hopening style.colour
  have hmore : lines (remainder style hs) = [] ↔ ¬ (style.colour = true ∨ hs ≠ []) := by
    rw [Text.lines_eq_nil_iff, remainder_eq_empty_iff]
    simp
  rw [render_eq, Text.lines_append hended, List.length_append, htwo]
  by_cases hany : style.colour = true ∨ hs ≠ []
  · have hpos := List.length_pos_iff.mpr fun hnil => hmore.mp hnil hany
    exact iff_of_true (by omega) hany
  · rw [hmore.mpr hany]
    exact iff_of_false (by simp) hany

end Reconcile.Patch

namespace Reconcile.Terminal

/-! ## Bytes that are text -/

/-- Bytes that are a text. -/
def IsText (bytes : ByteArray) : Prop := (String.fromUTF8? bytes).isSome = true

instance (bytes : ByteArray) : Decidable (IsText bytes) := inferInstanceAs (Decidable (_ = _))

theorem eq_iff_of_texts {left right : ByteArray} {old new : String}
    (hleft : String.fromUTF8? left = some old) (hright : String.fromUTF8? right = some new) :
    left = right ↔ old = new := by
  constructor
  · rintro rfl
    exact Option.some.inj (hleft.symm.trans hright)
  · rintro rfl
    rw [← fromUTF8?_eq_some_iff.mp hleft, fromUTF8?_eq_some_iff.mp hright]

/-! ## The difference of two sides -/

/-- The line that says that there is no difference. -/
def noDifferences (style : Style) : String := style.dim "(no differences)" ++ "\n"

/-- The line that says that there is one which is not shown. -/
def binaryDiffers (style : Style) : String := style.dim "(binary content differs)" ++ "\n"

theorem difference_of_texts {left right : ByteArray} {old new : String} (style : Style)
    (hleft : String.fromUTF8? left = some old) (hright : String.fromUTF8? right = some new) :
    Screen.difference style left right =
      if style.colour = true ∨ old ≠ new then
        Patch.render style (Patch.ofTexts old new)
      else noDifferences style := by
  have hpatch : Patch.ofBytes left right = some (Patch.ofTexts old new) := by
    simp [Patch.ofBytes, hleft, hright]
  simp only [Screen.difference, hpatch, Patch.two_lt_length_lines_render, ne_eq,
    Patch.ofTexts_eq_nil_iff]
  rfl

theorem difference_of_binary {left right : ByteArray} (style : Style)
    (h : ¬ (IsText left ∧ IsText right)) :
    Screen.difference style left right = binaryDiffers style := by
  have hpatch : Patch.ofBytes left right = none := by
    rw [IsText, IsText] at h
    cases hleft : String.fromUTF8? left with
    | none => simp [Patch.ofBytes, hleft]
    | some old =>
      cases hright : String.fromUTF8? right with
      | none => simp [Patch.ofBytes, hleft, hright]
      | some new => simp [hleft, hright] at h
  simp only [Screen.difference, hpatch]
  rfl

theorem noDifferences_ne_binaryDiffers (style : Style) :
    noDifferences style ≠ binaryDiffers style := by
  have hboth : ∀ colour : Bool, noDifferences ⟨colour⟩ ≠ binaryDiffers ⟨colour⟩ := by
    decide +kernel
  exact hboth style.colour

/-- A patch begins with its head, and that is not how the line without differences
begins. -/
theorem render_ne_noDifferences (style : Style) (hs : List Patch.Hunk) :
    Patch.render style hs ≠ noDifferences style := by
  have hopening : ∀ colour : Bool,
      (Patch.opening ⟨colour⟩).toList.take 4 ≠ (noDifferences ⟨colour⟩).toList.take 4 ∧
        4 ≤ (Patch.opening ⟨colour⟩).toList.length := by
    decide +kernel
  obtain ⟨hne, hlength⟩ := hopening style.colour
  intro heq
  apply hne
  rw [Patch.render_eq] at heq
  rw [← List.take_append_of_le_length hlength, ← String.toList_append]
  exact congrArg (·.toList.take 4) heq

/-- A terminal tells of two contents whether they are the same: it says that there are
no differences exactly if they are; of different texts it shows a patch, with hunks,
and of different contents that are not both text it says that they differ. -/
structure Tells (style : Style) (left right : ByteArray) (shown : String) : Prop where
  same : shown = noDifferences style ↔ left = right
  patch : left ≠ right → ∀ old new, String.fromUTF8? left = some old →
    String.fromUTF8? right = some new →
      shown = Patch.render style (Patch.ofTexts old new) ∧ Patch.ofTexts old new ≠ []
  binary : left ≠ right → ¬ (IsText left ∧ IsText right) → shown = binaryDiffers style

/-- Different contents are told apart, whatever they are. -/
theorem tells_of_ne {style : Style} {left right : ByteArray} (hne : left ≠ right) :
    Tells style left right (Screen.difference style left right) := by
  by_cases htexts : IsText left ∧ IsText right
  · obtain ⟨old, hleft⟩ := Option.isSome_iff_exists.mp htexts.1
    obtain ⟨new, hright⟩ := Option.isSome_iff_exists.mp htexts.2
    have hnew : old ≠ new := fun h => hne ((eq_iff_of_texts hleft hright).mpr h)
    rw [difference_of_texts style hleft hright, if_pos (.inr hnew)]
    refine ⟨iff_of_false (render_ne_noDifferences _ _) hne, ?_, fun _ h => absurd htexts h⟩
    rintro - old' new' hold hnew'
    obtain rfl := Option.some.inj (hleft.symm.trans hold)
    obtain rfl := Option.some.inj (hright.symm.trans hnew')
    exact ⟨rfl, fun hnil => hnew ((Patch.ofTexts_eq_nil_iff _ _).mp hnil)⟩
  · rw [difference_of_binary style htexts]
    refine ⟨iff_of_false (noDifferences_ne_binaryDiffers style).symm hne, ?_, fun _ _ => rfl⟩
    intro _ old new hold hnew
    exact absurd ⟨by simp [IsText, hold], by simp [IsText, hnew]⟩ htexts

/-- What is printed of a content next to itself. -/
theorem difference_self (style : Style) (content : ByteArray) :
    Screen.difference style content content =
      if ¬ IsText content then binaryDiffers style
      else if style.colour = true then Patch.render style []
      else noDifferences style := by
  by_cases htext : IsText content
  · obtain ⟨text, hcontent⟩ := Option.isSome_iff_exists.mp htext
    rw [difference_of_texts style hcontent hcontent,
      (Patch.ofTexts_eq_nil_iff text text).mpr rfl]
    simp [htext]
  · rw [difference_of_binary style fun h => htext h.1, if_pos htext]

/-- A content is told to be the same as itself if it is text and there are no colours. -/
theorem tells_self_iff {style : Style} {content : ByteArray} :
    Tells style content content (Screen.difference style content content) ↔
      IsText content ∧ style.colour = false := by
  have hsame : ∀ shown, Tells style content content shown ↔ shown = noDifferences style :=
    fun shown => ⟨fun h => h.same.mpr rfl, fun h =>
      ⟨iff_of_true h rfl, fun hne => absurd rfl hne, fun hne => absurd rfl hne⟩⟩
  rw [hsame, difference_self]
  split
  · rename_i htext
    exact iff_of_false (noDifferences_ne_binaryDiffers style).symm fun h => htext h.1
  · rename_i htext
    split
    · rename_i hcolour
      exact iff_of_false (render_ne_noDifferences style []) fun h => by simp [hcolour] at h
    · rename_i hcolour
      exact iff_of_true rfl ⟨Decidable.not_not.mp htext, by simpa using hcolour⟩

/-- **What a terminal says about the two sides.** Where content is shown of which at least
one side is there, a missing side counting as empty, one thing is printed. It tells
whether the sides are the same, except where they are and are no text, or are printed
in colour: then it is the line that says that they differ, or the head of a patch
and nothing after it. -/
theorem content_tells_iff (s : Screen) (panes : Paned (Option ByteArray))
    (hside : panes.left.isSome = true ∨ panes.right.isSome = true) :
    let left := panes.left.getD .empty
    let right := panes.right.getD .empty
    let shown := Screen.difference s.style left right
    s.take (.content panes) = s.print shown ∧
      (Tells s.style left right shown ↔
        (left = right → IsText left ∧ s.style.colour = false)) ∧
      (left = right → ¬ IsText left → shown = binaryDiffers s.style) ∧
      (left = right → IsText left → s.style.colour = true →
        shown = Patch.render s.style []) := by
  intro left right shown
  have hself : left = right → shown = Screen.difference s.style left left := fun h =>
    congrArg (Screen.difference s.style left) h.symm
  refine ⟨?_, ?_, ?_, ?_⟩
  · have hnone : (panes.left.isNone && panes.right.isNone) = false := by
      rcases hside with h | h <;> simp [h, ← Option.not_isSome]
    simp only [Screen.take, Screen.showContent, hnone]
    rfl
  · by_cases hsame : left = right
    · simp only [shown, ← hsame, tells_self_iff, true_implies]
    · exact iff_of_true (tells_of_ne hsame) fun h => absurd h hsame
  · intro hsame htext
    rw [hself hsame, difference_self, if_pos htext]
  · intro hsame htext hcolour
    rw [hself hsame, difference_self, if_neg (not_not_intro htext), if_pos hcolour]

/-- A left side with text in it, next to none. -/
theorem content_told_from_missing_side :
    (some "a\n".toUTF8).isSome = true ∧
      Tells {} "a\n".toUTF8 .empty (Screen.difference {} "a\n".toUTF8 .empty) := by
  refine ⟨rfl, (content_tells_iff {} ⟨none, some "a\n".toUTF8, none⟩ (.inl rfl)).2.1.mpr ?_⟩
  decide +kernel

/-- The same two bytes on both sides, which are no text, are said to differ. -/
theorem same_bytes_said_to_differ :
    let bytes : ByteArray := ⟨#[0xff, 0x00]⟩
    (Screen.take {} (.content ⟨none, some bytes, some bytes⟩)).out =
        "(binary content differs)\n" ∧
      ¬ Tells {} bytes bytes (Screen.difference {} bytes bytes) := by
  intro bytes
  refine ⟨by decide +kernel, fun h => ?_⟩
  exact absurd (tells_self_iff.mp h).1 (by decide +kernel)

end Reconcile.Terminal
