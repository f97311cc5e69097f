/-
Reconcile.Proofs.Text.Lines — texts put together, line by line.

A text is cut into lines after each of its line feeds (`Broken`), so two texts
that are put together have their lines one after the other as long as the first
of them is over with its last line (`lines_append`). Where it is not, its last
line goes on in the second text.
-/
import Reconcile.Text.Lines

namespace Reconcile.Text

@[simp] theorem joinLines_nil : joinLines [] = "" := rfl

@[simp] theorem joinLines_cons (line : String) (ls : List String) :
    joinLines (line :: ls) = line ++ joinLines ls := by
  simp [joinLines]

@[simp] theorem joinLines_append (ls ms : List String) :
    joinLines (ls ++ ms) = joinLines ls ++ joinLines ms := by
  simp [joinLines]

/-! ## The first line of a text -/

@[simp] theorem lines_empty : lines "" = [] := rfl

theorem lines_eq_nil_iff {s : String} : lines s = [] ↔ s = "" := by
  refine ⟨fun h => ?_, fun h => h ▸ lines_empty⟩
  rw [← join_lines s, h, joinLines_nil]

theorem lineChars_append {front : List Char} (h : '\n' ∉ front) (rest : List Char) :
    lineChars (front ++ '\n' :: rest) = (front ++ ['\n']) :: lineChars rest := by
  induction front with
  | nil => simp [lineChars]
  | cons c front ih =>
    rw [List.mem_cons, not_or] at h
    rw [List.cons_append, lineChars, if_neg (Ne.symm h.1), ih h.2]
    rfl

/-- A text that goes on after its first line feed. -/
theorem lines_line {front : String} (h : '\n' ∉ front.toList) (rest : String) :
    lines (front ++ "\n" ++ rest) = (front ++ "\n") :: lines rest := by
  have hchars := lineChars_append h rest.toList
  have htext : (front ++ "\n" ++ rest).toList = front.toList ++ '\n' :: rest.toList := by
    simp
  rw [lines, htext, hchars, List.map_cons, lines]
  congr 1
  apply String.ext
  simp

theorem lineChars_unended_append {front : List Char} (hne : front ≠ [])
    (h : '\n' ∉ front) (rest : List Char) :
    lineChars (front ++ rest) =
      (front ++ (lineChars rest).headD []) :: (lineChars rest).tail := by
  induction front with
  | nil => exact absurd rfl hne
  | cons c front ih =>
    rw [List.mem_cons, not_or] at h
    rw [List.cons_append, lineChars, if_neg (Ne.symm h.1)]
    by_cases hfront : front = []
    · subst hfront
      rw [List.nil_append]
      cases lineChars rest <;> rfl
    · rw [ih hfront h.2]
      rfl

/-- A text that begins with something without a line feed: this is put in front of
the first line of the rest, if there is one. -/
theorem lines_unended_append {front : String} (hne : front ≠ "")
    (h : '\n' ∉ front.toList) (rest : String) :
    lines (front ++ rest) =
      (front ++ (lines rest).headD "") :: (lines rest).tail := by
  have hne' : front.toList ≠ [] := fun heq => hne (String.toList_eq_nil_iff.mp heq)
  have hchars := lineChars_unended_append hne' h rest.toList
  rw [lines, String.toList_append, hchars, List.map_cons, lines, List.map_tail]
  congr 1
  apply String.ext
  cases lineChars rest.toList <;> simp

/-! ## Texts cut into lines -/

/-- Lines as they are cut out of a text: a line feed ends each of them, and only the
last one may lack it. -/
inductive Broken : List String → Prop where
  | nil : Broken []
  | unended {line : String} (hne : line ≠ "") (h : '\n' ∉ line.toList) : Broken [line]
  | line {front : String} {ls : List String} (h : '\n' ∉ front.toList)
      (hls : Broken ls) : Broken ((front ++ "\n") :: ls)

theorem broken_lines (s : String) : Broken (lines s) := by
  generalize hcs : s.toList = cs
  induction cs generalizing s with
  | nil =>
    obtain rfl := String.toList_eq_nil_iff.mp hcs
    exact .nil
  | cons c cs ih =>
    have hrest := ih (String.ofList cs) (by simp)
    by_cases hc : c = '\n'
    · have htext : s = "" ++ "\n" ++ String.ofList cs := by
        apply String.ext
        simp [hcs, hc]
      rw [htext, lines_line (by simp)]
      exact .line (by simp) hrest
    · have hnot : '\n' ∉ (String.singleton c).toList := by simpa using Ne.symm hc
      have htext : s = String.singleton c ++ String.ofList cs := by
        apply String.ext
        simp [hcs]
      rw [htext, lines_unended_append (by simp) hnot]
      -- the first line of the rest gets a character in front
      generalize lines (String.ofList cs) = ls at hrest
      cases hrest with
      | nil => exact .unended (by simp) (by simpa using Ne.symm hc)
      | unended hne h => exact .unended (by simp) (by simp [Ne.symm hc, h])
      | line h hls =>
        rw [List.headD_cons, ← String.append_assoc, List.tail_cons]
        exact .line (by simp [Ne.symm hc, h]) hls

theorem Broken.lines_joinLines {ls : List String} (h : Broken ls) :
    lines (joinLines ls) = ls := by
  induction h with
  | nil => rfl
  | unended hne h =>
    have hline := lines_unended_append hne h ""
    simpa using hline
  | line h _ ih => rw [joinLines_cons, lines_line h, ih]

/-! ## Texts that are over with their last line -/

/-- A text that is empty or ends in a line feed. -/
def Ended (s : String) : Prop := s = "" ∨ endsLine s = true

instance (s : String) : Decidable (Ended s) := inferInstanceAs (Decidable (_ ∨ _))

theorem Ended.right {s t : String} (h : Ended (s ++ t)) : Ended t := by
  by_cases ht : t = ""
  · exact .inl ht
  · refine .inr ?_
    rcases h with h | h
    · simp_all
    · simpa [endsLine, ht] using h

theorem not_ended {line : String} (hne : line ≠ "") (h : '\n' ∉ line.toList) :
    ¬ Ended line := by
  rintro (heq | hends)
  · exact hne heq
  · exact h (List.mem_of_getLast? (by simpa [endsLine] using hends))

theorem Broken.lines_append {ls : List String} (h : Broken ls)
    (hended : Ended (joinLines ls)) (t : String) :
    lines (joinLines ls ++ t) = ls ++ lines t := by
  induction h with
  | nil => simp
  | unended hne h => exact absurd (by simpa using hended) (not_ended hne h)
  | line h _ ih =>
    rw [joinLines_cons] at hended ⊢
    rw [String.append_assoc, lines_line h, ih hended.right]
    rfl

/-- A text that is over with its last line has its lines before those of what follows. -/
theorem lines_append {s : String} (h : Ended s) (t : String) :
    lines (s ++ t) = lines s ++ lines t := by
  have hlines := (broken_lines s).lines_append (by rwa [join_lines]) t
  rwa [join_lines] at hlines

theorem ended_append (s : String) {t : String} (h : endsLine t = true) :
    Ended (s ++ t) := by
  have hlast : t.toList.getLast? = some '\n' := by simpa [endsLine] using h
  exact .inr (by simp [endsLine, hlast])

theorem Ended.append {s t : String} (hs : Ended s) (ht : Ended t) : Ended (s ++ t) := by
  rcases ht with rfl | ht
  · simpa using hs
  · exact ended_append s ht

theorem ended_line (front : String) : Ended (front ++ "\n") := ended_append front rfl

/-- Lines cut out of a text, cut once more: what is before the second part is over
with its last line. -/
theorem Broken.of_append {ls ms : List String} (h : Broken (ls ++ ms)) :
    Broken ls ∧ Broken ms ∧ (ms ≠ [] → Ended (joinLines ls)) := by
  induction ls with
  | nil => exact ⟨.nil, h, fun _ => .inl rfl⟩
  | cons line ls ih =>
    rw [List.cons_append] at h
    generalize hall : ls ++ ms = rest at h
    cases h with
    | unended hne hline =>
      obtain ⟨rfl, rfl⟩ := List.append_eq_nil_iff.mp hall
      exact ⟨.unended hne hline, .nil, fun hms => absurd rfl hms⟩
    | line hfront hrest =>
      obtain ⟨hls, hms, hended⟩ := ih (hall ▸ hrest)
      refine ⟨.line hfront hls, hms, fun hne => ?_⟩
      rw [joinLines_cons]
      exact (ended_line _).append (hended hne)

theorem Broken.part {ls ms : List String} (h : Broken ms) (hin : ls <:+: ms) :
    Broken ls := by
  obtain ⟨before, after, rfl⟩ := hin
  exact h.of_append.1.of_append.2.1

/-- Lines out of the middle of a text that is over with its last line. -/
theorem Broken.ended_part {ls ms : List String} (h : Broken ms) (hin : ls <:+: ms)
    (hended : Ended (joinLines ms)) : Ended (joinLines ls) := by
  obtain ⟨before, after, rfl⟩ := hin
  have hbefore : Ended (joinLines (before ++ ls)) := by
    by_cases hafter : after = []
    · simpa [hafter] using hended
    · exact h.of_append.2.2 hafter
  rw [joinLines_append] at hbefore
  exact hbefore.right

/-! ## Counting lines -/

/-- The line feeds of a text. -/
def lineFeeds (s : String) : Nat := s.toList.count '\n'

@[simp] theorem lineFeeds_append (s t : String) :
    lineFeeds (s ++ t) = lineFeeds s + lineFeeds t := by
  simp [lineFeeds]

theorem Broken.length {ls : List String} (h : Broken ls) (hended : Ended (joinLines ls)) :
    ls.length = lineFeeds (joinLines ls) := by
  induction h with
  | nil => rfl
  | unended hne h => exact absurd (by simpa using hended) (not_ended hne h)
  | @line front ls h _ ih =>
    have hfront : lineFeeds front = 0 := List.count_eq_zero.mpr h
    have hfeed : lineFeeds "\n" = 1 := rfl
    rw [joinLines_cons] at hended ⊢
    rw [List.length_cons, ih hended.right, lineFeeds_append, lineFeeds_append, hfront,
      hfeed]
    omega

/-- A text that is over with its last line has as many lines as line feeds. -/
theorem length_lines {s : String} (h : Ended s) : (lines s).length = lineFeeds s := by
  have hlength := (broken_lines s).length (by rwa [join_lines])
  rwa [join_lines] at hlength

/-! ## What a line begins with -/

/-- A line that does not start with some characters does not come to do so when
something follows that begins with none of them. -/
theorem startsWith_append {start front more : String} (h : startsWith start front = false)
    (hmore : ∀ c ∈ more.toList.head?, c ∉ start.toList) :
    startsWith start (front ++ more) = false := by
  rw [startsWith, ← Bool.not_eq_true, List.isPrefixOf_iff_prefix] at h ⊢
  rw [String.toList_append]
  intro hstart
  rcases List.prefix_or_prefix_of_prefix hstart (List.prefix_append _ _) with hle | hle
  · exact h hle
  · obtain ⟨missing, hmissing⟩ := hle
    rw [← hmissing, List.prefix_append_right_inj] at hstart
    cases missing with
    | nil => exact h (by simp [← hmissing])
    | cons c missing =>
      obtain ⟨rest, hrest⟩ := hstart
      refine hmore c ?_ (by rw [← hmissing]; simp)
      rw [← hrest]
      rfl

end Reconcile.Text
