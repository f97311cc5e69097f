/-
Reconcile.Proofs.Merge.Regions — the conflicts that a merge reports, and those
that it wrote.

A merge writes its conflicts between markers, and then looks for markers in the
text that it wrote. `markedFrom` says where the markers of its conflicts are, by
counting the line feeds before them; what is found are the lines that begin like
a marker. The two come apart where a line of a side begins like a marker, and
where the right side of a conflict has no line feed at its end: the closing marker
is then in the middle of a line. `Legible` is the exact condition
(`reports_conflicts_iff`).

* `regionsFrom_closing_iff` — what is found from an opening marker on.
* `Parted.aligned` — in a merge, opening markers do begin a line.
* `legible_of_plain` — texts without such lines, the right one with a line feed at
  its end, are legible.
-/
import Reconcile.Proofs.Merge.Shortcuts
import Reconcile.Proofs.Text.Lines

namespace Reconcile.Merge

open Reconcile.Text (lines joinLines startsWith Ended Broken lineFeeds)

/-! ## Looking for markers -/

/-- A line that is not taken for a marker. -/
def Unmarked (line : String) : Prop := opens line = false ∧ closes line = false

instance (line : String) : Decidable (Unmarked line) := inferInstanceAs (Decidable (_ ∧ _))

/-- Lines in which no line that opens a conflict is before one that closes it. -/
def Quiet (ls : List String) : Prop :=
  ls.Pairwise fun line later => opens line = true → closes later = false

theorem quiet_of_unmarked {ls : List String} (h : ∀ line ∈ ls, Unmarked line) :
    Quiet ls :=
  List.pairwise_of_forall_mem_list fun _ _ later hlater _ => (h later hlater).2

theorem opens_of_closes {line : String} (h : closes line = true) : opens line = false := by
  rw [closes, startsWith] at h
  rw [opens, startsWith]
  generalize line.toList = cs at h
  cases cs with
  | nil => rfl
  | cons c cs => grind [List.isPrefixOf]

theorem closes_of_opens {line : String} (h : opens line = true) : closes line = false := by
  cases hcloses : closes line with
  | false => rfl
  | true => simp [opens_of_closes hcloses] at h

theorem marker_cases (line : String) :
    opens line = true ∨ closes line = true ∨ Unmarked line := by
  unfold Unmarked
  cases opens line <;> cases closes line <;> simp

section Scan

variable {line : String} {ls : List String} {n first : Nat} {opened : Option Nat}

theorem regionsFrom_opens (h : opens line = true) :
    regionsFrom n opened (line :: ls) = regionsFrom (n + 1) (some n) ls := by
  rw [regionsFrom.eq_def]
  simp [h]

theorem regionsFrom_closes (h : closes line = true) :
    regionsFrom n (some first) (line :: ls) = ⟨first, n⟩ :: regionsFrom (n + 1) none ls := by
  rw [regionsFrom]
  simp [h, opens_of_closes h]

theorem regionsFrom_closes_none (h : closes line = true) :
    regionsFrom n none (line :: ls) = regionsFrom (n + 1) none ls := by
  rw [regionsFrom]
  simp [h, opens_of_closes h]

theorem regionsFrom_unmarked (h : Unmarked line) :
    regionsFrom n opened (line :: ls) = regionsFrom (n + 1) opened ls := by
  rw [regionsFrom.eq_def]
  simp [h.1, h.2]

/-- A marked region ends within the lines that are looked at. -/
theorem last_of_mem_regionsFrom {region : Region} (h : region ∈ regionsFrom n opened ls) :
    n ≤ region.last ∧ region.last < n + ls.length := by
  induction ls generalizing n opened with
  | nil => simp [regionsFrom] at h
  | cons line ls ih =>
    have hmore : ∀ {later : Option Nat}, region ∈ regionsFrom (n + 1) later ls →
        n ≤ region.last ∧ region.last < n + (ls.length + 1) := fun h => by
      have hlater := ih h
      omega
    rw [List.length_cons]
    rcases marker_cases line with hopens | hcloses | hunmarked
    · exact hmore (regionsFrom_opens hopens ▸ h)
    · cases opened with
      | none => exact hmore (regionsFrom_closes_none hcloses ▸ h)
      | some first =>
        rw [regionsFrom_closes hcloses, List.mem_cons] at h
        rcases h with rfl | h
        · exact ⟨Nat.le_refl n, by simp⟩
        · exact hmore h
    · exact hmore (regionsFrom_unmarked hunmarked ▸ h)

/-- A marked region begins at an opening line: the last one before the lines that are
looked at, or one of these. -/
theorem first_of_mem_regionsFrom {low : Nat} {region : Region} (hn : low ≤ n)
    (hopened : ∀ first ∈ opened, low ≤ first) (h : region ∈ regionsFrom n opened ls) :
    low ≤ region.first := by
  induction ls generalizing n opened with
  | nil => simp [regionsFrom] at h
  | cons line ls ih =>
    have hnext : low ≤ n + 1 := Nat.le_succ_of_le hn
    rcases marker_cases line with hopens | hcloses | hunmarked
    · exact ih hnext (by simpa using hn) (regionsFrom_opens hopens ▸ h)
    · cases opened with
      | none => exact ih hnext (by simp) (regionsFrom_closes_none hcloses ▸ h)
      | some first =>
        rw [regionsFrom_closes hcloses, List.mem_cons] at h
        rcases h with rfl | h
        · exact hopened first rfl
        · exact ih hnext (by simp) h
    · exact ih hnext hopened (regionsFrom_unmarked hunmarked ▸ h)

theorem regionsFrom_some_eq_nil_iff :
    regionsFrom n (some first) ls = [] ↔ ∀ line ∈ ls, closes line = false := by
  induction ls generalizing n first with
  | nil => simp [regionsFrom]
  | cons line ls ih =>
    rw [List.forall_mem_cons]
    rcases marker_cases line with hopens | hcloses | hunmarked
    · simp [regionsFrom_opens hopens, ih, closes_of_opens hopens]
    · simp [regionsFrom_closes hcloses, hcloses]
    · simp [regionsFrom_unmarked hunmarked, ih, hunmarked.2]

/-- Nothing is found where no line that closes comes after one that opens. -/
theorem regionsFrom_none_eq_nil_iff : regionsFrom n none ls = [] ↔ Quiet ls := by
  induction ls generalizing n with
  | nil => simp [regionsFrom, Quiet]
  | cons line ls ih =>
    rw [Quiet, List.pairwise_cons]
    rcases marker_cases line with hopens | hcloses | hunmarked
    · rw [regionsFrom_opens hopens, regionsFrom_some_eq_nil_iff]
      refine ⟨fun h => ⟨fun later hlater _ => h later hlater, ?_⟩, fun h later hlater =>
        h.1 later hlater hopens⟩
      exact List.pairwise_of_forall_mem_list fun _ _ later hlater _ => h later hlater
    · simp [regionsFrom_closes_none hcloses, ih, opens_of_closes hcloses, Quiet]
    · simp [regionsFrom_unmarked hunmarked, ih, hunmarked.1, Quiet]

/-- What is found before an opening marker has no bearing on what is found after it. -/
theorem regionsFrom_append_opens {opening : String} (hopens : opens opening = true)
    (ls rest : List String) (n : Nat) (opened : Option Nat) :
    regionsFrom n opened (ls ++ opening :: rest) =
      regionsFrom n opened ls ++
        regionsFrom (n + ls.length + 1) (some (n + ls.length)) rest := by
  induction ls generalizing n opened with
  | nil => simp [regionsFrom_opens hopens, regionsFrom]
  | cons line ls ih =>
    have hnext : n + (line :: ls).length = n + 1 + ls.length := by
      rw [List.length_cons]
      omega
    rw [List.cons_append, hnext]
    rcases marker_cases line with hopens | hcloses | hunmarked
    · rw [regionsFrom_opens hopens, regionsFrom_opens hopens, ih]
    · cases opened with
      | none => rw [regionsFrom_closes_none hcloses, regionsFrom_closes_none hcloses, ih]
      | some first =>
        rw [regionsFrom_closes hcloses, regionsFrom_closes hcloses, ih, List.cons_append]
    · rw [regionsFrom_unmarked hunmarked, regionsFrom_unmarked hunmarked, ih]

/-- The first that is found after an opening marker is closed by a certain line if
and only if that line closes and none before it is taken for a marker. -/
theorem regionsFrom_closing_iff {inner rest : List String} {last : String}
    {regions : List Region} (hfirst : first < n) :
    regionsFrom n (some first) (inner ++ last :: rest) =
        ⟨first, n + inner.length⟩ :: regions ↔
      (∀ line ∈ inner, Unmarked line) ∧ closes last = true ∧
        regionsFrom (n + inner.length + 1) none rest = regions := by
  induction inner generalizing n with
  | nil =>
    -- what is found further on ends further on
    have hlater : ∀ opened, regionsFrom (n + 1) opened rest ≠ ⟨first, n⟩ :: regions :=
      fun _ heq => Nat.not_succ_le_self n
        (last_of_mem_regionsFrom (heq ▸ List.mem_cons_self)).1
    rcases marker_cases last with hopens | hcloses | hunmarked
    · simp [regionsFrom_opens hopens, closes_of_opens hopens, hlater]
    · simp [regionsFrom_closes hcloses, hcloses]
    · simp [regionsFrom_unmarked hunmarked, hunmarked.2, hlater]
  | cons line inner ih =>
    have hnext : n + (line :: inner).length = n + 1 + inner.length := by
      rw [List.length_cons]
      omega
    rw [List.cons_append, List.forall_mem_cons, hnext]
    rcases marker_cases line with hopens | hcloses | hunmarked
    · -- and it begins at the line that opens anew, or after it
      have hanew : regionsFrom (n + 1) (some n) (inner ++ last :: rest) ≠
          ⟨first, n + 1 + inner.length⟩ :: regions := fun heq => by
        have hbegin := first_of_mem_regionsFrom (Nat.le_succ n) (by simp)
          (heq ▸ List.mem_cons_self)
        exact absurd hfirst (Nat.not_lt.mpr hbegin)
      simp [regionsFrom_opens hopens, hanew, Unmarked, hopens]
    · have hlength : n ≠ n + 1 + inner.length := by omega
      simp [regionsFrom_closes hcloses, hlength, Unmarked, hcloses]
    · rw [regionsFrom_unmarked hunmarked, ih (Nat.lt_succ_of_lt hfirst)]
      simp [hunmarked]

end Scan

/-! ## Where the markers are -/

/-- The number of the line that what follows a text is in. -/
def lineAfter (s : String) : Nat := lineFeeds s + 1

/-- What is between the opening and the closing marker of a conflict. -/
def insideOf (a l r : List String) : String :=
  joinLines l ++ (ancestorMarker ++ (joinLines a ++ (rightMarker ++ joinLines r)))

/-- The lines from the opening to the closing marker of each conflict, when the blocks
are written after a text. -/
def markedFrom (before : String) : List (Block String) → List Region
  | [] => []
  | .settled ls :: bs => markedFrom (before ++ joinLines ls) bs
  | .conflict a l r :: bs =>
    ⟨lineAfter before, lineAfter (before ++ (openingMarker ++ insideOf a l r))⟩ ::
      markedFrom (before ++ (Block.conflict a l r).render) bs

theorem render_conflict (a l r : List String) :
    (Block.conflict a l r).render =
      openingMarker ++ (insideOf a l r ++ closingMarker) := by
  simp [Block.render, insideOf, String.append_assoc]

/-! ## A merge as lines -/

/-- The blocks of a merge as text: a block with another one after it is over with its
last line, unless all that comes after it is empty. -/
def Aligned : List (Block String) → Prop
  | [] => True
  | b :: bs => (Ended b.render ∨ ∀ c ∈ bs, c = .settled []) ∧ Aligned bs

theorem ended_render_conflict (a l r : List String) :
    Ended (Block.conflict a l r).render := by
  rw [render_conflict, ← String.append_assoc]
  exact Text.ended_append _ (by decide +kernel)

theorem render_of_empty {bs : List (Block String)} (h : ∀ b ∈ bs, b = .settled []) :
    render bs = "" := by
  induction bs with
  | nil => rfl
  | cons b bs ih =>
    obtain ⟨hb, hbs⟩ := List.forall_mem_cons.mp h
    rw [render_cons, ih hbs, hb]
    rfl

theorem lines_render {bs : List (Block String)} (h : Aligned bs) :
    lines (render bs) = bs.flatMap fun b => lines b.render := by
  induction bs with
  | nil => rfl
  | cons b bs ih =>
    rw [render_cons, List.flatMap_cons, ← ih h.2]
    rcases h.1 with hended | hempty
    · exact Text.lines_append hended _
    · simp [render_of_empty hempty]

/-- A conflict as lines: the opening marker, and what ends in the closing marker. -/
theorem lines_render_conflict (a l r : List String) :
    lines (Block.conflict a l r).render =
      openingMarker :: lines (insideOf a l r ++ closingMarker) := by
  have hended : Ended openingMarker := by decide +kernel
  have hline : lines openingMarker = [openingMarker] := by decide +kernel
  rw [render_conflict, Text.lines_append hended, hline]
  rfl

/-- The lines of a conflict after its opening marker: the closing marker is in the last
of them, and that is as many lines further on as there are line feeds in between. -/
theorem lines_insideOf_closing (a l r : List String) :
    ∃ inner last, lines (insideOf a l r ++ closingMarker) = inner ++ [last] ∧
      inner.length = lineFeeds (insideOf a l r) := by
  have hended : Ended (insideOf a l r ++ closingMarker) :=
    Text.ended_append _ (by decide +kernel)
  have hlength := Text.length_lines hended
  have hmarker : lineFeeds closingMarker = 1 := by decide +kernel
  rw [Text.lineFeeds_append, hmarker] at hlength
  have hne : lines (insideOf a l r ++ closingMarker) ≠ [] :=
    List.ne_nil_of_length_eq_add_one hlength
  refine ⟨_, _, (List.dropLast_concat_getLast hne).symm, ?_⟩
  rw [List.length_dropLast, hlength, Nat.add_sub_cancel]

/-- **The blocks of a merge** of texts are lines one after the other: every opening
marker begins a line, whatever the texts end in. -/
theorem Parted.aligned {a l r : List String} {bs : List (Block String)}
    (h : Parted a l r bs) (hl : Broken l) (hr : Broken r) : Aligned bs := by
  have hone : ∀ b : Block String, Aligned [b] := fun _ => ⟨.inr (by simp), trivial⟩
  induction h with
  | last s =>
    rcases close_cases s with hclose | hclose | hclose | ⟨hclose, -⟩ <;> rw [hclose]
    · trivial
    all_goals exact hone _
  | @kept s ls a l r bs hlines h ih =>
    obtain ⟨hsl, hkl, hendl⟩ := hl.of_append
    obtain ⟨hsr, hkr, hendr⟩ := hr.of_append
    obtain ⟨-, hl, hkeptl⟩ := hkl.of_append
    obtain ⟨-, hr, hkeptr⟩ := hkr.of_append
    have hkept : Aligned (.settled ls :: bs) := by
      refine ⟨?_, ih hl hr⟩
      by_cases hlne : l = []
      · by_cases hrne : r = []
        · exact .inr (h.settled_nil hlne hrne)
        · exact .inl (hkeptr hrne)
      · exact .inl (hkeptl hlne)
    have hmore : ∀ more : List String, ls ++ more ≠ [] := by simp [hlines]
    rcases close_cases s with hclose | hclose | hclose | ⟨hclose, -⟩ <;> rw [hclose]
    · exact hkept
    · exact ⟨.inl (hendl (hmore l)), hkept⟩
    · exact ⟨.inl (hendr (hmore r)), hkept⟩
    · exact ⟨.inl (ended_render_conflict _ _ _), hkept⟩

/-! ## What is found, and what is there -/

/-- The closing marker of a conflict is in a line that closes, and none of the lines
between it and the opening marker is taken for a marker. -/
def OnlyCloses (a l r : List String) : Prop :=
  (∀ line ∈ (lines (insideOf a l r ++ closingMarker)).dropLast, Unmarked line) ∧
    ∀ line ∈ (lines (insideOf a l r ++ closingMarker)).getLast?, closes line = true

/-- The blocks of a merge, after lines without a conflict: outside of conflicts no line
that opens is before one that closes, and conflicts close with their own markers
only. -/
def Legible (since : List String) : List (Block String) → Prop
  | [] => Quiet since
  | .settled ls :: bs => Legible (since ++ lines (joinLines ls)) bs
  | .conflict a l r :: bs => Quiet since ∧ OnlyCloses a l r ∧ Legible [] bs

theorem lineAfter_append (s t : String) :
    lineAfter (s ++ t) = lineAfter s + lineFeeds t := by
  rw [lineAfter, lineAfter, Text.lineFeeds_append]
  omega

/-- In the lines from an opening marker on, its own conflict is found and then those of
the blocks after it, if and only if it closes with its own marker only. -/
theorem regionsFrom_conflict_iff {a l r rest : List String} {since : List String}
    {n : Nat} {before : String} {regions : List Region}
    (hn : n + since.length = lineAfter before) :
    regionsFrom n none (since ++ (lines (Block.conflict a l r).render ++ rest)) =
        ⟨lineAfter before, lineAfter (before ++ (openingMarker ++ insideOf a l r))⟩ ::
          regions ↔
      Quiet since ∧ OnlyCloses a l r ∧
        regionsFrom (lineAfter (before ++ (Block.conflict a l r).render)) none rest =
          regions := by
  have hopening : lineFeeds openingMarker = 1 := by decide +kernel
  have hclosing : lineFeeds closingMarker = 1 := by decide +kernel
  obtain ⟨inner, last, hinside, hlength⟩ := lines_insideOf_closing a l r
  have hlast : lineAfter (before ++ (openingMarker ++ insideOf a l r)) =
      n + since.length + 1 + inner.length := by
    rw [lineAfter_append, Text.lineFeeds_append, hopening, hlength, hn]
    omega
  have hnext : lineAfter (before ++ (Block.conflict a l r).render) =
      n + since.length + 1 + inner.length + 1 := by
    rw [render_conflict, lineAfter_append, Text.lineFeeds_append, Text.lineFeeds_append,
      hopening, hclosing, hlength, hn]
    omega
  have honly : OnlyCloses a l r ↔
      (∀ line ∈ inner, Unmarked line) ∧ closes last = true := by
    simp [OnlyCloses, hinside]
  rw [lines_render_conflict, hinside, List.cons_append, List.append_assoc,
    List.singleton_append, regionsFrom_append_opens (by decide +kernel), hlast, hnext,
    ← hn, honly, and_assoc, ← regionsFrom_none_eq_nil_iff (n := n),
    ← regionsFrom_closing_iff (Nat.lt_succ_self _)]
  -- what is found before the opening marker ends before it
  cases hfound : regionsFrom n none since with
  | nil => simp
  | cons region found =>
    have hends := (last_of_mem_regionsFrom (hfound ▸ List.mem_cons_self)).2
    have hne : region ≠ ⟨n + since.length, n + since.length + 1 + inner.length⟩ := by
      rintro rfl
      simp only at hends
      omega
    simp [hne]

theorem regionsFrom_iff {bs : List (Block String)} (hbs : Aligned bs)
    (since : List String) (n : Nat) (before : String)
    (hn : (∀ b ∈ bs, b = .settled []) ∨ n + since.length = lineAfter before) :
    regionsFrom n none (since ++ bs.flatMap fun b => lines b.render) =
        markedFrom before bs ↔
      Legible since bs := by
  induction bs generalizing since n before with
  | nil => simp [markedFrom, Legible, regionsFrom_none_eq_nil_iff]
  | cons b bs ih =>
    cases b with
    | settled ls =>
      rw [List.flatMap_cons, markedFrom, Legible, ← List.append_assoc]
      refine ih hbs.2 _ _ _ ?_
      have hnext : ∀ hended : Ended (joinLines ls), n + since.length = lineAfter before →
          n + (since ++ lines (joinLines ls)).length =
            lineAfter (before ++ joinLines ls) := by
        intro hended hstart
        rw [List.length_append, Text.length_lines hended, lineAfter_append]
        omega
      rcases hn with hempty | hstart
      · exact .inl (List.forall_mem_cons.mp hempty).2
      · exact hbs.1.symm.imp_right (hnext · hstart)
    | conflict a l r =>
      have hstart : n + since.length = lineAfter before :=
        hn.resolve_left fun h => by simpa using h _ List.mem_cons_self
      rw [List.flatMap_cons, markedFrom, Legible, regionsFrom_conflict_iff hstart]
      have hlater : ∀ start : String,
          regionsFrom (lineAfter start) none (bs.flatMap fun b => lines b.render) =
            markedFrom start bs ↔ Legible [] bs :=
        fun start => ih hbs.2 [] _ start (.inr (Nat.add_zero _))
      rw [hlater]

/-! ## Texts without markers -/

theorem unmarked_append_of_broken {ls : List String} (h : Broken ls) {more : String}
    (hls : ∀ line ∈ ls, Unmarked line) (hmore : ∀ line ∈ lines more, Unmarked line)
    (hfirst : ∀ c ∈ more.toList.head?, c ≠ '<' ∧ c ≠ '>') :
    ∀ line ∈ lines (joinLines ls ++ more), Unmarked line := by
  induction h with
  | nil => simpa using hmore
  | @unended line hne hline =>
    have hhead : ∀ c ∈ ((lines more).headD "").toList.head?, c ≠ '<' ∧ c ≠ '>' := by
      intro c hc
      refine hfirst c ?_
      have hjoin := Text.join_lines more
      cases hlines : lines more with
      | nil => simp [hlines] at hc
      | cons first rest =>
        simp only [hlines, List.headD_cons, Option.mem_def] at hc
        rw [← hjoin, hlines]
        simp [hc]
    have hlast := hls line List.mem_cons_self
    rw [Text.joinLines_cons, Text.joinLines_nil, String.append_empty,
      Text.lines_unended_append hne hline, List.forall_mem_cons]
    refine ⟨⟨?_, ?_⟩, fun line h => hmore line (List.mem_of_mem_tail h)⟩
    · exact Text.startsWith_append hlast.1 fun c hc => by simp [(hhead c hc).1]
    · exact Text.startsWith_append hlast.2 fun c hc => by simp [(hhead c hc).2]
  | line hfront _ ih =>
    obtain ⟨hfirst, hrest⟩ := List.forall_mem_cons.mp hls
    rw [Text.joinLines_cons, String.append_assoc, Text.lines_line hfront,
      List.forall_mem_cons]
    exact ⟨hfirst, ih hrest⟩

/-- Text in which no line is taken for a marker has none when a text follows of which the
same is true, and that does not complete a marker. -/
theorem unmarked_append {s more : String} (hs : ∀ line ∈ lines s, Unmarked line)
    (hmore : ∀ line ∈ lines more, Unmarked line)
    (hfirst : ∀ c ∈ more.toList.head?, c ≠ '<' ∧ c ≠ '>') :
    ∀ line ∈ lines (s ++ more), Unmarked line := by
  have hall := unmarked_append_of_broken (Text.broken_lines s) hs hmore hfirst
  rwa [Text.join_lines] at hall

/-- A block in whose texts no line is taken for a marker, and with a right side, if it
is a conflict, that is over with its last line. -/
def Block.Plain : Block String → Prop
  | settled ls => ∀ line ∈ lines (joinLines ls), Unmarked line
  | conflict a l r =>
    (∀ part ∈ [a, l, r], ∀ line ∈ lines (joinLines part), Unmarked line) ∧
      Ended (joinLines r)

theorem Block.Within.plain {a l r : String} {b : Block String}
    (h : b.Within (lines a) (lines l) (lines r))
    (hplain : ∀ text ∈ [a, l, r], ∀ line ∈ lines text, Unmarked line)
    (hended : Ended r) : b.Plain := by
  have hpart : ∀ {text : String} {ls : List String}, text ∈ [a, l, r] →
      ls <:+: lines text → ∀ line ∈ lines (joinLines ls), Unmarked line := by
    intro text ls htext hin line hline
    rw [((Text.broken_lines text).part hin).lines_joinLines] at hline
    exact hplain text htext line (hin.subset hline)
  cases b with
  | settled ls =>
    rcases h with h | h
    · exact hpart (by simp) h
    · exact hpart (by simp) h
  | conflict ancestor left right =>
    obtain ⟨ha, hl, hr⟩ := h
    refine ⟨?_, (Text.broken_lines r).ended_part hr (by rwa [Text.join_lines])⟩
    simp only [List.forall_mem_cons, List.not_mem_nil, false_implies, implies_true,
      and_true]
    exact ⟨hpart (by simp) ha, hpart (by simp) hl, hpart (by simp) hr⟩

/-- A part of a conflict, with one of the markers between the parts after it. -/
theorem unmarked_part {marker : String} (hmarker : marker ∈ [ancestorMarker, rightMarker])
    {part more : String} (hpart : ∀ line ∈ lines part, Unmarked line)
    (hmore : ∀ line ∈ lines more, Unmarked line) :
    ∀ line ∈ lines (part ++ (marker ++ more)), Unmarked line := by
  have hmarkers : ∀ marker ∈ [ancestorMarker, rightMarker],
      lines marker = [marker] ∧ Ended marker ∧ opens marker = false ∧
        closes marker = false ∧
        (marker.toList.head? = some '|' ∨ marker.toList.head? = some '=') := by
    decide +kernel
  obtain ⟨hline, hended, hopens, hcloses, hhead⟩ := hmarkers marker hmarker
  refine unmarked_append hpart ?_ ?_
  · rw [Text.lines_append hended, hline]
    exact List.forall_mem_cons.mpr ⟨⟨hopens, hcloses⟩, hmore⟩
  · intro c hc
    rw [String.toList_append, List.head?_append] at hc
    rcases hhead with hhead | hhead <;>
      · rw [hhead, Option.some_or, Option.mem_some_iff] at hc
        subst hc
        decide

theorem onlyCloses_of_plain {a l r : List String} (h : (Block.conflict a l r).Plain) :
    OnlyCloses a l r := by
  obtain ⟨hparts, hended⟩ := h
  have hinside : ∀ line ∈ lines (insideOf a l r), Unmarked line :=
    unmarked_part (by simp) (hparts l (by simp))
      (unmarked_part (by simp) (hparts a (by simp)) (hparts r (by simp)))
  have hover : Ended (insideOf a l r) := by
    have hlast := (Text.ended_append (joinLines l ++ ancestorMarker ++ joinLines a)
      (t := rightMarker) (by decide +kernel)).append hended
    simpa only [insideOf, String.append_assoc] using hlast
  have hclosing : lines closingMarker = [closingMarker] := by decide +kernel
  have hbody : lines (insideOf a l r ++ closingMarker) =
      lines (insideOf a l r) ++ [closingMarker] := by
    rw [Text.lines_append hover, hclosing]
  refine ⟨?_, ?_⟩
  · rwa [hbody, List.dropLast_concat]
  · rw [hbody, List.getLast?_concat]
    simp only [Option.mem_some_iff, forall_eq']
    decide +kernel

theorem legible_of_plain {bs : List (Block String)} (h : ∀ b ∈ bs, b.Plain)
    {since : List String} (hsince : ∀ line ∈ since, Unmarked line) :
    Legible since bs := by
  induction bs generalizing since with
  | nil => exact quiet_of_unmarked hsince
  | cons b bs ih =>
    obtain ⟨hb, hbs⟩ := List.forall_mem_cons.mp h
    cases b with
    | settled ls => exact ih hbs (List.forall_mem_append.mpr ⟨hsince, hb⟩)
    | conflict a l r =>
      exact ⟨quiet_of_unmarked hsince, onlyCloses_of_plain hb, ih hbs (by simp)⟩

/-! ## The conflicts that a merge reports -/

/-- A merge reports the conflicts that it wrote: it says that there are some exactly if
it lists some, and it lists the lines from the opening to the closing marker of
each. -/
structure Merged.Reports (merged : Merged) (bs : List (Block String)) : Prop where
  flagged : merged.hasConflicts = true ↔ merged.conflicts ≠ []
  regions : merged.conflicts = markedFrom "" bs

theorem markedFrom_eq_nil_iff {bs : List (Block String)} {before : String} :
    markedFrom before bs = [] ↔ ¬ ∃ b ∈ bs, b.isConflict = true := by
  induction bs generalizing before with
  | nil => simp [markedFrom]
  | cons b bs ih => cases b <;> simp_all [markedFrom, Block.isConflict]

/-- The blocks that a merge of texts writes. -/
def written (ancestor left right : String) : List (Block String) :=
  blocks (lines ancestor) (lines left) (lines right)

theorem aligned_written (ancestor left right : String) :
    Aligned (written ancestor left right) :=
  (blocks_parted _ _ _).aligned (Text.broken_lines left) (Text.broken_lines right)

/-- What a merge finds in its own text are its conflicts if and only if its blocks are
legible. -/
theorem conflictRegions_iff (ancestor left right : String) :
    conflictRegions (render (written ancestor left right)) =
        markedFrom "" (written ancestor left right) ↔
      Legible [] (written ancestor left right) := by
  have haligned := aligned_written ancestor left right
  rw [conflictRegions, lines_render haligned,
    ← regionsFrom_iff haligned [] 1 "" (.inr rfl), List.nil_append]

/-- A merge in which nothing is a conflict. -/
theorem ofTexts_of_settled {ancestor left right : String}
    (h : ¬ ∃ b ∈ written ancestor left right, b.isConflict = true) :
    ofTexts ancestor left right = .clean (render (written ancestor left right)) := by
  rw [← List.any_eq_true] at h
  rw [ofTexts_eq_full, full]
  exact if_neg h

/-- A merge with a conflict. -/
theorem ofTexts_of_conflict {ancestor left right : String}
    (h : ∃ b ∈ written ancestor left right, b.isConflict = true) :
    ofTexts ancestor left right =
      ⟨render (written ancestor left right), true,
        conflictRegions (render (written ancestor left right))⟩ := by
  rw [← List.any_eq_true] at h
  rw [ofTexts_eq_full, full]
  exact if_pos h

theorem reports_of_settled {ancestor left right : String}
    (h : ¬ ∃ b ∈ written ancestor left right, b.isConflict = true) :
    (ofTexts ancestor left right).Reports (written ancestor left right) := by
  rw [ofTexts_of_settled h]
  exact ⟨by simp [Merged.clean], (markedFrom_eq_nil_iff.mpr h).symm⟩

theorem reports_of_conflict_iff {ancestor left right : String}
    (h : ∃ b ∈ written ancestor left right, b.isConflict = true) :
    (ofTexts ancestor left right).Reports (written ancestor left right) ↔
      Legible [] (written ancestor left right) := by
  rw [ofTexts_of_conflict h, ← conflictRegions_iff]
  refine ⟨fun hreports => hreports.regions, fun hregions => ⟨?_, hregions⟩⟩
  have hne : markedFrom "" (written ancestor left right) ≠ [] :=
    fun hnil => markedFrom_eq_nil_iff.mp hnil h
  simpa [hregions] using hne

/-- **The conflicts that a merge reports.** A merge writes its blocks, and says that there
are conflicts exactly if one of them is a conflict. The regions that it lists are
those of its conflicts if and only if there are none, or the blocks are legible. They
are legible for texts without a line that begins like an opening or a closing
marker, as long as the right one is over with its last line. -/
theorem reports_conflicts_iff (ancestor left right : String) :
    (ofTexts ancestor left right).content = render (written ancestor left right) ∧
      ((ofTexts ancestor left right).hasConflicts = true ↔
        ∃ b ∈ written ancestor left right, b.isConflict = true) ∧
      ((ofTexts ancestor left right).Reports (written ancestor left right) ↔
        ((∃ b ∈ written ancestor left right, b.isConflict = true) →
          Legible [] (written ancestor left right))) ∧
      ((∀ text ∈ [ancestor, left, right], ∀ line ∈ lines text, Unmarked line) →
        Ended right →
          (ofTexts ancestor left right).Reports (written ancestor left right)) := by
  have hlegible : (∀ text ∈ [ancestor, left, right], ∀ line ∈ lines text, Unmarked line) →
      Ended right → Legible [] (written ancestor left right) := fun hplain hended =>
    legible_of_plain
      (fun b hb => ((blocks_parted _ _ _).within b hb).plain hplain hended) (by simp)
  by_cases hconflict : ∃ b ∈ written ancestor left right, b.isConflict = true
  · have hiff := reports_of_conflict_iff hconflict
    refine ⟨?_, ?_, ?_, fun hplain hended => hiff.mpr (hlegible hplain hended)⟩
    · rw [ofTexts_of_conflict hconflict]
    · rw [ofTexts_of_conflict hconflict]
      exact iff_of_true rfl hconflict
    · rw [hiff]
      exact ⟨fun h _ => h, fun h => h hconflict⟩
  · have hreports := reports_of_settled hconflict
    refine ⟨?_, ?_, iff_of_true hreports fun h => absurd h hconflict, fun _ _ => hreports⟩
    · rw [ofTexts_of_settled hconflict]
      rfl
    · rw [ofTexts_of_settled hconflict]
      exact iff_of_false (by simp [Merged.clean]) hconflict

/-- Two sides that changed the same line, both over with their last line. -/
theorem reports_conflict_of_a_line :
    (∀ text ∈ ["a\n", "b\n", "c\n"], ∀ line ∈ lines text, Unmarked line) ∧
      Ended "c\n" ∧ (ofTexts "a\n" "b\n" "c\n").Reports (written "a\n" "b\n" "c\n") ∧
      (ofTexts "a\n" "b\n" "c\n").hasConflicts = true := by
  have hplain : ∀ text ∈ ["a\n", "b\n", "c\n"], ∀ line ∈ lines text, Unmarked line := by
    decide +kernel
  have hended : Ended "c\n" := by decide +kernel
  refine ⟨hplain, hended,
    (reports_conflicts_iff "a\n" "b\n" "c\n").2.2.2 hplain hended, ?_⟩
  decide +kernel

/-- Where the right side has no line feed at its end, its conflict is written and not
listed. -/
theorem conflict_not_listed :
    (ofTexts "a\n" "b\n" "c").content =
        "<<<<<<< ours\nb\n||||||| original\na\n=======\nc>>>>>>> theirs\n" ∧
      (ofTexts "a\n" "b\n" "c").hasConflicts = true ∧
      (ofTexts "a\n" "b\n" "c").conflicts = [] ∧
      markedFrom "" (written "a\n" "b\n" "c") = [⟨1, 6⟩] ∧
      ¬ (ofTexts "a\n" "b\n" "c").Reports (written "a\n" "b\n" "c") := by
  have hmerged : ofTexts "a\n" "b\n" "c" =
      ⟨"<<<<<<< ours\nb\n||||||| original\na\n=======\nc>>>>>>> theirs\n", true, []⟩ := by
    decide +kernel
  rw [hmerged]
  refine ⟨rfl, rfl, rfl, by decide +kernel, fun h => ?_⟩
  exact h.flagged.mp rfl rfl

end Reconcile.Merge
