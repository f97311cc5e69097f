/-
Reconcile.Proofs.Model.TypeNames — the type that is shown for a file.

`TypeOf` says what the type of a file of a given name is. The name of an element
that was read from a file is the whole path of the file, and its type is the one
that this path has when it is taken for a name (`typeOf_typeName`). That is the type
of the file itself unless the directories before it have a part in it, which happens
in two ways: a name that begins with its only dot has something standing before that
dot, and in a name without a dot the last dot of the directories is found
(`typeOf_iff_not_takenFromPath`). Only in the second case there is a slash in the type
(`slash_mem_typeName_iff`).
-/
import Reconcile.Proofs.Model.Loading

namespace Reconcile

/-! ## The last occurrence of a character -/

section SplitAtLast

variable {c : Char} {cs after : List Char}

theorem splitAtLast?_eq_none_iff : splitAtLast? c cs = none ↔ c ∉ cs := by
  induction cs with
  | nil => simp [splitAtLast?]
  | cons x rest ih =>
    rw [splitAtLast?]
    cases hrest : splitAtLast? c rest with
    | none =>
      have hnot : c ∉ rest := ih.mp hrest
      by_cases hx : x = c
      · simp [hx]
      · simp [hx, hnot, Ne.symm hx]
    | some parts =>
      have hmem : ¬ c ∉ rest := fun hnot => by simp [ih.mpr hnot] at hrest
      simp [Classical.not_not.mp hmem]

theorem splitAtLast?_eq_some {before : List Char}
    (h : splitAtLast? c cs = some (before, after)) :
    cs = before ++ c :: after ∧ c ∉ after := by
  induction cs generalizing before with
  | nil => simp [splitAtLast?] at h
  | cons x rest ih =>
    rw [splitAtLast?] at h
    cases hrest : splitAtLast? c rest with
    | none =>
      simp only [hrest, Option.ite_none_right_eq_some, Option.some.injEq,
        Prod.mk.injEq] at h
      obtain ⟨rfl, rfl, rfl⟩ := h
      exact ⟨rfl, splitAtLast?_eq_none_iff.mp hrest⟩
    | some parts =>
      simp only [hrest, Option.some.injEq, Prod.mk.injEq] at h
      obtain ⟨rfl, rfl⟩ := h
      obtain ⟨hsplit, hnot⟩ := ih hrest
      exact ⟨congrArg (x :: ·) hsplit, hnot⟩

theorem splitAtLast?_append_cons (before : List Char) (h : c ∉ after) :
    splitAtLast? c (before ++ c :: after) = some (before, after) := by
  induction before with
  | nil => simp [splitAtLast?, splitAtLast?_eq_none_iff.mpr h]
  | cons x rest ih => simp [splitAtLast?, ih]

end SplitAtLast

/-! ## The type of a name -/

/-- The type of a file of a given name: what follows the last dot, provided that
something stands on both sides of that dot. -/
inductive TypeOf (name : List Char) : String → Prop where
  | extension {stem ext : List Char} (dot : name = stem ++ '.' :: ext)
      (last : '.' ∉ ext) (hstem : stem ≠ []) (hext : ext ≠ []) :
      TypeOf name (String.ofList ext)
  | unknown (h : ∀ stem ext, name = stem ++ '.' :: ext → '.' ∉ ext →
      stem = [] ∨ ext = []) : TypeOf name Element.unknownType

section TypeOf

variable {name stem ext : List Char} {type : String} {e : Element}

theorem Element.typeName_of_dot (h : e.name.toList = stem ++ '.' :: ext)
    (hlast : '.' ∉ ext) :
    e.typeName =
      if stem ≠ [] ∧ ext ≠ [] then String.ofList ext else unknownType := by
  rw [typeName, h, splitAtLast?_append_cons stem hlast]
  cases stem with
  | nil => simp
  | cons _ _ => cases ext <;> simp

theorem Element.typeName_of_no_dot (h : '.' ∉ e.name.toList) :
    e.typeName = unknownType := by
  rw [typeName, splitAtLast?_eq_none_iff.mpr h]

theorem exists_last_dot (h : '.' ∈ name) :
    ∃ stem ext, name = stem ++ '.' :: ext ∧ '.' ∉ ext := by
  cases hsplit : splitAtLast? '.' name with
  | none => exact absurd h (splitAtLast?_eq_none_iff.mp hsplit)
  | some parts => exact ⟨_, _, splitAtLast?_eq_some hsplit⟩

/-- There is only one last dot. -/
theorem last_dot_unique {stem' ext' : List Char} (hdot : name = stem ++ '.' :: ext)
    (hlast : '.' ∉ ext) (hdot' : name = stem' ++ '.' :: ext') (hlast' : '.' ∉ ext') :
    stem' = stem ∧ ext' = ext := by
  have hsame := splitAtLast?_append_cons stem' hlast'
  rw [← hdot', hdot, splitAtLast?_append_cons stem hlast] at hsame
  simpa [eq_comm] using hsame

theorem typeOf_iff_of_no_dot (h : '.' ∉ name) :
    TypeOf name type ↔ type = Element.unknownType := by
  constructor
  · rintro (⟨rfl, -, -, -⟩ | -)
    · simp at h
    · rfl
  · rintro rfl
    refine .unknown fun stem ext hdot => ?_
    simp [hdot] at h

theorem typeOf_iff_of_dot (hdot : name = stem ++ '.' :: ext) (hlast : '.' ∉ ext) :
    TypeOf name type ↔
      type = if stem ≠ [] ∧ ext ≠ [] then String.ofList ext
        else Element.unknownType := by
  constructor
  · rintro (@⟨stem', ext', hdot', hlast', hstem, hext⟩ | hunknown)
    · obtain ⟨rfl, rfl⟩ := last_dot_unique hdot hlast hdot' hlast'
      rw [if_pos ⟨hstem, hext⟩]
    · rw [if_neg]
      rintro ⟨hstem, hext⟩
      exact (hunknown stem ext hdot hlast).elim hstem hext
  · rintro rfl
    split
    · rename_i h
      exact .extension hdot hlast h.1 h.2
    · rename_i h
      refine .unknown fun stem' ext' hdot' hlast' => ?_
      obtain ⟨rfl, rfl⟩ := last_dot_unique hdot hlast hdot' hlast'
      simpa only [Decidable.not_and_iff_or_not, ne_eq, Classical.not_not] using h

/-- **The type of an element is that of its name.** -/
theorem typeOf_typeName (e : Element) : TypeOf e.name.toList type ↔ type = e.typeName := by
  by_cases h : '.' ∈ e.name.toList
  · obtain ⟨stem, ext, hdot, hlast⟩ := exists_last_dot h
    rw [typeOf_iff_of_dot hdot hlast, Element.typeName_of_dot hdot hlast]
  · rw [typeOf_iff_of_no_dot h, Element.typeName_of_no_dot h]

end TypeOf

/-! ## Names and directories -/

/-- A path as the directories that it leads through, with the slash behind them, and
the name at its end. -/
def Disk.cutPath (path : String) : List Char × List Char :=
  match splitAtLast? '/' path.toList with
  | some (above, name) => (above ++ ['/'], name)
  | none => ([], path.toList)

section CutPath

variable {path : String} {e : Element}

theorem Disk.cutPath_spec (path : String) :
    path.toList = (cutPath path).1 ++ (cutPath path).2 ∧ '/' ∉ (cutPath path).2 ∧
      ((cutPath path).1 = [] ∨ ∃ above, (cutPath path).1 = above ++ ['/']) := by
  rw [cutPath]
  cases hsplit : splitAtLast? '/' path.toList with
  | none => exact ⟨rfl, splitAtLast?_eq_none_iff.mp hsplit, .inl rfl⟩
  | some parts =>
    obtain ⟨hpath, hnot⟩ := splitAtLast?_eq_some hsplit
    exact ⟨by simp [hpath], hnot, .inr ⟨_, rfl⟩⟩

theorem splitOn_of_notMem {c : Char} {cs : List Char} (h : c ∉ cs) :
    cs.splitOn c = [cs] := by
  refine List.splitOnP_eq_singleton fun x hx => beq_eq_false_iff_ne.mpr ?_
  rintro rfl
  exact h hx

/-- The name at the end of a path is the last one that a disk looks up. -/
theorem Disk.getLast?_names (path : String) :
    (names path).getLast? = some (String.ofList (cutPath path).2) := by
  rw [names, List.getLast?_map, cutPath]
  cases hsplit : splitAtLast? '/' path.toList with
  | none =>
    rw [splitOn_of_notMem (splitAtLast?_eq_none_iff.mp hsplit)]
    rfl
  | some parts =>
    obtain ⟨above, name⟩ := parts
    obtain ⟨hpath, hnot⟩ := splitAtLast?_eq_some hsplit
    have hlast : path.toList.splitOn '/' = above.splitOn '/' ++ [name] := by
      rw [hpath, ← splitOn_of_notMem hnot]
      exact List.splitOnP_append_cons above name (by simp)
    rw [hlast]
    simp

/-- The directories have a part in the type of a path: the name begins with its only
dot, and so only the directories stand before it, or the last dot is in the directories
and something stands before that. -/
inductive TakenFromPath (path : String) : Prop where
  | hidden {ext : List Char} (dot : (Disk.cutPath path).2 = '.' :: ext)
      (last : '.' ∉ ext) (hext : ext ≠ [])
      (known : String.ofList ext ≠ Element.unknownType)
      (below : (Disk.cutPath path).1 ≠ [])
  | above (no_dot : '.' ∉ (Disk.cutPath path).2)
      (dot : '.' ∈ (Disk.cutPath path).1.tail)

/-- A name without a dot takes its type from the directories, with the slash behind
the dot, or has none. -/
theorem typeName_of_name_without_dot (he : e.name = path)
    (hname : '.' ∉ (Disk.cutPath path).2) :
    ('.' ∈ (Disk.cutPath path).1.tail → '/' ∈ e.typeName.toList) ∧
      ('.' ∉ (Disk.cutPath path).1.tail → e.typeName = Element.unknownType) := by
  obtain ⟨hpath, -, hslash⟩ := Disk.cutPath_spec path
  generalize (Disk.cutPath path).1 = dirs, (Disk.cutPath path).2 = name at *
  by_cases hdirs : '.' ∈ dirs
  · obtain ⟨stem, ext, rfl, hlast⟩ := exists_last_dot hdirs
    have hext : '/' ∈ ext := by
      obtain hnone | ⟨above, habove⟩ := hslash
      · simp at hnone
      · have hend := congrArg List.getLast? habove
        rw [List.getLast?_concat] at hend
        cases ext with
        | nil => simp at hend
        | cons x rest =>
          refine List.mem_of_getLast? ?_
          simpa [List.getLast?_append, List.getLast?_cons_cons] using hend
    have hdot : e.name.toList = stem ++ '.' :: (ext ++ name) := by
      rw [he, hpath, List.append_assoc, List.cons_append]
    rw [Element.typeName_of_dot hdot (by simp [hlast, hname])]
    cases stem with
    | nil => simp [hlast]
    | cons x rest => simp [List.ne_nil_of_mem hext, hext]
  · have hnot : '.' ∉ e.name.toList := by simp [he, hpath, hdirs, hname]
    exact ⟨fun h => absurd (List.mem_of_mem_tail h) hdirs,
      fun _ => Element.typeName_of_no_dot hnot⟩

theorem takenFromPath_iff_of_dot {stem ext : List Char}
    (hdot : (Disk.cutPath path).2 = stem ++ '.' :: ext) (hlast : '.' ∉ ext) :
    TakenFromPath path ↔ stem = [] ∧ (Disk.cutPath path).1 ≠ [] ∧ ext ≠ [] ∧
      String.ofList ext ≠ Element.unknownType := by
  constructor
  · rintro (⟨hdot', hlast', hext, hknown, hbelow⟩ | ⟨hnone, -⟩)
    · obtain ⟨rfl, rfl⟩ := last_dot_unique hdot hlast
        (show _ = [] ++ '.' :: _ from hdot') hlast'
      exact ⟨rfl, hbelow, hext, hknown⟩
    · simp [hdot] at hnone
  · rintro ⟨rfl, hbelow, hext, hknown⟩
    exact .hidden hdot hlast hext hknown hbelow

/-- **The type that is shown for a file is that of its name** unless the directories
have a part in it. -/
theorem typeOf_iff_not_takenFromPath (he : e.name = path) :
    TypeOf (Disk.cutPath path).2 e.typeName ↔ ¬ TakenFromPath path := by
  by_cases hname : '.' ∈ (Disk.cutPath path).2
  · obtain ⟨stem, ext, hdot, hlast⟩ := exists_last_dot hname
    have hwhole : e.name.toList = ((Disk.cutPath path).1 ++ stem) ++ '.' :: ext := by
      rw [he, (Disk.cutPath_spec path).1, hdot, List.append_assoc]
    rw [typeOf_iff_of_dot hdot hlast, Element.typeName_of_dot hwhole hlast,
      takenFromPath_iff_of_dot hdot hlast]
    by_cases hstem : stem = [] <;> by_cases hbelow : (Disk.cutPath path).1 = [] <;>
      by_cases hext : ext = [] <;> simp [hstem, hbelow, hext]
  · obtain ⟨hslash, hnone⟩ := typeName_of_name_without_dot he hname
    rw [typeOf_iff_of_no_dot hname]
    constructor
    · rintro htype (⟨hdot, -, -, -, -⟩ | ⟨-, habove⟩)
      · simp [hdot] at hname
      · exact absurd (htype ▸ hslash habove) (by decide)
    · intro h
      exact hnone fun habove => h (.above hname habove)

/-- A slash is in the type if it is taken from the directories alone. -/
theorem slash_mem_typeName_iff (he : e.name = path) :
    '/' ∈ e.typeName.toList ↔
      '.' ∉ (Disk.cutPath path).2 ∧ '.' ∈ (Disk.cutPath path).1.tail := by
  by_cases hname : '.' ∈ (Disk.cutPath path).2
  · obtain ⟨stem, ext, hdot, hlast⟩ := exists_last_dot hname
    obtain ⟨hpath, hslash, -⟩ := Disk.cutPath_spec path
    have hwhole : e.name.toList = ((Disk.cutPath path).1 ++ stem) ++ '.' :: ext := by
      rw [he, hpath, hdot, List.append_assoc]
    have hext : '/' ∉ ext := fun hmem => hslash (by simp [hdot, hmem])
    have hnone : '/' ∉ e.typeName.toList := by
      rw [Element.typeName_of_dot hwhole hlast]
      split
      · simpa using hext
      · decide
    simp [hname, hnone]
  · obtain ⟨hslash, hnone⟩ := typeName_of_name_without_dot he hname
    by_cases habove : '.' ∈ (Disk.cutPath path).1.tail
    · simp [hname, habove, hslash habove]
    · rw [hnone habove]
      simp [habove, Element.unknownType]

end CutPath

/-! ## Files that have been read -/

namespace ComparePaths

variable {p : ComparePaths} {d : Disk} {node : Node} {pane : Pane} {e : Element}

/-- The path of the file behind a pane, if there is to be one. -/
def pane? (p : ComparePaths) : Pane → Option String
  | .ancestor => p.ancestor
  | .left => some p.left
  | .right => some p.right

theorem readElement_some {path : String} (h : readElement d path = .ok (some e)) :
    e.name = path := by
  rcases readElement_ok h with ⟨-, hnone⟩ | ⟨content, -, hsome⟩
  · simp at hnone
  · rw [Option.some.inj hsome]

/-- The element of a pane is named by the path that it was read from. -/
theorem name_of_load (hload : p.load d = .ok node)
    (he : node.elements.get pane = some e) : p.pane? pane = some e.name := by
  obtain ⟨hancestor, hleft, hright⟩ := of_load hload
  cases pane with
  | ancestor =>
    rw [show node.elements.ancestor = some e from he, loadAncestor] at hancestor
    cases hbase : p.ancestor with
    | none => simp [hbase] at hancestor
    | some base =>
      simp only [hbase] at hancestor
      obtain ⟨found, hfound, hancestor⟩ := ok_of_bind hancestor
      cases found with
      | none => simp at hancestor
      | some e' =>
        obtain rfl := Option.some.inj (Except.ok.inj hancestor)
        rw [pane?, hbase, readElement_some hfound]
  | left => rw [pane?, readElement_some (hleft.trans (congrArg Except.ok he))]
  | right => rw [pane?, readElement_some (hright.trans (congrArg Except.ok he))]

/-- **The type that is shown for a file is that of its whole path, taken for a name.**
It is that of the name at the end of the path, which is the last one that the disk
looks up, exactly if the directories have no part in it; and there is a slash in it
exactly if it begins in the directories. -/
theorem type_of_loaded_file (hload : p.load d = .ok node)
    (he : node.elements.get pane = some e) :
    ∃ path name, p.pane? pane = some path ∧ (Disk.names path).getLast? = some name ∧
      (∀ store : FileStore, store.node = node → ∀ input,
        Model.files.image store pane input = some e.typeName) ∧
      (∀ type, TypeOf path.toList type ↔ type = e.typeName) ∧
      (TypeOf name.toList e.typeName ↔ ¬ TakenFromPath path) ∧
      ('/' ∈ e.typeName.toList ↔
        '.' ∉ name.toList ∧ '.' ∈ (Disk.cutPath path).1.tail) := by
  refine ⟨e.name, _, name_of_load hload he, Disk.getLast?_names e.name, ?_,
    fun type => typeOf_typeName e, ?_, ?_⟩
  · rintro store rfl input
    exact congrArg (Option.map Element.typeName) he
  · rw [String.toList_ofList]
    exact typeOf_iff_not_takenFromPath rfl
  · rw [String.toList_ofList]
    exact slash_mem_typeName_iff rfl

/-- The text of a program has a type, and its directory has no part in that; a hidden
file next to it has none of its own, and is given one. -/
theorem types_of_two_files :
    let disk : Disk := {
      home := []
      entries := [(["src"], .directory), (["src", "main.rs"], .file ⟨#[97]⟩),
        (["src", ".hidden"], .file ⟨#[97]⟩)] }
    let p : ComparePaths := ⟨none, "src/main.rs", "src/.hidden"⟩
    let node : Node := {
      kind := .classify none (some ⟨#[97]⟩) (some ⟨#[97]⟩)
      elements := ⟨none, some ⟨"src/main.rs", some ⟨#[97]⟩⟩,
        some ⟨"src/.hidden", some ⟨#[97]⟩⟩⟩ }
    let store : FileStore := ⟨disk, p, node, ⟨true, true⟩⟩
    p.load disk = .ok node ∧
      Model.files.image store .left 0 = some "rs" ∧ TypeOf "main.rs".toList "rs" ∧
      Model.files.image store .right 0 = some "hidden" ∧
      ¬ TypeOf ".hidden".toList "hidden" := by
  intro disk p node store
  have hload : p.load disk = .ok node := ok_of_toOption (by decide +kernel)
  have hmain : (⟨"src/main.rs", some ⟨#[97]⟩⟩ : Element).typeName = "rs" := by
    decide +kernel
  have hhidden : (⟨"src/.hidden", some ⟨#[97]⟩⟩ : Element).typeName = "hidden" := by
    decide +kernel
  obtain ⟨left, _, hleft, hlast, himage, -, htype, -⟩ :=
    type_of_loaded_file hload (show node.elements.get .left = some _ from rfl)
  obtain rfl := Option.some.inj hleft
  obtain rfl := Option.some.inj
    ((show _ = some "main.rs" by decide +kernel).symm.trans hlast)
  obtain ⟨right, _, hright, hlastRight, himageRight, -, htypeRight, -⟩ :=
    type_of_loaded_file hload (show node.elements.get .right = some _ from rfl)
  obtain rfl := Option.some.inj hright
  obtain rfl := Option.some.inj
    ((show _ = some ".hidden" by decide +kernel).symm.trans hlastRight)
  rw [hmain] at himage htype
  rw [hhidden] at himageRight htypeRight
  refine ⟨hload, himage store rfl 0, htype.mpr ?_, himageRight store rfl 0,
    fun hown => htypeRight.mp hown ?_⟩
  · have hdot : (Disk.cutPath "src/main.rs").2 = "main".toList ++ '.' :: "rs".toList := by
      decide +kernel
    rw [takenFromPath_iff_of_dot hdot (by decide)]
    exact fun htaken => absurd htaken.1 (by decide)
  · have hdot : (Disk.cutPath "src/.hidden").2 = [] ++ '.' :: "hidden".toList := by
      decide +kernel
    rw [takenFromPath_iff_of_dot hdot (by decide)]
    decide +kernel

/-- A file without an extension in a directory with a dot: the type that is shown for
it is made of the end of that directory, a slash, and the whole name. -/
theorem type_with_slash :
    let disk : Disk := {
      home := []
      entries := [(["v1.2"], .directory), (["v1.2", "notes"], .file ⟨#[97]⟩),
        (["notes"], .file ⟨#[98]⟩)] }
    let p : ComparePaths := ⟨none, "v1.2/notes", "notes"⟩
    ∃ node, p.load disk = .ok node ∧
      (Disk.names p.left).getLast? = (Disk.names p.right).getLast? ∧
      node.image .left = some "2/notes" ∧ ¬ TypeOf "notes".toList "2/notes" ∧
      node.image .right = some "???" ∧ TypeOf "notes".toList "???" := by
  intro disk p
  have hdot : '.' ∉ "notes".toList := by decide
  refine ⟨_, ok_of_toOption (a := {
    kind := .classify none (some ⟨#[97]⟩) (some ⟨#[98]⟩)
    elements := ⟨none, some ⟨"v1.2/notes", some ⟨#[97]⟩⟩, some ⟨"notes", some ⟨#[98]⟩⟩⟩ })
    (by decide +kernel), by decide +kernel, by decide +kernel, ?_, by decide +kernel, ?_⟩
  · rw [typeOf_iff_of_no_dot hdot]
    decide
  · rw [typeOf_iff_of_no_dot hdot]
    rfl

end ComparePaths

end Reconcile
