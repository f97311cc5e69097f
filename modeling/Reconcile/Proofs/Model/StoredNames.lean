/-
Reconcile.Proofs.Model.StoredNames — what storing content does to the rest of a node.

A node takes what is stored side by side: of each side the last value counts, and the
name of its element stays (`side_setContents`). So labels and the ancestor are not
touched. The display name is another matter, since it is put together from the elements
that are there. A missing side gets an element without a name; that has no label, but
the display name takes it for a second name, and goes wrong next to an element that has
one (`name_of_unnamed`).

`storing_keeps_all_but_name` says so for every sequence of requests, made directly or
through the model of a view, turned or not, and says when the display name is kept.
-/
import Reconcile.Proofs.Model.Laws

namespace Reconcile

/-! ## Values on the sides of a node -/

/-- The last of some values that were stored that is for a given side. -/
def lastFor (side : Side) (values : List (Side × Option ByteArray)) :
    Option (Option ByteArray) :=
  (values.filter (·.1 = side)).getLast?.map (·.2)

theorem lastFor_cons (side : Side) (value : Side × Option ByteArray)
    (rest : List (Side × Option ByteArray)) :
    lastFor side (value :: rest) =
      (lastFor side rest).or (if value.1 = side then some value.2 else none) := by
  by_cases h : value.1 = side
  · simp only [lastFor, List.filter_cons, h, decide_true, if_true, List.getLast?_cons]
    cases (rest.filter (·.1 = side)).getLast? <;> rfl
  · simp [lastFor, h]

namespace Node

variable {n after : Node} {side : Side} {e : Element}
  {values : List (Side × Option ByteArray)}

/-- The node after some values are stored, one after the other. -/
def setContents (n : Node) (values : List (Side × Option ByteArray)) : Node :=
  values.foldl (fun n value => n.setContent value.1 value.2) n

/-- The name on a side; a side that is missing has none. -/
def nameOn (n : Node) (side : Side) : String :=
  ((n.elements.side side).map (·.name)).getD ""

theorem side_setContent_self (n : Node) (side : Side) (bytes : Option ByteArray) :
    (n.setContent side bytes).elements.side side = some ⟨n.nameOn side, bytes⟩ := by
  rw [setContent, Paned.side_setSide_self, nameOn]
  cases n.elements.side side <;> rfl

theorem side_setContent_of_ne {other : Side} (h : other ≠ side) (n : Node)
    (bytes : Option ByteArray) :
    (n.setContent other bytes).elements.side side = n.elements.side side := by
  obtain rfl : side = other.opposite := (Side.eq_or_eq_opposite side other).resolve_left
    (Ne.symm h)
  rw [setContent, Paned.side_setSide_opposite]

theorem nameOn_setContent (n : Node) (other : Side) (bytes : Option ByteArray)
    (side : Side) : (n.setContent other bytes).nameOn side = n.nameOn side := by
  by_cases h : other = side
  · rw [h, nameOn, side_setContent_self]
    rfl
  · rw [nameOn, side_setContent_of_ne h, nameOn]

/-- **Of each side the last value counts**, and its name stays. -/
theorem side_setContents (n : Node) (values : List (Side × Option ByteArray))
    (side : Side) :
    (n.setContents values).elements.side side =
      match lastFor side values with
      | some bytes => some ⟨n.nameOn side, bytes⟩
      | none => n.elements.side side := by
  induction values generalizing n with
  | nil => rfl
  | cons value rest ih =>
    rw [setContents, List.foldl_cons, ← setContents, ih, lastFor_cons, nameOn_setContent]
    cases lastFor side rest with
    | some bytes => rfl
    | none =>
      by_cases h : value.1 = side
      · rw [Option.none_or, if_pos h, ← h]
        exact side_setContent_self n value.1 value.2
      · rw [Option.none_or, if_neg h]
        exact side_setContent_of_ne h n value.2

/-- An element that is there keeps its name, whatever is stored in it. -/
theorem element_setContents (h : n.elements.side side = some e)
    (values : List (Side × Option ByteArray)) :
    ∃ content, (n.setContents values).elements.side side = some ⟨e.name, content⟩ := by
  rw [side_setContents, nameOn, h]
  cases lastFor side values with
  | some bytes => exact ⟨bytes, rfl⟩
  | none => exact ⟨e.content, rfl⟩

/-- Nothing changes but what is on the sides. -/
theorem frame_setContents (n : Node) (values : List (Side × Option ByteArray)) :
    n.setContents values = { n with elements := (n.setContents values).elements } ∧
      (n.setContents values).elements.ancestor = n.elements.ancestor := by
  induction values generalizing n with
  | nil => exact ⟨rfl, rfl⟩
  | cons value rest ih =>
    obtain ⟨hframe, hancestor⟩ := ih (n.setContent value.1 value.2)
    exact ⟨hframe, hancestor.trans (Paned.ancestor_setSide _ _ _)⟩

theorem content_setContents (n : Node) (values : List (Side × Option ByteArray))
    (side : Side) :
    (n.setContents values).content side.pane =
      (lastFor side values).getD (n.content side.pane) := by
  rw [content, content, ← Paned.side_eq_get, ← Paned.side_eq_get, side_setContents]
  cases lastFor side values <;> rfl

/-- An element that is made for a missing side has no label, like the side before. -/
theorem label_setContents (n : Node) (values : List (Side × Option ByteArray))
    (pane : Pane) : (n.setContents values).label pane = n.label pane := by
  have hside : ∀ side : Side, (n.setContents values).label side.pane = n.label side.pane := by
    intro side
    rw [label, label, ← Paned.side_eq_get, ← Paned.side_eq_get, side_setContents]
    cases lastFor side values with
    | none => rfl
    | some bytes => cases h : n.elements.side side <;> simp [nameOn, h]
  cases pane with
  | ancestor =>
    simp only [label, Paned.get, (n.frame_setContents values).2]
  | left => exact hside .left
  | right => exact hside .right

/-! ## The display name -/

theorem name_of_only (h : n.elements.side side = some e)
    (hother : n.elements.side side.opposite = none) : n.name = e.name := by
  cases side <;> simp_all [Paned.side, Side.opposite, name]

/-- Next to an element without a name, the name of the other one is put together with
nothing. -/
theorem name_of_unnamed {bytes : Option ByteArray}
    (h : n.elements.side side = some e)
    (hother : n.elements.side side.opposite = some ⟨"", bytes⟩) :
    n.name =
      if e.name = "" then ""
      else if decide (side = .left) = n.leftFirst then e.name ++ " - "
      else " - " ++ e.name := by
  by_cases hname : e.name = ""
  · cases side <;> simp_all [Paned.side, Side.opposite, name]
  · have hne : ¬ "" = e.name := Ne.symm hname
    cases side <;> cases hfirst : n.leftFirst <;>
      simp_all [Paned.side, Side.opposite, name]

theorem name_of_both {e' f f' : Element} (h : n.elements.side side = some e)
    (hother : n.elements.side side.opposite = some f)
    (hafter : after.elements.side side = some e')
    (hafterOther : after.elements.side side.opposite = some f')
    (hfirst : after.leftFirst = n.leftFirst) (he : e'.name = e.name)
    (hf : f'.name = f.name) : after.name = n.name := by
  cases side <;> simp_all [Paned.side, Side.opposite, name]

/-- Of the two sides only one is there, which has a name, and something has been stored
on the other one. -/
structure FilledBeside (n : Node) (values : List (Side × Option ByteArray)) (side : Side)
    (e : Element) : Prop where
  there : n.elements.side side = some e
  missing : n.elements.side side.opposite = none
  named : e.name ≠ ""
  filled : (lastFor side.opposite values).isSome = true

theorem FilledBeside.name_eq (h : FilledBeside n values side e) :
    (n.setContents values).name =
      if decide (side = .left) = n.leftFirst then e.name ++ " - "
      else " - " ++ e.name := by
  obtain ⟨content, hthere⟩ := element_setContents h.there values
  obtain ⟨bytes, hbytes⟩ := Option.isSome_iff_exists.mp h.filled
  have hfilled : (n.setContents values).elements.side side.opposite
      = some ⟨"", bytes⟩ := by
    rw [side_setContents, hbytes, nameOn, h.missing]
    rfl
  rw [name_of_unnamed hthere hfilled, if_neg h.named, (n.frame_setContents values).1]

theorem ne_of_joined (name : String) (atEnd : Prop) [Decidable atEnd] :
    (if atEnd then name ++ " - " else " - " ++ name) ≠ name := by
  intro h
  have hlength := congrArg String.length h
  split at hlength <;> simp [String.length_append] at hlength

/-- **Storing keeps the display name** unless it puts an element next to a single one
that has a name. -/
theorem name_setContents_iff (hside : ∃ side, n.elements.side side ≠ none)
    (values : List (Side × Option ByteArray)) :
    (n.setContents values).name = n.name ↔ ∀ side e, ¬ FilledBeside n values side e := by
  constructor
  · intro hname side e h
    rw [h.name_eq, name_of_only h.there h.missing] at hname
    exact ne_of_joined _ _ hname
  · intro hnone
    obtain ⟨side, hthere⟩ := hside
    obtain ⟨e, he⟩ := Option.ne_none_iff_exists'.mp hthere
    obtain ⟨content, hafter⟩ := element_setContents he values
    cases hother : n.elements.side side.opposite with
    | some f =>
      obtain ⟨other, hafterOther⟩ := element_setContents hother values
      exact name_of_both he hother hafter hafterOther
        (by rw [(n.frame_setContents values).1]) rfl rfl
    | none =>
      have hopposite := n.side_setContents values side.opposite
      rw [nameOn, hother] at hopposite
      cases hlast : lastFor side.opposite values with
      | none =>
        rw [hlast] at hopposite
        rw [name_of_only hafter hopposite, name_of_only he hother]
      | some bytes =>
        rw [hlast] at hopposite
        have hunnamed : e.name = "" := Classical.byContradiction fun hnamed =>
          hnone side e ⟨he, hother, hnamed, by simp [hlast]⟩
        rw [name_of_unnamed hafter hopposite, if_pos hunnamed, name_of_only he hother,
          hunnamed]

end Node

/-! ## Requests -/

/-- Something that is to be stored on a side of an input in memory: by itself, or
through the model as a view shows it. -/
inductive StoreRequest where
  | set (side : Side) (bytes : Option ByteArray)
  | save (flipped : Bool) (side : Side) (bytes : Option ByteArray)

/-- What is to be stored, and on which side of the input. -/
def StoreRequest.value : StoreRequest → Side × Option ByteArray
  | set side bytes => (side, bytes)
  | save flipped side bytes => (side.oriented flipped, bytes)

namespace Shelf

variable {s t : Shelf Node} {input : Place} {n : Node}

/-- Do what is requested of an input. Only a model may refuse it. -/
def store (s : Shelf Node) (input : Place) :
    StoreRequest → Except SaveError (Shelf Node)
  | .set side bytes => .ok (s.setContent input side bytes)
  | .save flipped side bytes =>
    ((Model.shelf Node).oriented flipped).save s side input bytes

/-- Do what is requested of an input, one after the other, and record what has been
stored. -/
def storeAll (s : Shelf Node) (input : Place) :
    List StoreRequest → Shelf Node × List (Side × Option ByteArray)
  | [] => (s, [])
  | request :: rest =>
    match s.store input request with
    | .error _ => s.storeAll input rest
    | .ok t => (t.storeAll input rest).map id (request.value :: ·)

theorem store_ok {request : StoreRequest} (h : s.store input request = .ok t) :
    t = s.setContent input request.value.1 request.value.2 := by
  cases request with
  | set side bytes => exact (Except.ok.inj h).symm
  | save flipped side bytes =>
    rw [store, Model.save_oriented] at h
    exact Model.save_shelf h

theorem name_of_getElem? (h : s.items[input]? = some n) :
    (Model.shelf Node).name s input = n.name := by
  simp only [Model.shelf, h]
  rfl

theorem label_of_getElem? (h : s.items[input]? = some n) (pane : Pane) :
    (Model.shelf Node).label s pane input = n.label pane := by
  simp only [Model.shelf, h]
  rfl

theorem content_of_getElem? (h : s.items[input]? = some n) (pane : Pane) :
    (Model.shelf Node).content s pane input = n.content pane := by
  simp only [Model.shelf, h]
  rfl

theorem getElem?_setContent (h : s.items[input]? = some n) (side : Side)
    (bytes : Option ByteArray) :
    (s.setContent input side bytes).items[input]? = some (n.setContent side bytes) := by
  rw [setContent, List.getElem?_modify, h]
  simp [Subject.setContent]

/-- **An input holds what has been stored in it**; what was refused has left no trace. -/
theorem getElem?_storeAll (h : s.items[input]? = some n) (requests : List StoreRequest) :
    (s.storeAll input requests).1.items[input]?
      = some (n.setContents (s.storeAll input requests).2) := by
  induction requests generalizing s n with
  | nil => exact h
  | cons request rest ih =>
    rw [storeAll]
    cases hstore : s.store input request with
    | error e => exact ih h
    | ok t =>
      obtain rfl := store_ok hstore
      exact ih (getElem?_setContent h _ _)

/-- **Storing keeps everything but, in one case, the display name.** Whatever is
requested of a node with a side, and whatever of it is refused: all labels and the
ancestor are as before, and each side holds the last value that was stored on it. The
display name is as before unless something was stored on a missing side next to one that
has a name; then the dash between two names stands next to that one. -/
theorem storing_keeps_all_but_name (h : s.items[input]? = some n)
    (hside : ∃ side, n.elements.side side ≠ none) (requests : List StoreRequest) :
    ∃ after stored, s.storeAll input requests = (after, stored) ∧
      (∀ pane, (Model.shelf Node).label after pane input
        = (Model.shelf Node).label s pane input) ∧
      (∀ side : Side, (Model.shelf Node).content after side.pane input
        = (lastFor side stored).getD ((Model.shelf Node).content s side.pane input)) ∧
      (∃ node, after.items[input]? = some node ∧
        node.elements.ancestor = n.elements.ancestor) ∧
      ((Model.shelf Node).name after input = (Model.shelf Node).name s input ↔
        ∀ side e, ¬ n.FilledBeside stored side e) ∧
      ∀ side e, n.FilledBeside stored side e →
        (Model.shelf Node).name after input =
          if decide (side = .left) = n.leftFirst then e.name ++ " - "
          else " - " ++ e.name := by
  have hafter := getElem?_storeAll h requests
  refine ⟨_, _, rfl, fun pane => ?_, fun side => ?_,
    ⟨_, hafter, (n.frame_setContents _).2⟩, ?_, fun side e hfilled => ?_⟩
  · rw [label_of_getElem? hafter, label_of_getElem? h, Node.label_setContents]
  · rw [content_of_getElem? hafter, content_of_getElem? h, Node.content_setContents]
  · rw [name_of_getElem? hafter, name_of_getElem? h]
    exact Node.name_setContents_iff hside _
  · rw [name_of_getElem? hafter]
    exact hfilled.name_eq

/-- Of a comparison with both sides each is saved twice, in a view that is turned; the
right side may not be edited, and is written all the same by itself. -/
theorem name_kept_with_both_sides :
    let n : Node := .twoWay (some ⟨"a.txt", some ⟨#[97]⟩⟩) (some ⟨"b.txt", none⟩)
    let s : Shelf Node := ⟨[n], ⟨true, false⟩⟩
    let requests : List StoreRequest := [.save true .right (some ⟨#[98]⟩),
      .save true .left (some ⟨#[99]⟩), .set .right (some ⟨#[100]⟩), .save false .left none]
    ∃ after stored, s.storeAll 0 requests = (after, stored) ∧
      (Model.shelf Node).name after 0 = "b.txt - a.txt" ∧
      (Model.shelf Node).content after .left 0 = none ∧
      (Model.shelf Node).content after .right 0 = some ⟨#[100]⟩ ∧
      (∀ pane, (Model.shelf Node).label after pane 0 = n.label pane) ∧
      (Model.shelf Node).name after 0 = (Model.shelf Node).name s 0 := by
  intro n s requests
  have hside : ∃ side, n.elements.side side ≠ none :=
    ⟨.left, by simp [n, Node.twoWay, Paned.side]⟩
  obtain ⟨after, stored, hall, hlabel, -, -, hname, -⟩ :=
    storing_keeps_all_but_name (show s.items[0]? = some n from rfl) hside requests
  have hboth : ∀ side e, ¬ n.FilledBeside stored side e := by
    rintro side e ⟨-, hmissing, -, -⟩
    cases side <;> simp [n, Node.twoWay, Paned.side, Side.opposite] at hmissing
  obtain ⟨rfl, rfl⟩ := Prod.mk.inj hall.symm
  exact ⟨_, _, rfl, by decide +kernel, by decide +kernel, by decide +kernel,
    hlabel, hname.mpr hboth⟩

/-- Of a comparison with a new file on the left, the right side is saved. The missing
side has no label afterwards either, but the display name has gained a dash. -/
theorem name_lost_beside_missing_side :
    let n : Node := .twoWay (some ⟨"new.txt", some ⟨#[97]⟩⟩) none
    let s : Shelf Node := ⟨[n], ⟨true, true⟩⟩
    ∃ after stored,
      s.storeAll 0 [.save false .right (some ⟨#[98]⟩)] = (after, stored) ∧
      stored = [(.right, some ⟨#[98]⟩)] ∧
      (Model.shelf Node).label after .right 0 = none ∧
      (Model.shelf Node).name s 0 = "new.txt" ∧
      (Model.shelf Node).name after 0 = " - new.txt" ∧
      (Model.shelf Node).name after 0 ≠ (Model.shelf Node).name s 0 :=
  ⟨_, _, rfl, rfl, by decide +kernel, by decide +kernel, by decide +kernel,
    by decide +kernel⟩

end Shelf

end Reconcile
