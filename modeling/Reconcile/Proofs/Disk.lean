/-
Reconcile.Proofs.Disk — what is read after a file was written or removed.

A path is followed through directories, and neither writing nor removing a
file touches one of those. So a path that was followed before leads to the
same place afterwards (`SameDirectories.locate_iff`), and what is found there
is what was put there (`Replaced.content?`, `Replaced.contains`); every other
file is as it was (`Replaced.content?_apart`), and the system refuses what it
refused before. `ChangesOnly` is what several such steps have in common.

`Found` is what is at a path, and `Holds` what that amounts to when a missing
file counts as empty. Neither asks whether a file may be read.
-/
import Reconcile.Model.Files

namespace Reconcile

section Steps

variable {ε α β : Type} {x : Except ε α} {f : α → Except ε β}

/-- A step that is followed by another has gone well if both have. -/
theorem bind_eq_ok_iff {b : β} : x >>= f = .ok b ↔ ∃ a, x = .ok a ∧ f a = .ok b := by
  cases x <;> simp [bind, Except.bind]

theorem ok_of_bind {b : β} (h : x >>= f = .ok b) : ∃ a, x = .ok a ∧ f a = .ok b :=
  bind_eq_ok_iff.mp h

/-- It has failed if one of both has. -/
theorem bind_eq_error_iff {e : ε} :
    x >>= f = .error e ↔ x = .error e ∨ ∃ a, x = .ok a ∧ f a = .error e := by
  cases x <;> simp [bind, Except.bind]

theorem error_of_bind {e : ε} (h : x >>= f = .error e) :
    x = .error e ∨ ∃ a, x = .ok a ∧ f a = .error e :=
  bind_eq_error_iff.mp h

end Steps

theorem isOk_iff {ε α : Type} {x : Except ε α} : x.isOk = true ↔ ∃ a, x = .ok a := by
  cases x <;> simp [Except.isOk, Except.toBool]

theorem ok_of_toOption {ε α : Type} {x : Except ε α} {a : α}
    (h : x.toOption = some a) : x = .ok a := by
  cases x with
  | error e => simp [Except.toOption] at h
  | ok b => exact congrArg Except.ok (Option.some.inj h)

theorem error_of_toOption {ε α : Type} {x : Except ε α} (h : x.toOption = none) :
    ∃ e, x = .error e := by
  cases x with
  | error e => exact ⟨e, rfl⟩
  | ok a => simp [Except.toOption] at h

/-- Bytes are a text if they are what it is written as. -/
theorem fromUTF8?_eq_some_iff {bytes : ByteArray} {text : String} :
    String.fromUTF8? bytes = some text ↔ text.toUTF8 = bytes := by
  unfold String.fromUTF8?
  constructor
  · intro h
    split at h
    · rw [← Option.some.inj h]
      rfl
    · simp at h
  · rintro rfl
    exact dif_pos text.isValidUTF8

namespace Disk

variable {d after : Disk} {path : String}

/-! ## Entries -/

theorem lookup_cons_eq (entries : List (Location × DiskEntry))
    (place k : Location) (e : DiskEntry) :
    ((place, e) :: entries).lookup k
      = if k = place then some e else entries.lookup k := by
  rw [List.lookup_cons]
  by_cases hk : k = place
  · rw [if_pos hk, beq_iff_eq.mpr hk]
  · rw [if_neg hk, beq_eq_false_iff_ne.mpr hk]

theorem lookup_replace (entries : List (Location × DiskEntry)) (l k : Location)
    (e : DiskEntry) :
    (entries.map fun x => if x.1 = l then (l, e) else x).lookup k
      = if k = l then (entries.lookup l).map fun _ => e else entries.lookup k := by
  induction entries with
  | nil => simp
  | cons x entries ih =>
    obtain ⟨place, entry⟩ := x
    rw [List.map_cons, lookup_cons_eq, lookup_cons_eq]
    by_cases hp : place = l
    · rw [if_pos hp, lookup_cons_eq, ih, hp]
      by_cases hk : k = l <;> simp [hk]
    · rw [if_neg hp, lookup_cons_eq, ih]
      by_cases hk : k = l
      · simp [hk, Ne.symm hp]
      · simp [hk]

theorem lookup_without (entries : List (Location × DiskEntry)) (l k : Location) :
    (entries.filter (·.1 ≠ l)).lookup k
      = if k = l then none else entries.lookup k := by
  induction entries with
  | nil => simp
  | cons x entries ih =>
    obtain ⟨place, entry⟩ := x
    rw [List.filter_cons, lookup_cons_eq]
    by_cases hp : place = l
    · rw [if_neg (by simpa using hp), ih, hp]
      by_cases hk : k = l <;> simp [hk]
    · rw [if_pos (by simpa using hp), lookup_cons_eq, ih]
      by_cases hk : k = l
      · simp [hk, Ne.symm hp]
      · simp [hk]

@[simp] theorem home_set (d : Disk) (l : Location) (e : DiskEntry) :
    (d.set l e).home = d.home := by
  unfold set
  split <;> rfl

@[simp] theorem refusals_set (d : Disk) (l : Location) (e : DiskEntry) :
    (d.set l e).refusals = d.refusals := by
  unfold set
  split <;> rfl

theorem lookup_set (d : Disk) (l k : Location) (e : DiskEntry) :
    (d.set l e).entries.lookup k = if k = l then some e else d.entries.lookup k := by
  unfold set
  split
  · rename_i h
    obtain ⟨old, hold⟩ := Option.isSome_iff_exists.mp h
    simp [lookup_replace, hold]
  · rename_i h
    have hnone : d.entries.lookup l = none := Option.not_isSome_iff_eq_none.mp h
    rw [List.lookup_append, lookup_cons_eq, List.lookup_nil]
    by_cases hk : k = l
    · rw [hk, hnone]
      simp
    · simp [hk]

/-- The working directory and all above it are directories. -/
theorem isPrefixOf_home_eq_false {l : Location} (hl : d.entry? l ≠ some .directory) :
    l.isPrefixOf d.home = false := by
  rw [Bool.eq_false_iff]
  intro habove
  exact hl (if_pos habove)

theorem entry?_set (d : Disk) {l : Location} (hl : d.entry? l ≠ some .directory)
    (e : DiskEntry) (k : Location) :
    Disk.entry? (d.set l e) k = if k = l then some e else d.entry? k := by
  have hhome := isPrefixOf_home_eq_false hl
  unfold entry?
  rw [home_set, lookup_set]
  by_cases hk : k = l
  · simp [hk, hhome]
  · simp [hk]

theorem entry?_clear (d : Disk) {l : Location} (hl : d.entry? l ≠ some .directory)
    (k : Location) :
    Disk.entry? (d.clear l) k = if k = l then none else d.entry? k := by
  have hhome := isPrefixOf_home_eq_false hl
  unfold entry? clear
  rw [lookup_without]
  by_cases hk : k = l
  · simp [hk, hhome]
  · simp [hk]

/-! ## Paths -/

/-- Two disks have the same directories, so the same paths lead somewhere. -/
structure SameDirectories (d after : Disk) : Prop where
  home : after.home = d.home
  directories : ∀ l, after.entry? l = some .directory ↔ d.entry? l = some .directory

namespace SameDirectories

theorem refl (d : Disk) : SameDirectories d d := ⟨rfl, fun _ => .rfl⟩

theorem symm (h : SameDirectories d after) : SameDirectories after d :=
  ⟨h.home.symm, fun l => (h.directories l).symm⟩

theorem trans {last : Disk} (h : SameDirectories d after)
    (g : SameDirectories after last) : SameDirectories d last :=
  ⟨g.home.trans h.home, fun l => (g.directories l).trans (h.directories l)⟩

theorem enter (h : SameDirectories d after) {l l' : Location} {name : String}
    (hl : d.enter l name = .ok l') : after.enter l name = .ok l' := by
  unfold Disk.enter at hl ⊢
  split at hl
  · rename_i hdir
    rw [(h.directories l).mpr hdir]
    exact hl
  · simp at hl
  · simp at hl

theorem follow (h : SameDirectories d after) {names : List String}
    {l : Location} (hl : d.follow names = .ok l) : after.follow names = .ok l := by
  have hsteps : ∀ (names : List String) (start : Location),
      names.foldlM d.enter start = .ok l → names.foldlM after.enter start = .ok l := by
    intro names
    induction names with
    | nil => exact fun _ h => h
    | cons name names ih =>
      intro start hstart
      rw [List.foldlM_cons] at hstart ⊢
      obtain ⟨next, hfirst, hrest⟩ := ok_of_bind hstart
      rw [h.enter hfirst]
      exact ih next hrest
  unfold Disk.follow at hl ⊢
  rw [h.home]
  exact hsteps names _ hl

theorem locate (h : SameDirectories d after) {l : Location}
    (hl : d.locate path = .ok l) : after.locate path = .ok l := by
  unfold Disk.locate at hl ⊢
  obtain ⟨_, hcheck, hfollow⟩ := ok_of_bind hl
  rw [hcheck]
  exact h.follow hfollow

theorem locate_iff (h : SameDirectories d after) {l : Location} :
    after.locate path = .ok l ↔ d.locate path = .ok l :=
  ⟨h.symm.locate, h.locate⟩

/-- Nothing but a file has been put in the place of what is not a directory,
or nothing at all. -/
theorem of_place {l : Location} {e : Option DiskEntry}
    (hhome : after.home = d.home) (hl : d.entry? l ≠ some .directory)
    (he : e ≠ some .directory)
    (hentry : ∀ k, after.entry? k = if k = l then e else d.entry? k) :
    SameDirectories d after where
  home := hhome
  directories k := by
    rw [hentry]
    by_cases hk : k = l
    · simp [hk, hl, he]
    · rw [if_neg hk]

end SameDirectories

/-- A path to which a file can be written leads to a place that is not a
directory. -/
theorem locate_of_target {l : Location} (h : d.target path = .ok l) :
    d.locate path = .ok l ∧ d.entry? l ≠ some .directory := by
  unfold target at h
  obtain ⟨_, hcheck, h⟩ := ok_of_bind h
  unfold locate
  rw [hcheck]
  split at h
  · obtain ⟨_, -, h⟩ := ok_of_bind h
    simp at h
  · obtain ⟨place, hfollow, h⟩ := ok_of_bind h
    split at h
    · simp at h
    · rename_i hdir
      obtain rfl := Except.ok.inj h
      exact ⟨hfollow, hdir⟩

theorem SameDirectories.target (h : SameDirectories d after) {l : Location}
    (hl : d.target path = .ok l) : after.target path = .ok l := by
  have hplace : after.entry? l ≠ some .directory := by
    rw [ne_eq, h.directories]
    exact (locate_of_target hl).2
  unfold Disk.target at hl ⊢
  obtain ⟨_, hcheck, hl⟩ := ok_of_bind hl
  rw [hcheck]
  split at hl
  · obtain ⟨_, -, hl⟩ := ok_of_bind hl
    simp at hl
  · rename_i hslash
    obtain ⟨place, hfollow, hl⟩ := ok_of_bind hl
    split at hl
    · simp at hl
    · obtain rfl := Except.ok.inj hl
      simp only [bind, Except.bind, hslash, if_false, h.follow hfollow, hplace]

/-! ## Files -/

theorem find_eq_ok_iff {l : Location} {e : DiskEntry} :
    d.find path = .ok (l, e) ↔ d.locate path = .ok l ∧ d.entry? l = some e := by
  unfold find
  cases hlocate : d.locate path with
  | error fault => simp
  | ok place =>
    simp only [Except.ok.injEq]
    constructor
    · intro h
      split at h
      · rename_i hentry
        simp only [Except.ok.injEq, Prod.mk.injEq] at h
        obtain ⟨rfl, rfl⟩ := h
        exact ⟨rfl, hentry⟩
      · simp at h
    · rintro ⟨rfl, hentry⟩
      rw [hentry]

theorem contains_iff :
    d.contains path = true ↔ ∃ l e, d.locate path = .ok l ∧ d.entry? l = some e := by
  simp only [← find_eq_ok_iff, contains, isOk_iff, Prod.exists]

theorem content?_eq_some_iff {bytes : ByteArray} :
    d.content? path = some bytes
      ↔ ∃ l, d.locate path = .ok l ∧ d.entry? l = some (.file bytes) := by
  simp only [← find_eq_ok_iff]
  unfold content?
  cases h : d.find path with
  | error fault => simp
  | ok found =>
    obtain ⟨l, e⟩ := found
    cases e <;> simp

theorem reason_of_permit {access : Access} {l : Location} {fault : DiskFault}
    (h : d.permit access l = .error fault) : ∃ reason, fault = .refused reason := by
  unfold permit at h
  split at h
  · exact ⟨_, (Except.error.inj h).symm⟩
  · simp at h

theorem openFile_eq_ok_iff {access : Access} {l : Location} {bytes : ByteArray} :
    d.openFile access path = .ok (l, bytes) ↔ d.locate path = .ok l ∧
      d.entry? l = some (.file bytes) ∧ d.permit access l = .ok () := by
  rw [← and_assoc, ← find_eq_ok_iff]
  unfold openFile
  simp only [bind_eq_ok_iff, Prod.exists]
  constructor
  · rintro ⟨place, e, hfind, ⟨⟩, hleave, h⟩
    cases e with
    | file content =>
      obtain ⟨rfl, rfl⟩ := Prod.mk.inj (Except.ok.inj h)
      exact ⟨hfind, hleave⟩
    | directory => simp at h
  · rintro ⟨hfind, hleave⟩
    exact ⟨l, _, hfind, (), hleave, rfl⟩

/-- To read a file there has to be one, and the system has to give leave. -/
theorem read_eq_ok_iff {bytes : ByteArray} :
    d.read path = .ok bytes ↔ ∃ l, d.locate path = .ok l ∧
      d.entry? l = some (.file bytes) ∧ d.permit .read l = .ok () := by
  simp only [← openFile_eq_ok_iff, read, bind_eq_ok_iff, Prod.exists]
  constructor
  · rintro ⟨l, content, hopen, h⟩
    obtain rfl := Except.ok.inj h
    exact ⟨l, hopen⟩
  · rintro ⟨l, hopen⟩
    exact ⟨l, bytes, hopen, rfl⟩

theorem content?_of_read {bytes : ByteArray} (h : d.read path = .ok bytes) :
    d.content? path = some bytes := by
  obtain ⟨l, hlocate, hentry, -⟩ := read_eq_ok_iff.mp h
  exact content?_eq_some_iff.mpr ⟨l, hlocate, hentry⟩

theorem readText_eq_ok_iff {text : String} :
    d.readText path = .ok text ↔ d.read path = .ok text.toUTF8 := by
  unfold readText
  cases d.read path with
  | error fault => simp
  | ok bytes =>
    rw [Except.ok.injEq, eq_comm (a := bytes), ← fromUTF8?_eq_some_iff]
    cases h : String.fromUTF8? bytes <;> simp [h]

theorem readText_eq_error_iff {fault : DiskFault} :
    d.readText path = .error fault ↔ d.read path = .error fault ∨
      ∃ bytes, d.read path = .ok bytes ∧ String.fromUTF8? bytes = none ∧
        fault = .notText := by
  unfold readText
  cases d.read path with
  | error fault => simp
  | ok bytes => cases h : String.fromUTF8? bytes <;> simp [h, eq_comm]

/-- What is there is a directory, or the system has a reason not to have it
read. -/
theorem fault_of_read (hthere : d.contains path = true) {fault : DiskFault}
    (h : d.read path = .error fault) :
    fault = .isDirectory ∨ ∃ reason, fault = .refused reason := by
  obtain ⟨⟨l, e⟩, hfind⟩ := isOk_iff.mp hthere
  obtain hopen | ⟨_, -, h⟩ := error_of_bind h
  · obtain hlost | ⟨_, hfound, h⟩ := error_of_bind hopen
    · simp [hfind] at hlost
    · obtain rfl := Except.ok.inj (hfind.symm.trans hfound)
      obtain hleave | ⟨⟨⟩, -, h⟩ := error_of_bind h
      · exact .inr (reason_of_permit hleave)
      · cases e with
        | file content => cases h
        | directory => exact .inl (Except.error.inj h).symm
  · cases h

theorem of_write {content : ByteArray} (h : d.write path content = .ok after) :
    ∃ l, d.target path = .ok l ∧ d.permit .write l = .ok () ∧
      after = d.set l (.file content) := by
  obtain ⟨l, htarget, h⟩ := ok_of_bind h
  obtain ⟨⟨⟩, hleave, h⟩ := ok_of_bind h
  exact ⟨l, htarget, hleave, (Except.ok.inj h).symm⟩

theorem of_remove (h : d.remove path = .ok after) :
    ∃ l content, d.locate path = .ok l ∧ d.entry? l = some (.file content) ∧
      d.permit .remove l = .ok () ∧ after = d.clear l := by
  obtain ⟨⟨l, content⟩, hopen, h⟩ := ok_of_bind h
  obtain ⟨hlocate, hentry, hleave⟩ := openFile_eq_ok_iff.mp hopen
  exact ⟨l, content, hlocate, hentry, hleave, (Except.ok.inj h).symm⟩

/-- `after` is `d` with other content in the file at the end of a path, or
with no such file. -/
structure Replaced (d : Disk) (path : String) (bytes : Option ByteArray)
    (after : Disk) : Prop where
  same : SameDirectories d after
  refusals : after.refusals = d.refusals
  leads : bytes.isSome → ∃ l, d.locate path = .ok l
  here : ∀ l, d.locate path = .ok l → after.entry? l = bytes.map .file
  elsewhere : ∀ l, d.locate path ≠ .ok l → after.entry? l = d.entry? l

/-- Something is put at the one place to which a path leads. -/
theorem Replaced.of_place {l : Location} {bytes : Option ByteArray}
    (hlocate : d.locate path = .ok l) (hl : d.entry? l ≠ some .directory)
    (hhome : after.home = d.home) (hrefusals : after.refusals = d.refusals)
    (hentry : ∀ k, after.entry? k
      = if k = l then bytes.map .file else d.entry? k) :
    Replaced d path bytes after where
  same := .of_place hhome hl (by cases bytes <;> simp) hentry
  refusals := hrefusals
  leads _ := ⟨l, hlocate⟩
  here k hk := by
    obtain rfl := Except.ok.inj (hlocate.symm.trans hk)
    rw [hentry, if_pos rfl]
  elsewhere k hk := by
    have hne : k ≠ l := by
      rintro rfl
      exact hk hlocate
    rw [hentry, if_neg hne]

theorem replaced_write {content : ByteArray}
    (h : d.write path content = .ok after) :
    Replaced d path (some content) after := by
  obtain ⟨l, htarget, -, rfl⟩ := of_write h
  obtain ⟨hlocate, hdir⟩ := locate_of_target htarget
  exact .of_place hlocate hdir (home_set d l _) (refusals_set d l _)
    (entry?_set d hdir _)

theorem replaced_remove (h : d.remove path = .ok after) :
    Replaced d path none after := by
  obtain ⟨l, content, hlocate, hentry, -, rfl⟩ := of_remove h
  have hdir : d.entry? l ≠ some .directory := by simp [hentry]
  exact .of_place hlocate hdir rfl rfl (entry?_clear d hdir)

/-- **A file that was written** holds what was written. -/
theorem Replaced.content? {content : ByteArray}
    (h : Replaced d path (some content) after) :
    after.content? path = some content := by
  obtain ⟨l, hlocate⟩ := h.leads rfl
  exact content?_eq_some_iff.mpr
    ⟨l, h.same.locate_iff.mpr hlocate, h.here l hlocate⟩

/-- **A file that was removed** is not there any more. -/
theorem Replaced.contains (h : Replaced d path none after) :
    after.contains path = false := by
  rw [Bool.eq_false_iff]
  intro hcontains
  obtain ⟨l, e, hlocate, hentry⟩ := contains_iff.mp hcontains
  rw [h.here l (h.same.locate_iff.mp hlocate)] at hentry
  simp at hentry

/-- A file is untouched where another one was written or removed. -/
theorem Replaced.content?_apart {other : String} {bytes : Option ByteArray}
    (h : Replaced d path bytes after)
    (hapart : ∀ l, d.locate path = .ok l → d.locate other ≠ .ok l) :
    after.content? other = d.content? other := by
  have hentry : ∀ l, d.locate other = .ok l → after.entry? l = d.entry? l :=
    fun l hother => h.elsewhere l fun hl => hapart l hl hother
  refine Option.ext fun content => ?_
  rw [content?_eq_some_iff, content?_eq_some_iff]
  constructor
  · rintro ⟨l, hlocate, hfile⟩
    have hother := h.same.locate_iff.mp hlocate
    exact ⟨l, hother, by rw [← hentry l hother, hfile]⟩
  · rintro ⟨l, hother, hfile⟩
    exact ⟨l, h.same.locate_iff.mpr hother, by rw [hentry l hother, hfile]⟩

/-- Two files that are not the same are replaced in either order. -/
theorem Replaced.comm {first second first' second' : Disk} {other : String}
    {a b : Option ByteArray}
    (hapart : ∀ l, d.locate path = .ok l → d.locate other ≠ .ok l)
    (hfirst : Replaced d path a first) (hsecond : Replaced first other b second)
    (hfirst' : Replaced d other b first')
    (hsecond' : Replaced first' path a second') (l : Location) :
    second'.entry? l = second.entry? l := by
  have hother : first.locate other = .ok l ↔ d.locate other = .ok l :=
    hfirst.same.locate_iff
  have hpath : first'.locate path = .ok l ↔ d.locate path = .ok l :=
    hfirst'.same.locate_iff
  by_cases hl : d.locate path = .ok l
  · rw [hsecond'.here l (hpath.mpr hl),
      hsecond.elsewhere l fun h => hapart l hl (hother.mp h), hfirst.here l hl]
  · rw [hsecond'.elsewhere l fun h => hl (hpath.mp h)]
    by_cases hl' : d.locate other = .ok l
    · rw [hfirst'.here l hl', hsecond.here l (hother.mpr hl')]
    · rw [hfirst'.elsewhere l hl', hsecond.elsewhere l fun h => hl' (hother.mp h),
        hfirst.elsewhere l hl]

/-- `after` is `d`, but for what is at the end of some paths. -/
structure ChangesOnly (d : Disk) (paths : List String) (after : Disk) : Prop where
  same : SameDirectories d after
  refusals : after.refusals = d.refusals
  elsewhere : ∀ l, (∀ path ∈ paths, d.locate path ≠ .ok l) →
    after.entry? l = d.entry? l

theorem ChangesOnly.refl (d : Disk) (paths : List String) :
    ChangesOnly d paths d :=
  ⟨.refl d, rfl, fun _ _ => rfl⟩

theorem ChangesOnly.trans {last : Disk} {paths : List String}
    (h : ChangesOnly d paths after) (g : ChangesOnly after paths last) :
    ChangesOnly d paths last where
  same := h.same.trans g.same
  refusals := g.refusals.trans h.refusals
  elsewhere l hl := by
    have hafter : ∀ path ∈ paths, after.locate path ≠ .ok l :=
      fun path hpath hlocate => hl path hpath (h.same.locate_iff.mp hlocate)
    exact (g.elsewhere l hafter).trans (h.elsewhere l hl)

theorem Replaced.changesOnly {paths : List String} {bytes : Option ByteArray}
    (h : Replaced d path bytes after) (hpath : path ∈ paths) :
    ChangesOnly d paths after where
  same := h.same
  refusals := h.refusals
  elsewhere l hl := h.elsewhere l (hl path hpath)

/-- What is at a path: a file with its bytes, or nothing at all. -/
def Found (d : Disk) (path : String) : Option ByteArray → Prop
  | some content => d.content? path = some content
  | none => d.contains path = false

/-- What a file is replaced by is found there afterwards. -/
theorem Replaced.found {bytes : Option ByteArray}
    (h : Replaced d path bytes after) : after.Found path bytes := by
  cases bytes with
  | some content => exact h.content?
  | none => exact h.contains

/-- What is found at a path is what stands at the place to which it leads; a
file is found only if the path leads somewhere. -/
theorem found_iff {bytes : Option ByteArray} :
    d.Found path bytes ↔ (bytes.isSome → ∃ l, d.locate path = .ok l) ∧
      ∀ l, d.locate path = .ok l → d.entry? l = bytes.map .file := by
  cases bytes with
  | some content =>
    rw [Found, content?_eq_some_iff]
    constructor
    · rintro ⟨l, hlocate, hentry⟩
      refine ⟨fun _ => ⟨l, hlocate⟩, fun k hk => ?_⟩
      obtain rfl := Except.ok.inj (hlocate.symm.trans hk)
      exact hentry
    · rintro ⟨hleads, hentry⟩
      obtain ⟨l, hlocate⟩ := hleads rfl
      exact ⟨l, hlocate, hentry l hlocate⟩
  | none =>
    rw [Found, Bool.eq_false_iff, ne_eq, contains_iff]
    constructor
    · intro habsent
      refine ⟨by simp, fun l hlocate => ?_⟩
      cases hentry : d.entry? l with
      | none => rfl
      | some e => exact absurd ⟨l, e, hlocate, hentry⟩ habsent
    · rintro ⟨-, hentry⟩ ⟨l, e, hlocate, hthere⟩
      simp [hentry l hlocate] at hthere

/-- What is found at a path is still found there when the same stands at the
place to which it leads. -/
theorem SameDirectories.found {bytes : Option ByteArray}
    (h : SameDirectories d after) (hfound : d.Found path bytes)
    (hentry : ∀ l, d.locate path = .ok l → after.entry? l = d.entry? l) :
    after.Found path bytes := by
  obtain ⟨hleads, hhere⟩ := found_iff.mp hfound
  refine found_iff.mpr ⟨fun hsome => ?_, fun l hl => ?_⟩
  · obtain ⟨l, hl⟩ := hleads hsome
    exact ⟨l, h.locate hl⟩
  · have hbefore := h.locate_iff.mp hl
    rw [hentry l hbefore, hhere l hbefore]

/-- What is found at another path, or the same, and is put there, is still found
there. -/
theorem Replaced.found_of_found {other : String} {bytes : Option ByteArray}
    (h : Replaced d path bytes after) (hother : d.Found other bytes) :
    after.Found other bytes := by
  refine h.same.found hother fun l hl => ?_
  by_cases hplace : d.locate path = .ok l
  · rw [h.here l hplace, (found_iff.mp hother).2 l hl]
  · exact h.elsewhere l hplace

/-- What is found at a path that leads to another place is still found there. -/
theorem Replaced.found_apart {other : String} {bytes kept : Option ByteArray}
    (h : Replaced d path bytes after)
    (hapart : ∀ l, d.locate path = .ok l → d.locate other ≠ .ok l)
    (hother : d.Found other kept) : after.Found other kept :=
  h.same.found hother fun l hl => h.elsewhere l fun hplace => hapart l hplace hl

/-- The bytes of a file; a file that is not there has none. -/
def Holds (d : Disk) (path : String) (bytes : ByteArray) : Prop :=
  d.content? path = some bytes ∨ d.contains path = false ∧ bytes = .empty

theorem contains_of_content? {bytes : ByteArray} (h : d.content? path = some bytes) :
    d.contains path = true := by
  obtain ⟨l, hlocate, hentry⟩ := content?_eq_some_iff.mp h
  exact contains_iff.mpr ⟨l, _, hlocate, hentry⟩

theorem contains_of_read {bytes : ByteArray} (h : d.read path = .ok bytes) :
    d.contains path = true :=
  contains_of_content? (content?_of_read h)

theorem Found.eq {a b : Option ByteArray} (ha : d.Found path a)
    (hb : d.Found path b) : a = b := by
  cases a <;> cases b
  · rfl
  · exact absurd (contains_of_content? hb) (by simp [show d.contains path = false from ha])
  · exact absurd (contains_of_content? ha) (by simp [show d.contains path = false from hb])
  · exact Eq.trans (Eq.symm ha) hb

theorem Found.eq_some_iff {bytes : Option ByteArray} {content : ByteArray}
    (h : d.Found path bytes) : bytes = some content ↔ d.content? path = some content := by
  constructor
  · rintro rfl
    exact h
  · intro hcontent
    exact h.eq hcontent

theorem Found.holds {bytes : Option ByteArray} (h : d.Found path bytes) :
    d.Holds path (bytes.getD .empty) := by
  cases bytes with
  | some content => exact .inl h
  | none => exact .inr ⟨h, rfl⟩

theorem Holds.eq {a b : ByteArray} (ha : d.Holds path a) (hb : d.Holds path b) :
    a = b := by
  rcases ha with ha | ⟨ha, rfl⟩ <;> rcases hb with hb | ⟨hb, rfl⟩
  · exact Option.some.inj (ha.symm.trans hb)
  · simp [contains_of_content? ha] at hb
  · simp [contains_of_content? hb] at ha
  · rfl

end Disk

namespace FileStore

variable {s : FileStore} {side : Side} {bytes : Option ByteArray} {disk : Disk}

/-- What writing the file of a side does to the disk. -/
theorem replaced_writeFile (h : s.writeFile side bytes = .ok disk) :
    Disk.Replaced s.disk (s.paths.side side) bytes disk := by
  unfold writeFile at h
  cases bytes with
  | some content =>
    simp only at h
    split at h
    · rename_i hwrite
      obtain rfl := Except.ok.inj h
      exact Disk.replaced_write hwrite
    · simp at h
  | none =>
    simp only at h
    split at h
    · rename_i houtcome
      obtain rfl := Except.ok.inj h
      split at houtcome
      · exact Disk.replaced_remove houtcome
      · -- There was no such file, and there still is none.
        rename_i habsent
        obtain rfl := Except.ok.inj houtcome
        refine ⟨.refl s.disk, rfl, by simp, fun l hl => ?_, fun _ _ => rfl⟩
        cases hentry : s.disk.entry? l with
        | none => rfl
        | some e => exact absurd (Disk.contains_iff.mpr ⟨l, e, hl, hentry⟩) habsent
    · simp at h

/-- Whether a file can be written depends on nothing but the directories, and
on what the system refuses. -/
theorem writeFile_of_sameDirectories {t : FileStore} {content : ByteArray}
    (hpaths : t.paths = s.paths) (hsame : Disk.SameDirectories s.disk t.disk)
    (hrefusals : t.disk.refusals = s.disk.refusals)
    (h : s.writeFile side (some content) = .ok disk) :
    ∃ after, t.writeFile side (some content) = .ok after := by
  unfold writeFile at h ⊢
  rw [hpaths]
  simp only at h ⊢
  split at h
  · rename_i hwrite
    obtain ⟨l, htarget, hleave, -⟩ := Disk.of_write hwrite
    have hleave' : t.disk.permit .write l = .ok () := by
      rw [Disk.permit, hrefusals]
      exact hleave
    simp only [Disk.write, hsame.target htarget, hleave', bind, Except.bind]
    exact ⟨_, rfl⟩
  · simp at h

/-- What is saved to the file of a side is in it afterwards. -/
theorem holds_of_writeFile (h : s.writeFile side bytes = .ok disk) :
    disk.Holds (s.paths.side side) (bytes.getD .empty) :=
  (replaced_writeFile h).found.holds

/-- The bytes in the file of a side, if there is such a file. -/
def file (side : Side) (s : FileStore) : Option ByteArray :=
  s.disk.content? (s.paths.side side)

/-- The two sides are different files. -/
def Apart (s : FileStore) : Prop :=
  ∀ l, s.disk.locate s.paths.left = .ok l → s.disk.locate s.paths.right ≠ .ok l

theorem Apart.on_side (h : s.Apart) (side : Side) :
    ∀ l, s.disk.locate (s.paths.side side.opposite) = .ok l →
      s.disk.locate (s.paths.side side) ≠ .ok l := by
  intro l hother hside
  cases side with
  | left => exact h l hside hother
  | right => exact h l hother hside

/-- The same files are different as long as the directories stay. -/
theorem Apart.of_sameDirectories {t : FileStore} (h : s.Apart)
    (hpaths : t.paths = s.paths)
    (hsame : Disk.SameDirectories s.disk t.disk) : t.Apart := by
  intro l hleft hright
  rw [hpaths] at hleft hright
  exact h l (hsame.locate_iff.mp hleft) (hsame.locate_iff.mp hright)

end FileStore

end Reconcile
