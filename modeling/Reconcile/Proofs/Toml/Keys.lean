/-
Reconcile.Proofs.Toml.Keys — in a document every key has one value.

The tree of a document is built of lists of keys with their values. A statement
puts a value where a key is free, or changes what the key has already, so that no
table ever has a key twice, at whatever depth it stands (`keyed_of_parse?`).

* `Table.keyed_update` — the invariant goes down a path and up again.
* `keyed_of_value?` — values that are read, by induction on how deep brackets may
  be nested.
-/
import Mathlib.Data.List.Nodup
import Reconcile.Toml.Reader

namespace Reconcile.Toml

/-! ## Tables without a key that is there twice -/

/-- A value in which no table has a key twice. -/
inductive Value.Keyed : Value → Prop where
  | string (text : String) : Keyed (.string text)
  | integer (value : Int) : Keyed (.integer value)
  | float (written : String) : Keyed (.float written)
  | boolean (value : Bool) : Keyed (.boolean value)
  | dateTime (written : String) : Keyed (.dateTime written)
  | array {items : List Value} (items_keyed : ∀ v ∈ items, Keyed v) : Keyed (.array items)
  | table {origin : Origin} {entries : List (String × Value)}
      (nodup : (entries.map Prod.fst).Nodup) (values : ∀ entry ∈ entries, Keyed entry.2) :
      Keyed (.table origin entries)
  | tables {items : List (List (String × Value))}
      (nodup : ∀ t ∈ items, (t.map Prod.fst).Nodup)
      (values : ∀ t ∈ items, ∀ entry ∈ t, Keyed entry.2) : Keyed (.tables items)

namespace Table

/-- A table in which no key is there twice, nor in any table below it. -/
structure Keyed (t : Table) : Prop where
  nodup : (t.map Prod.fst).Nodup
  values : ∀ entry ∈ t, entry.2.Keyed

theorem keyed_nil : Keyed [] := ⟨List.nodup_nil, by simp⟩

theorem keyed_table_iff {origin : Origin} {t : Table} :
    (Value.table origin t).Keyed ↔ Keyed t :=
  ⟨fun h => by cases h with | table nodup values => exact ⟨nodup, values⟩,
    fun h => .table h.nodup h.values⟩

theorem keyed_tables_iff {items : List Table} :
    (Value.tables items).Keyed ↔ ∀ t ∈ items, Keyed t := by
  constructor
  · rintro (_ | _ | _ | _ | _ | _ | _ | ⟨hnodup, hvalues⟩) t ht
    exact ⟨hnodup t ht, hvalues t ht⟩
  · exact fun h => .tables (fun t ht => (h t ht).nodup) fun t ht => (h t ht).values

variable {t t' : Table} {key : String} {v : Value}

theorem mem_of_get? (h : t.get? key = some v) : (key, v) ∈ t := by
  obtain ⟨before, after, rfl, -⟩ := List.lookup_eq_some_iff.mp h
  simp

/-- A key that is there once has the value that it is there with. -/
theorem get?_of_mem (hkeys : (t.map Prod.fst).Nodup) (h : (key, v) ∈ t) :
    t.get? key = some v := by
  cases hget : t.get? key with
  | none =>
    have hne := List.lookup_eq_none_iff.mp hget _ h
    simp at hne
  | some v' =>
    obtain ⟨-, heq⟩ := Prod.mk.inj (List.inj_on_of_nodup_map hkeys (mem_of_get? hget) h rfl)
    rw [heq]

theorem Keyed.get? (ht : Keyed t) (h : t.get? key = some v) : v.Keyed :=
  ht.values _ (mem_of_get? h)

theorem notMem_of_get? (h : t.get? key = none) : key ∉ t.map Prod.fst := by
  intro hmem
  obtain ⟨entry, hentry, rfl⟩ := List.mem_map.mp hmem
  simpa using List.lookup_eq_none_iff.mp h entry hentry

/-- A value is put in the place of the one that its key has, or behind all others. -/
theorem Keyed.put (ht : Keyed t) (hv : v.Keyed) : Keyed (t.put key v) := by
  unfold Table.put
  split
  · refine ⟨?_, fun entry hentry => ?_⟩
    · have hkeys : (t.map fun entry => if entry.1 = key then (key, v) else entry).map
          Prod.fst = t.map Prod.fst := by
        rw [List.map_map]
        refine List.map_congr_left fun entry _ => ?_
        by_cases h : entry.1 = key <;> simp [h]
      rw [hkeys]
      exact ht.nodup
    · obtain ⟨old, hold, rfl⟩ := List.mem_map.mp hentry
      split
      · exact hv
      · exact ht.values old hold
  · rename_i hfree
    have hnone : t.get? key = none := by simpa using hfree
    refine ⟨?_, fun entry hentry => ?_⟩
    · rw [List.map_append, List.nodup_append]
      refine ⟨ht.nodup, by simp, fun k hk k' hk' heq => ?_⟩
      rw [List.map_singleton, List.mem_singleton] at hk'
      subst heq hk'
      exact notMem_of_get? hnone hk
    · rcases List.mem_append.mp hentry with hentry | hentry
      · exact ht.values entry hentry
      · rw [List.mem_singleton.mp hentry]
        exact hv

/-! ## Statements -/

/-- What changes the table at the end of a path, and keeps its keys apart, keeps those
of all tables on the way apart. -/
theorem keyed_update {way : Origin} {change : Origin → Table → Option Table}
    (hchange : ∀ {origin t t'}, Keyed t → change origin t = some t' → Keyed t')
    {path : List String} {origin : Origin} (ht : Keyed t)
    (h : update way change path origin t = some t') : Keyed t' := by
  induction path generalizing origin t t' with
  | nil => exact hchange ht h
  | cons key path ih =>
    rw [update] at h
    split at h
    · obtain ⟨inner, hinner, h⟩ := Option.bind_eq_some_iff.mp h
      obtain rfl := Option.some.inj h
      exact ht.put (keyed_table_iff.mpr (ih keyed_nil hinner))
    · rename_i hget
      split at h
      · simp at h
      · obtain ⟨inner, hinner, h⟩ := Option.bind_eq_some_iff.mp h
        obtain rfl := Option.some.inj h
        exact ht.put (keyed_table_iff.mpr (ih (keyed_table_iff.mp (ht.get? hget)) hinner))
    · rename_i items hget
      have hitems := keyed_tables_iff.mp (ht.get? hget)
      split at h
      · simp at h
      · rename_i last hlast
        obtain ⟨changed, hchanged, h⟩ := Option.bind_eq_some_iff.mp h
        obtain rfl := Option.some.inj h
        have hnew := ih (hitems last (List.mem_of_getLast? hlast)) hchanged
        refine ht.put (keyed_tables_iff.mpr fun t hmem => ?_)
        rcases List.mem_append.mp hmem with hmem | hmem
        · exact hitems t (List.dropLast_subset items hmem)
        · rw [List.mem_singleton.mp hmem]
          exact hnew
    · simp at h

theorem Keyed.assign {path : List String} (ht : Keyed t) (hv : v.Keyed)
    (h : t.assign path v = some t') : Keyed t' := by
  unfold Table.assign at h
  split at h
  · simp at h
  · refine keyed_update (fun hinner h => ?_) ht h
    split at h
    · simp at h
    · split at h
      · simp at h
      · obtain rfl := Option.some.inj h
        exact hinner.put hv

theorem Keyed.openHeader {path : List String} (ht : Keyed t)
    (h : t.openHeader path = some t') : Keyed t' := by
  unfold Table.openHeader at h
  split at h
  · simp at h
  · refine keyed_update (fun hparent h => ?_) ht h
    split at h
    · obtain rfl := Option.some.inj h
      exact hparent.put (keyed_table_iff.mpr keyed_nil)
    · rename_i hget
      obtain rfl := Option.some.inj h
      exact hparent.put (keyed_table_iff.mpr (keyed_table_iff.mp (hparent.get? hget)))
    · simp at h

theorem Keyed.openItem {path : List String} (ht : Keyed t)
    (h : t.openItem path = some t') : Keyed t' := by
  unfold Table.openItem at h
  split at h
  · simp at h
  · refine keyed_update (fun hparent h => ?_) ht h
    split at h
    · obtain rfl := Option.some.inj h
      exact hparent.put (keyed_tables_iff.mpr (by simp [keyed_nil]))
    · rename_i hget
      obtain rfl := Option.some.inj h
      refine hparent.put (keyed_tables_iff.mpr fun t hmem => ?_)
      rcases List.mem_append.mp hmem with hmem | hmem
      · exact keyed_tables_iff.mp (hparent.get? hget) t hmem
      · rw [List.mem_singleton.mp hmem]
        exact keyed_nil
    · simp at h

/-- A statement whose value, if it has one, has no table with a key twice. -/
def StatementKeyed : Statement → Prop
  | .assign _ value => value.Keyed
  | .header _ | .item _ => True

theorem Keyed.step {current current' : List String} {s : Statement} (ht : Keyed t)
    (hs : StatementKeyed s) (h : t.step current s = some (t', current')) : Keyed t' := by
  cases s with
  | assign path value =>
    obtain ⟨changed, hchanged, h⟩ := Option.bind_eq_some_iff.mp h
    obtain ⟨rfl, -⟩ := Prod.mk.inj (Option.some.inj h)
    exact keyed_update (fun hinner h => hinner.assign hs h) ht hchanged
  | header path =>
    obtain ⟨changed, hchanged, h⟩ := Option.bind_eq_some_iff.mp h
    obtain ⟨rfl, -⟩ := Prod.mk.inj (Option.some.inj h)
    exact ht.openHeader hchanged
  | item path =>
    obtain ⟨changed, hchanged, h⟩ := Option.bind_eq_some_iff.mp h
    obtain ⟨rfl, -⟩ := Prod.mk.inj (Option.some.inj h)
    exact ht.openItem hchanged

theorem Keyed.run {current : List String} {ss : List Statement} (ht : Keyed t)
    (hss : ∀ s ∈ ss, StatementKeyed s) (h : t.run current ss = some t') : Keyed t' := by
  induction ss generalizing t current with
  | nil => exact Option.some.inj h ▸ ht
  | cons s ss ih =>
    obtain ⟨hs, hss⟩ := List.forall_mem_cons.mp hss
    rw [Table.run] at h
    split at h
    · simp at h
    · rename_i next _ hstep
      exact ih (ht.step hs hstep) hss h

theorem keyed_ofPairs {pairs : List (List String × Value)} (ht : Keyed t)
    (hpairs : ∀ p ∈ pairs, p.2.Keyed)
    (h : pairs.foldlM (fun t p => t.assign p.1 p.2) t = some t') : Keyed t' := by
  induction pairs generalizing t with
  | nil => exact Option.some.inj h ▸ ht
  | cons p pairs ih =>
    obtain ⟨hp, hpairs⟩ := List.forall_mem_cons.mp hpairs
    rw [List.foldlM_cons] at h
    obtain ⟨next, hnext, h⟩ := Option.bind_eq_some_iff.mp h
    exact ih (ht.assign hp hnext) hpairs h

end Table

/-! ## Reading -/

open Table (StatementKeyed)

variable {cs left : List Char} {v : Value}

theorem keyed_of_scalar? (h : scalar? cs = some v) : v.Keyed := by
  unfold scalar? at h
  split at h
  · exact Option.some.inj h ▸ .boolean _
  · split at h
    · exact Option.some.inj h ▸ .boolean _
    · split at h
      · exact Option.some.inj h ▸ .dateTime _
      · split at h
        · exact Option.some.inj h ▸ .float _
        · obtain ⟨n, -, rfl⟩ := Option.map_eq_some_iff.mp h
          exact .integer n

theorem keyed_of_word? (h : word? cs = some (v, left)) : v.Keyed := by
  simp only [word?] at h
  split at h
  · -- a date with a time behind it
    rename_i read hread
    obtain rfl := Option.some.inj h
    split at hread
    · split at hread
      · obtain ⟨rfl, -⟩ := Prod.mk.inj (Option.some.inj hread)
        exact .dateTime _
      · simp at hread
    · simp at hread
  · obtain ⟨found, hfound, heq⟩ := Option.map_eq_some_iff.mp h
    obtain ⟨rfl, -⟩ := Prod.mk.inj heq
    exact keyed_of_scalar? hfound

section Brackets

variable {value : List Char → Reads Value}
  (hvalue : ∀ {cs v left}, value cs = some (v, left) → v.Keyed)

include hvalue

theorem keyed_of_arrayItems {vs : List Value} (h : arrayItems value cs = some (vs, left)) :
    ∀ v ∈ vs, v.Keyed := by
  fun_induction arrayItems value cs generalizing vs left with
  | case1 =>
    obtain ⟨rfl, -⟩ := Prod.mk.inj (Option.some.inj h)
    simp
  | case3 _ _ _ _ _ _ hread =>
    obtain ⟨rfl, -⟩ := Prod.mk.inj (Option.some.inj h)
    simpa using hvalue hread
  | case4 _ _ _ _ _ _ _ hread ih =>
    obtain ⟨⟨more, left⟩, hmore, heq⟩ := Option.map_eq_some_iff.mp h
    obtain ⟨rfl, -⟩ := Prod.mk.inj heq
    exact List.forall_mem_cons.mpr ⟨hvalue hread, ih hmore⟩
  | _ => simp at h

theorem keyed_of_pair? {p : List String × Value} (h : pair? value cs = some (p, left)) :
    p.2.Keyed := by
  obtain ⟨⟨path, rest⟩, -, h⟩ := Option.bind_eq_some_iff.mp h
  obtain ⟨rest, -, h⟩ := Option.bind_eq_some_iff.mp h
  obtain ⟨⟨v, left⟩, hread, h⟩ := Option.bind_eq_some_iff.mp h
  obtain ⟨rfl, -⟩ := Prod.mk.inj (Option.some.inj h)
  exact hvalue hread

theorem keyed_of_inlinePairs {ps : List (List String × Value)}
    (h : inlinePairs value cs = some (ps, left)) : ∀ p ∈ ps, p.2.Keyed := by
  fun_induction inlinePairs value cs generalizing ps left with
  | case2 _ _ _ hread =>
    obtain ⟨rfl, -⟩ := Prod.mk.inj (Option.some.inj h)
    simpa using keyed_of_pair? hvalue hread
  | case3 _ _ _ hread _ _ _ ih =>
    obtain ⟨⟨more, left⟩, hmore, heq⟩ := Option.map_eq_some_iff.mp h
    obtain ⟨rfl, -⟩ := Prod.mk.inj heq
    exact List.forall_mem_cons.mpr ⟨keyed_of_pair? hvalue hread, ih hmore⟩
  | _ => simp at h

end Brackets

theorem keyed_of_string? (h : (string? cs).map (fun (s, left) => (Value.string s, left)) =
    some (v, left)) : v.Keyed := by
  obtain ⟨⟨text, left⟩, -, heq⟩ := Option.map_eq_some_iff.mp h
  obtain ⟨rfl, -⟩ := Prod.mk.inj heq
  exact .string text

/-- Values with brackets in brackets, from the inside out. -/
theorem keyed_of_value? {depth : Nat} (h : value? depth cs = some (v, left)) : v.Keyed := by
  induction depth generalizing cs v left with
  | zero =>
    unfold value? at h
    split at h
    · exact keyed_of_string? h
    · exact keyed_of_string? h
    · simp at h
    · simp at h
    · exact keyed_of_word? h
  | succ depth ih =>
    unfold value? at h
    split at h
    · exact keyed_of_string? h
    · exact keyed_of_string? h
    · obtain ⟨⟨items, left⟩, hitems, heq⟩ := Option.map_eq_some_iff.mp h
      obtain ⟨rfl, -⟩ := Prod.mk.inj heq
      exact .array (keyed_of_arrayItems ih hitems)
    · simp only at h
      split at h
      · obtain ⟨rfl, -⟩ := Prod.mk.inj (Option.some.inj h)
        exact Table.keyed_table_iff.mpr Table.keyed_nil
      · split at h
        · simp at h
        · rename_i hpairs
          obtain ⟨t, ht, heq⟩ := Option.map_eq_some_iff.mp h
          obtain ⟨rfl, -⟩ := Prod.mk.inj heq
          exact Table.keyed_table_iff.mpr
            (Table.keyed_ofPairs Table.keyed_nil (keyed_of_inlinePairs ih hpairs) ht)
    · exact keyed_of_word? h

theorem keyed_of_headerLine? {s : Statement} (h : headerLine? cs = some (s, left)) :
    StatementKeyed s := by
  unfold headerLine? at h
  split at h
  · obtain ⟨⟨path, rest⟩, -, h⟩ := Option.bind_eq_some_iff.mp h
    obtain ⟨rest, -, h⟩ := Option.bind_eq_some_iff.mp h
    obtain ⟨rest, -, h⟩ := Option.bind_eq_some_iff.mp h
    obtain ⟨rfl, -⟩ := Prod.mk.inj (Option.some.inj h)
    trivial
  · obtain ⟨⟨path, rest⟩, -, h⟩ := Option.bind_eq_some_iff.mp h
    obtain ⟨rest, -, h⟩ := Option.bind_eq_some_iff.mp h
    obtain ⟨rfl, -⟩ := Prod.mk.inj (Option.some.inj h)
    trivial
  · simp at h

theorem keyed_of_assignment? {s : Statement} (h : assignment? cs = some (s, left)) :
    StatementKeyed s := by
  obtain ⟨⟨⟨path, v⟩, left⟩, hpair, heq⟩ := Option.map_eq_some_iff.mp h
  obtain ⟨rfl, -⟩ := Prod.mk.inj heq
  exact keyed_of_pair? keyed_of_value? hpair

theorem keyed_of_statement? {s : Statement} (h : statement? cs = some (s, left)) :
    StatementKeyed s := by
  simp only [statement?] at h
  split at h
  all_goals
    obtain ⟨⟨found, rest⟩, hfound, h⟩ := Option.bind_eq_some_iff.mp h
    obtain ⟨rest, -, h⟩ := Option.bind_eq_some_iff.mp h
    obtain ⟨rfl, -⟩ := Prod.mk.inj (Option.some.inj h)
  · exact keyed_of_headerLine? hfound
  · exact keyed_of_assignment? hfound

theorem keyed_of_statements {ss : List Statement} (h : statements cs = some ss) :
    ∀ s ∈ ss, StatementKeyed s := by
  fun_induction statements cs generalizing ss with
  | case1 =>
    obtain rfl := Option.some.inj h
    simp
  | case3 _ _ _ _ _ hstatement ih =>
    obtain ⟨more, hmore, rfl⟩ := Option.map_eq_some_iff.mp h
    exact List.forall_mem_cons.mpr ⟨keyed_of_statement? hstatement, ih hmore⟩
  | _ => simp at h

/-- **In a document every key has one value**, at whatever depth it stands. -/
theorem keyed_of_parse? {text : String} {t : Table} (h : parse? text = some t) :
    Table.Keyed t := by
  obtain ⟨ss, hss, h⟩ := Option.bind_eq_some_iff.mp h
  exact Table.keyed_nil.run (keyed_of_statements hss) h

end Reconcile.Toml
