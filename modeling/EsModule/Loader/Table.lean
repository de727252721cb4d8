import Std.Data.TreeMap.Basic
import Std.Data.TreeMap.Lemmas

/-!
# Tables with names as keys

What the loader keeps is kept under names: store ids, names of bindings, handles. A table lists its
entries in the order of the names, character by character.
-/

namespace EsModule

/-- A table with names as keys. -/
abbrev Table (α : Type) : Type := Std.TreeMap String α

namespace Table

/-- The table of some entries; of two entries with one name the later one counts. -/
def ofEntries {α : Type} (entries : List (String × α)) : Table α :=
  entries.foldl (fun t e => t.insert e.1 e.2) ∅

/-- A table with more entries, which take the place of those with the same names. -/
def addAll {α : Type} (t : Table α) (entries : List (String × α)) : Table α :=
  entries.foldl (fun t e => t.insert e.1 e.2) t

theorem getElem?_insert {α : Type} (t : Table α) (name name' : String) (a : α) :
    (t.insert name a)[name']? = if name = name' then some a else t[name']? := by
  rw [Std.TreeMap.getElem?_insert]
  simp only [Std.LawfulEqCmp.compare_eq_iff_eq]

theorem getElem?_erase {α : Type} (t : Table α) (name name' : String) :
    (t.erase name)[name']? = if name = name' then none else t[name']? := by
  rw [Std.TreeMap.getElem?_erase]
  simp only [Std.LawfulEqCmp.compare_eq_iff_eq]

theorem mem_keys {α : Type} {t : Table α} {name : String} {a : α} (h : t[name]? = some a) :
    name ∈ t.keys := by
  rw [Std.TreeMap.mem_keys, Std.TreeMap.mem_iff_isSome_getElem?, h]
  rfl

theorem values_eq_map_toList {α : Type} (t : Table α) : t.values = t.toList.map (·.2) := by
  have h : t.values = t.foldr (fun _ a values => a :: values) [] := rfl
  rw [h, Std.TreeMap.foldr_eq_foldr_toList]
  induction t.toList with
  | nil => rfl
  | cons e entries ih =>
    rw [List.foldr_cons, ih]
    rfl

theorem mem_values {α : Type} {t : Table α} {name : String} {a : α} (h : t[name]? = some a) :
    a ∈ t.values := by
  rw [values_eq_map_toList]
  exact List.mem_map_of_mem (f := Prod.snd) (Std.TreeMap.mem_toList_iff_getElem?_eq_some.mpr h)

/-- The names of a table are in order, and each is there once. -/
theorem keys_sorted {α : Type} (t : Table α) : t.keys.Pairwise (· < ·) := by
  have hkeys : t.keys.Pairwise fun a b => compare a b = .lt := Std.TreeMap.ordered_keys
  exact hkeys.imp compareOfLessAndEq_eq_lt.mp

/-- What a table with more entries has under a name: the last of these, or what it had. -/
theorem getElem?_addAll {α : Type} (t : Table α) (entries : List (String × α)) (name : String) :
    (t.addAll entries)[name]? = (entries.reverse.lookup name).or t[name]? := by
  unfold addAll
  induction entries generalizing t with
  | nil => rfl
  | cons e entries ih =>
    obtain ⟨key, value⟩ := e
    rw [List.foldl_cons, ih, getElem?_insert, List.reverse_cons, List.lookup_append]
    cases entries.reverse.lookup name with
    | some a => rfl
    | none =>
      by_cases heq : name = key
      · simp [heq]
      · simp [List.lookup_cons, beq_eq_false_iff_ne.mpr heq, Ne.symm heq]

/-- The names of a table with more entries. -/
theorem mem_keys_addAll {α : Type} (t : Table α) (entries : List (String × α)) (name : String) :
    name ∈ (t.addAll entries).keys ↔ name ∈ t.keys ∨ name ∈ entries.map (·.1) := by
  unfold addAll
  induction entries generalizing t with
  | nil => simp
  | cons e entries ih =>
    rw [List.foldl_cons, ih, Std.TreeMap.mem_keys, Std.TreeMap.mem_insert, Std.TreeMap.mem_keys,
      Std.LawfulEqCmp.compare_eq_iff_eq, List.map_cons, List.mem_cons, eq_comm]
    exact or_assoc.trans or_left_comm

/-- An entry of a table with more entries was there before, or it is one of those. -/
theorem mem_of_addAll {α : Type} {t : Table α} {entries : List (String × α)} {name : String} {a : α}
    (h : (t.addAll entries)[name]? = some a) : t[name]? = some a ∨ (name, a) ∈ entries := by
  unfold addAll at h
  induction entries generalizing t with
  | nil => exact .inl h
  | cons e entries ih =>
    rcases ih h with h | hmem
    · rw [getElem?_insert] at h
      split at h
      · rename_i heq
        cases h
        exact .inr (heq ▸ List.mem_cons_self)
      · exact .inl h
    · exact .inr (List.mem_cons_of_mem e hmem)

end Table

end EsModule
