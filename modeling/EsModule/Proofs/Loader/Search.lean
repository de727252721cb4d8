import EsModule.Loader.Graph
import Mathlib.Data.List.Nodup
import Mathlib.Logic.Relation

/-!
# Searching finds what can be reached

A search takes one name from its stack in each round, so it needs as many rounds as names are ever
put there. What comes next after a name is put there once, when the name is found. So the names that
are on the stack, together with those that follow the names not yet found, are never more than at
the beginning, and with that many rounds the search goes on until its stack is empty
(`searches_search`). Such a search finds exactly what can be reached (`Searches.mem_iff`), each name
once. For the waits of a graph, one round for each wait and one more are enough
(`Graph.reaches_iff`); for the modules that compiled modules depend on, one for each root and each
edge (`Graph.search_edges`).
-/

namespace EsModule.Loader

open Relation

variable {next : String → List String}

/-! ## The course of a search -/

/-- A search that goes on until its stack is empty, for as many rounds as that takes: from a stack
and the names that were found before it comes to the names that are found in the end. -/
inductive Searches (next : String → List String) :
    List String → List String → List String → Prop where
  | done {found} : Searches next [] found found
  /-- A name that was found before is passed over. -/
  | again {name stack found result} (hname : name ∈ found) (h : Searches next stack found result) :
      Searches next (name :: stack) found result
  /-- What comes next after any other name is put on the stack. -/
  | first {name stack found result} (hname : name ∉ found)
      (h : Searches next ((next name).reverse ++ stack) (found ++ [name]) result) :
      Searches next (name :: stack) found result

/-- Each name is found once. -/
theorem Searches.nodup {stack found result : List String} (h : Searches next stack found result)
    (hfound : found.Nodup) : result.Nodup := by
  induction h with
  | done => exact hfound
  | again _ _ ih => exact ih hfound
  | first hname _ ih =>
    refine ih (List.nodup_append'.mpr ⟨hfound, List.nodup_singleton _, ?_⟩)
    exact List.disjoint_singleton.mpr hname

/-- A search has one result. -/
theorem Searches.unique {stack found result result' : List String}
    (h : Searches next stack found result) (h' : Searches next stack found result') :
    result = result' := by
  induction h with
  | done =>
    cases h'
    rfl
  | again hname _ ih =>
    cases h' with
    | again _ h' => exact ih h'
    | first hnot => exact absurd hname hnot
  | first hname _ ih =>
    cases h' with
    | again hmem => exact absurd hmem hname
    | first _ h' => exact ih h'

/-- What is found at the end of a search. -/
structure Searched (next : String → List String) (stack found result : List String) : Prop where
  /-- All that it started from is found. -/
  started : ∀ a ∈ stack, a ∈ result
  /-- What was found before is kept. -/
  kept : ∀ a ∈ found, a ∈ result
  /-- All that comes next after a name is found, unless the name was found before. -/
  closed : ∀ a ∈ result, a ∈ found ∨ ∀ b ∈ next a, b ∈ result

theorem Searches.searched {stack found result : List String}
    (h : Searches next stack found result) : Searched next stack found result := by
  induction h with
  | done => exact ⟨nofun, fun _ h => h, fun _ h => .inl h⟩
  | again hname _ ih =>
    exact ⟨List.forall_mem_cons.mpr ⟨ih.kept _ hname, ih.started⟩, ih.kept, ih.closed⟩
  | @first name stack found result hname _ ih =>
    have hself := ih.kept name (List.mem_append_right _ (List.mem_singleton_self name))
    refine ⟨List.forall_mem_cons.mpr ⟨hself, fun a ha => ?_⟩, fun a ha => ?_, fun a ha => ?_⟩
    · exact ih.started a (List.mem_append_right _ ha)
    · exact ih.kept a (List.mem_append_left _ ha)
    · rcases ih.closed a ha with ha | hnext
      · rcases List.mem_append.mp ha with ha | ha
        · exact .inl ha
        · obtain rfl := List.mem_singleton.mp ha
          exact .inr fun b hb => ih.started b
            (List.mem_append_left _ (List.mem_reverse.mpr hb))
      · exact .inr hnext

/-- What holds of the names that a search starts from, and passes on to what comes next after a
name, holds of everything that is found. -/
theorem Searches.induct {P : String → Prop} (hnext : ∀ a, P a → ∀ b ∈ next a, P b)
    {stack found result : List String} (h : Searches next stack found result)
    (hstack : ∀ a ∈ stack, P a) (hfound : ∀ a ∈ found, P a) : ∀ a ∈ result, P a := by
  induction h with
  | done => exact hfound
  | again _ _ ih => exact ih (fun a ha => hstack a (List.mem_cons_of_mem _ ha)) hfound
  | @first name stack found result _ _ ih =>
    have hname := hstack name List.mem_cons_self
    refine ih (fun a ha => ?_) fun a ha => ?_
    · rcases List.mem_append.mp ha with ha | ha
      · exact hnext name hname a (List.mem_reverse.mp ha)
      · exact hstack a (List.mem_cons_of_mem _ ha)
    · rcases List.mem_append.mp ha with ha | ha
      · exact hfound a ha
      · exact List.mem_singleton.mp ha ▸ hname

/-- A search finds exactly the names that can be reached. -/
theorem Searches.mem_iff {stack result : List String} (h : Searches next stack [] result)
    (b : String) : b ∈ result ↔ ∃ a ∈ stack, ReflTransGen (fun a b => b ∈ next a) a b := by
  have hend := h.searched
  let P : String → Prop := fun b => ∃ a ∈ stack, ReflTransGen (fun a b => b ∈ next a) a b
  have hpasses : ∀ a, P a → ∀ b ∈ next a, P b := by
    rintro a ⟨s, hs, hreach⟩ b hb
    exact ⟨s, hs, hreach.tail hb⟩
  constructor
  · exact h.induct hpasses (fun a ha => ⟨a, ha, .refl⟩) (by simp) b
  · rintro ⟨a, ha, hreach⟩
    induction hreach with
    | refl => exact hend.started a ha
    | tail _ hnext ih => exact (hend.closed _ ih).elim nofun fun h => h _ hnext

/-! ## How many rounds a search takes -/

/-- A count of the names that can still be put on the stack, once some names were found: with each
name that is found it falls by what comes next after the name. -/
def Counts (next : String → List String) (left : List String → Nat) : Prop :=
  ∀ found name, name ∉ found → left (found ++ [name]) + (next name).length ≤ left found

/-- With as many rounds as names can be put on the stack, a search goes on until its stack is
empty. -/
theorem searches_search {left : List String → Nat} (hleft : Counts next left) {rounds : Nat}
    {stack found : List String} (hrounds : stack.length + left found ≤ rounds) :
    Searches next stack found (search next rounds stack found) := by
  induction rounds generalizing stack found with
  | zero =>
    obtain rfl := List.eq_nil_of_length_eq_zero (l := stack) (by omega)
    rw [search]
    exact .done
  | succ rounds ih =>
    cases stack with
    | nil =>
      rw [search]
      · exact .done
      · nofun
    | cons name stack =>
      rw [List.length_cons] at hrounds
      rw [search]
      split
      · rename_i hname
        exact .again hname (ih (by omega))
      · rename_i hname
        have hfalls := hleft found name hname
        have hlength : ((next name).reverse ++ stack).length =
            (next name).length + stack.length := by simp
        exact .first hname (ih (by omega))

/-- Where each of some entries leads from a name to others, those of the names that were not found
yet are a count. -/
theorem counts_entries {α : Type} (entries : List α) (key : α → String) (targets : α → List String)
    (hnext : ∀ name, (next name).length ≤
      ((entries.filter (key · = name)).flatMap targets).length) :
    Counts next fun found => ((entries.filter (key · ∉ found)).flatMap targets).length := by
  intro found name hname
  refine Nat.le_trans (Nat.add_le_add_left (hnext name) _) ?_
  clear hnext
  induction entries with
  | nil => simp
  | cons e entries ih =>
    -- an entry of the name itself is counted before and not afterwards
    by_cases he : key e = name
    · subst he
      simp [hname] at ih ⊢
      omega
    · by_cases hfound : key e ∈ found
      · simpa [he, hfound] using ih
      · simp [he, hfound] at ih ⊢
        omega

/-! ## Waits -/

namespace Graph

/-- One store id waits for another. -/
def WaitsOn (g : Graph) (waiter target : String) : Prop := ⟨waiter, target⟩ ∈ g.waits

theorem mem_waitsOf {g : Graph} {waiter target : String} :
    target ∈ g.waitsOf waiter ↔ g.WaitsOn waiter target := by
  unfold waitsOf WaitsOn
  rw [List.mem_map]
  constructor
  · rintro ⟨w, hw, rfl⟩
    obtain ⟨hw, heq⟩ := List.mem_filter.mp hw
    exact of_decide_eq_true heq ▸ hw
  · intro hw
    exact ⟨_, List.mem_filter.mpr ⟨hw, decide_eq_true rfl⟩, rfl⟩

/-- The waits of store ids that were not found yet are a count. -/
theorem counts_waits (g : Graph) :
    Counts g.waitsOf fun found => (g.waits.filter (·.waiter ∉ found)).length := by
  have hcount : Counts g.waitsOf fun found =>
      ((g.waits.filter (·.waiter ∉ found)).flatMap ([·.target])).length := by
    refine counts_entries g.waits (·.waiter) ([·.target]) fun name => Nat.le_of_eq ?_
    rw [waitsOf, ← List.map_eq_flatMap]
  simpa only [← List.map_eq_flatMap, List.length_map] using hcount

/-- One round for each wait and one more take a search along the waits to its end. -/
theorem search_waits (g : Graph) (source : String) : Searches g.waitsOf [source] []
    (search g.waitsOf (g.waits.length + 1) [source] []) := by
  refine searches_search g.counts_waits ?_
  have hall := List.length_filter_le (fun w : Wait => decide (w.waiter ∉ [])) g.waits
  simp only [List.length_singleton]
  omega

/-- Whether one store id waits for another, perhaps through others, is found out rightly. -/
theorem reaches_iff (g : Graph) (source target : String) :
    g.reaches source target = true ↔ ReflTransGen g.WaitsOn source target := by
  have hmem := (g.search_waits source).mem_iff target
  simp only [List.mem_singleton, exists_eq_left, mem_waitsOf] at hmem
  exact List.contains_iff_mem.trans hmem

/-! ## Dependencies -/

/-- A compiled module depends on another module. -/
def Depends (g : Graph) (storeId dependency : String) : Prop := dependency ∈ g.edgesOf storeId

/-- The edges from store ids that were not found yet are a count. -/
theorem counts_edges (g : Graph) : Counts g.edgesOf fun found =>
    ((g.edges.toList.filter (·.1 ∉ found)).flatMap (·.2)).length := by
  refine counts_entries g.edges.toList (·.1) (·.2) fun name => ?_
  unfold edgesOf
  cases hentry : g.edges[name]? with
  | none => exact Nat.zero_le _
  | some targets =>
    have hmem : (name, targets) ∈ g.edges.toList.filter (·.1 = name) :=
      List.mem_filter.mpr
        ⟨Std.TreeMap.mem_toList_iff_getElem?_eq_some.mpr hentry, decide_eq_true rfl⟩
    obtain ⟨before, after, hentries⟩ := List.append_of_mem hmem
    rw [hentries, List.flatMap_append, List.flatMap_cons, List.length_append, List.length_append]
    simp only [Option.getD_some]
    omega

/-- One round for each root and each edge take a search along the edges to its end. -/
theorem search_edges (g : Graph) (roots : List String) : Searches g.edgesOf roots.reverse []
    (search g.edgesOf (roots.length + g.edgeCount) roots.reverse []) := by
  refine searches_search g.counts_edges ?_
  have hall : g.edgeCount = (g.edges.toList.flatMap (·.2)).length := by
    rw [edgeCount, Table.values_eq_map_toList, List.flatMap_def]
  simp [hall]

theorem pendingTask?_eq_some {g : Graph} {s : String} {t : Nat} :
    g.pendingTask? s = some t ↔ g.slots[s]? = some (.pending t) := by
  unfold pendingTask?
  cases g.slots[s]? with
  | none => simp
  | some slot => cases slot <;> simp

/-- What is made of the members of a list belongs to those that something is made of, one for
one. -/
theorem forall₂_filterMap {α β : Type} (f : α → Option β) (as : List α) :
    List.Forall₂ (fun a b => f a = some b) (as.filter (f · |>.isSome)) (as.filterMap f) := by
  induction as with
  | nil => exact .nil
  | cons a as ih =>
    cases ha : f a with
    | none =>
      rw [List.filter_cons_of_neg (by simp [ha]), List.filterMap_cons_none ha]
      exact ih
    | some b =>
      rw [List.filter_cons_of_pos (by simp [ha]), List.filterMap_cons_some ha]
      exact .cons ha ih

/-- The tasks of the store ids that are pending and can be reached from some roots are found, one
for each of these store ids. -/
theorem pendingFrom_spec (g : Graph) (roots : List String) : ∃ ids : List String, ids.Nodup ∧
    (∀ s, s ∈ ids ↔ (∃ t, g.slots[s]? = some (.pending t)) ∧
      ∃ root ∈ roots, ReflTransGen g.Depends root s) ∧
    List.Forall₂ (fun s t => g.slots[s]? = some (.pending t)) ids (g.pendingFrom roots) := by
  have hsearch := g.search_edges roots
  unfold pendingFrom
  generalize search g.edgesOf (roots.length + g.edgeCount) roots.reverse [] = found at hsearch ⊢
  refine ⟨found.filter (g.pendingTask? · |>.isSome),
    (hsearch.nodup List.nodup_nil).sublist List.filter_sublist, fun s => ?_, ?_⟩
  · rw [List.mem_filter, hsearch.mem_iff, and_comm, Option.isSome_iff_exists]
    simp only [pendingTask?_eq_some, List.mem_reverse]
    rfl
  · exact (forall₂_filterMap g.pendingTask? found).imp fun _ _ => pendingTask?_eq_some.mp

/-- The searches of a graph are exact, whatever its waits and edges are: each of them comes to an
end, a search along waits finds whether one store id waits for another, and a search along edges
finds one task for each store id that is pending and can be reached, and no other. -/
theorem searches_exact (g : Graph) :
    (∀ source target : String,
      (∃ found, Searches g.waitsOf [source] [] found ∧
        g.reaches source target = found.contains target) ∧
      (g.reaches source target = true ↔ ReflTransGen g.WaitsOn source target)) ∧
    ∀ roots : List String,
      (∃ found, Searches g.edgesOf roots.reverse [] found ∧
        g.pendingFrom roots = found.filterMap g.pendingTask?) ∧
      ∃ ids : List String, ids.Nodup ∧
        (∀ s, s ∈ ids ↔ (∃ t, g.slots[s]? = some (.pending t)) ∧
          ∃ root ∈ roots, ReflTransGen g.Depends root s) ∧
        List.Forall₂ (fun s t => g.slots[s]? = some (.pending t)) ids (g.pendingFrom roots) :=
  ⟨fun source target => ⟨⟨_, g.search_waits source, rfl⟩, g.reaches_iff source target⟩,
    fun roots => ⟨⟨_, g.search_edges roots, rfl⟩, g.pendingFrom_spec roots⟩⟩

end Graph

end EsModule.Loader
