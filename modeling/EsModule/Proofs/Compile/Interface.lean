import EsModule.Compile.Output
import EsModule.Proofs.Grammar.Inside
import Mathlib.Data.List.Nodup
import Mathlib.Logic.ExistsUnique

/-!
# The names that a module exports

A module exports what its items export by name, each name once, and then what its exports of
everything provide. Such an export provides the occurrences in the list of names of the other module,
or its alias, and a name is exported this way if exactly one of all these occurrences is one of it
(`count_offers_eq_one`).
-/

namespace EsModule.Compile

open EsModule.Syntax EsModule.Scope

/-! ## Lists without repetitions -/

section

variable {α : Type} [DecidableEq α]

theorem foldl_addNew (xs seen : List α) :
    xs.foldl (fun seen x => if x ∈ seen then seen else seen ++ [x]) seen =
      seen ++ (xs.filter fun x => x ∉ seen).eraseDups := by
  induction xs generalizing seen with
  | nil => simp
  | cons x xs ih =>
    rw [List.foldl_cons, ih]
    by_cases h : x ∈ seen
    · simp [h]
    · have hfilter : (xs.filter fun y => decide (y ∉ seen ++ [x])) =
          (xs.filter fun y => decide (y ∉ seen)).filter fun y => !y == x := by
        rw [List.filter_filter]
        refine List.filter_congr fun y _ => ?_
        by_cases hy : y = x <;> simp [hy]
      simp only [h, if_false, not_false_eq_true, decide_true, List.filter_cons_of_pos,
        List.eraseDups_cons, List.append_assoc, List.singleton_append, hfilter]

theorem nodup_foldl_addNew {seen : List α} (h : seen.Nodup) (xs : List α) :
    (xs.foldl (fun seen x => if x ∈ seen then seen else seen ++ [x]) seen).Nodup := by
  induction xs generalizing seen with
  | nil => exact h
  | cons x xs ih =>
    rw [List.foldl_cons]
    split
    · exact ih h
    · rename_i hx
      refine ih (List.nodup_append.mpr ⟨h, List.nodup_singleton x, ?_⟩)
      rintro y hy z hz rfl
      exact hx (List.mem_singleton.mp hz ▸ hy)

theorem nodup_eraseDups (xs : List α) : xs.eraseDups.Nodup := by
  have h := nodup_foldl_addNew List.nodup_nil xs
  rw [foldl_addNew] at h
  simpa using h

end

/-- The dependencies of a module are the modules that its items name, each once. -/
theorem dependencies_eq (items : List Node) :
    dependencies items = (items.filterMap sourceOf?).eraseDups := by
  rw [dependencies, foldl_addNew]
  simp

theorem mem_dependencies {items : List Node} {item : Node} {source : String} (hi : item ∈ items)
    (hs : sourceOf? item = some source) : source ∈ dependencies items := by
  rw [dependencies_eq, List.mem_eraseDups]
  exact List.mem_filterMap.mpr ⟨item, hi, hs⟩

theorem keys_firstOfEach {β : Type} (pairs : List (String × β)) :
    (firstOfEach pairs).map (·.1) = (pairs.map (·.1)).eraseDups := by
  have hfold : ∀ kept : List (String × β),
      (pairs.foldl (fun kept p => if kept.any (·.1 = p.1) then kept else kept ++ [p]) kept).map (·.1) =
        (pairs.map (·.1)).foldl (fun seen x => if x ∈ seen then seen else seen ++ [x])
          (kept.map (·.1)) := by
    induction pairs with
    | nil => exact fun _ => rfl
    | cons p pairs ih =>
      intro kept
      rw [List.foldl_cons, List.map_cons, List.foldl_cons, ih]
      congr 1
      by_cases h : p.1 ∈ kept.map (·.1) <;> simp_all
  rw [firstOfEach, hfold, foldl_addNew]
  simp

theorem mem_firstOfEach {β : Type} {pairs : List (String × β)} {p : String × β}
    (h : p ∈ firstOfEach pairs) : p ∈ pairs := by
  have hfold : ∀ kept : List (String × β),
      p ∈ pairs.foldl (fun kept p => if kept.any (·.1 = p.1) then kept else kept ++ [p]) kept →
        p ∈ kept ∨ p ∈ pairs := by
    clear h
    induction pairs with
    | nil => exact fun _ => .inl
    | cons q pairs ih =>
      intro kept hp
      have hp := ih _ hp
      dsimp only at hp
      split at hp <;> simp only [List.mem_append, List.mem_cons, List.not_mem_nil] at hp ⊢ <;> tauto
  exact (hfold [] h).resolve_left List.not_mem_nil

/-! ## Names that are exported by name -/

/-- The exported name that stands in a list of exports. -/
def exportedAs? (specifier : Node) : Option String :=
  match specifier.kind with
  | .exportSpecifier _ exported => some exported
  | _ => none

/-- The names that an item exports itself: those that its declaration binds, those that it lists, or
the default one. -/
def exportedNames (item : Node) : List String :=
  match item.kind with
  | .exportNamedDeclaration (some declaration) _ _ =>
    declaration.boundIdentifiers.filterMap Node.name?
  | .exportNamedDeclaration none specifiers _ => specifiers.filterMap exportedAs?
  | .exportDefaultDeclaration _ => [defaultExport]
  | _ => []

theorem map_exportPairs {y isLocal : Bool} {specifiers : List Node}
    (h : ∀ s ∈ specifiers, Derives y (.exportSpecifier isLocal) s) :
    (exportPairs specifiers).map (·.2) = specifiers.filterMap exportedAs? := by
  rw [exportPairs, List.map_filterMap]
  refine List.filterMap_congr fun s hs => ?_
  cases h s hs
  rfl

theorem derives_specifiers {y : Bool} {item : Node} (h : Derives y .item item)
    (specifiers : List Node) (source : Option String)
    (hk : item.kind = .exportNamedDeclaration none specifiers source) :
    ∀ s ∈ specifiers, Derives y (.exportSpecifier source.isNone) s := by
  cases h with
  | exportList h =>
    cases hk
    exact h
  | statementItem h =>
    have htop := h.isTop nofun
    rw [Node.isTop, hk] at htop
    cases htop
  | _ => cases hk

theorem map_explicitExports {y : Bool} {item : Node} (h : Derives y .item item)
    (handles : String → String) (imported? : String → Option Reading) :
    (explicitExports handles imported? item).map (·.1) = exportedNames item := by
  have hlist := derives_specifiers h
  unfold explicitExports exportedNames
  generalize item.kind = kind at hlist
  cases kind
  case exportNamedDeclaration declaration specifiers source =>
    cases declaration with
    | some declaration =>
      dsimp only
      rw [List.map_filterMap]
      refine List.filterMap_congr fun n _ => ?_
      rw [Option.map_map]
      exact Option.map_id' ..
    | none =>
      have hpairs := map_exportPairs (hlist specifiers source rfl)
      cases source <;> exact (List.map_map ..).trans hpairs
  all_goals rfl

theorem flatMap_explicitExports {items : List Node} (h : ∀ n ∈ items, Derives false .item n)
    (handles : String → String) (imported? : String → Option Reading) :
    (items.flatMap (explicitExports handles imported?)).map (·.1) = items.flatMap exportedNames := by
  rw [List.map_flatMap]
  exact List.flatMap_congr fun n hn => map_explicitExports (h n hn) handles imported?

/-! ## Exports of everything -/

/-- The exports of everything among some items, each with its alias and the other module. -/
def exportAlls (items : List Node) : List (Option String × String) :=
  items.filterMap fun item =>
    match item.kind with
    | .exportAllDeclaration asName source => some (asName, source)
    | _ => none

/-- Whether an occurrence provides a name: without an alias, an occurrence in the names that the
other module is known to export, less the default one; with an alias, the alias alone. -/
def OccurrenceProvides (lookup : ExportLookup) (entry : Option String × String) (j : Nat)
    (name : String) : Prop :=
  match entry.1 with
  | none => name ≠ defaultExport ∧ ∃ names, lookup entry.2 = some names ∧ names[j]? = some name
  | some asName => j = 0 ∧ name = asName

/-- Whether a pair of an export of everything and an occurrence in what it offers provides a
name. -/
def PairProvides (lookup : ExportLookup) (entries : List (Option String × String))
    (pair : Nat × Nat) (name : String) : Prop :=
  ∃ entry, entries[pair.1]? = some entry ∧ OccurrenceProvides lookup entry pair.2 name

/-- The names that an export of everything offers. -/
def offeredBy (lookup : ExportLookup) (entry : Option String × String) : List String :=
  match entry.1 with
  | some asName => [asName]
  | none => ((lookup entry.2).getD []).filter (· ≠ defaultExport)

theorem existsUnique_nat {P : Nat → Prop} : (∃! i, P i) ↔
    P 0 ∧ (∀ i, ¬ P (i + 1)) ∨ ¬ P 0 ∧ ∃! i, P (i + 1) := by
  constructor
  · rintro ⟨i, hi, hunique⟩
    cases i with
    | zero => exact .inl ⟨hi, fun j hj => nomatch hunique _ hj⟩
    | succ i =>
      refine .inr ⟨fun h0 => (nomatch hunique _ h0), i, hi, fun j hj => ?_⟩
      exact Nat.succ.inj (hunique _ hj)
  · rintro (⟨h0, hrest⟩ | ⟨h0, i, hi, hunique⟩)
    · refine ⟨0, h0, fun j hj => ?_⟩
      cases j with
      | zero => rfl
      | succ j => exact absurd hj (hrest j)
    · refine ⟨i + 1, hi, fun j hj => ?_⟩
      cases j with
      | zero => exact absurd hj h0
      | succ j => rw [hunique j hj]

/-- A pair is the only one if its second number is, among the pairs that begin with zero, or if it is
among the others. -/
theorem existsUnique_pair {P : Nat × Nat → Prop} : (∃! p, P p) ↔
    (∃! j, P (0, j)) ∧ (∀ i j, ¬ P (i + 1, j)) ∨
      (∀ j, ¬ P (0, j)) ∧ ∃! p : Nat × Nat, P (p.1 + 1, p.2) := by
  constructor
  · rintro ⟨⟨i, j⟩, hp, hunique⟩
    cases i with
    | zero =>
      refine .inl ⟨⟨j, hp, fun k hk => congrArg Prod.snd (hunique _ hk)⟩, fun i k hk => ?_⟩
      exact nomatch congrArg Prod.fst (hunique _ hk)
    | succ i =>
      refine .inr ⟨fun k hk => (nomatch congrArg Prod.fst (hunique _ hk)), (i, j), hp, fun q hq => ?_⟩
      obtain ⟨h1, h2⟩ := Prod.mk.inj (hunique _ hq)
      exact Prod.ext (Nat.succ.inj h1) h2
  · rintro (⟨⟨j, hj, hunique⟩, hrest⟩ | ⟨h0, ⟨i, j⟩, hp, hunique⟩)
    · refine ⟨(0, j), hj, ?_⟩
      rintro ⟨i, k⟩ hk
      cases i with
      | zero => rw [hunique k hk]
      | succ i => exact absurd hk (hrest i k)
    · refine ⟨(i + 1, j), hp, ?_⟩
      rintro ⟨i', k⟩ hk
      cases i' with
      | zero => exact absurd hk (h0 k)
      | succ i' =>
        obtain ⟨rfl, rfl⟩ := Prod.mk.inj (hunique (i', k) hk)
        rfl

theorem count_eq_one {α : Type} [DecidableEq α] {a : α} {l : List α} :
    l.count a = 1 ↔ ∃! i : Nat, l[i]? = some a := by
  induction l with
  | nil => simp [ExistsUnique]
  | cons x l ih =>
    rw [existsUnique_nat]
    simp only [List.getElem?_cons_zero, List.getElem?_cons_succ, Option.some.injEq]
    have hnone : (∀ i : Nat, ¬ l[i]? = some a) ↔ l.count a = 0 := by
      rw [List.count_eq_zero, List.mem_iff_getElem?]
      exact not_exists.symm
    rw [hnone, ← ih, List.count_cons]
    by_cases h : x = a <;> simp [h]

section

variable {lookup : ExportLookup} {name : String}

theorem mem_offeredBy {entry : Option String × String} :
    name ∈ offeredBy lookup entry ↔ ∃ j, OccurrenceProvides lookup entry j name := by
  obtain ⟨asName, source⟩ := entry
  unfold offeredBy OccurrenceProvides
  cases asName with
  | some asName => simp
  | none =>
    cases lookup source with
    | none => simp
    | some names =>
      have hmem : name ∈ names ↔ ∃ j : Nat, names[j]? = some name := List.mem_iff_getElem?
      simp [hmem, and_comm]

theorem count_offeredBy_eq_one {entry : Option String × String} :
    (offeredBy lookup entry).count name = 1 ↔ ∃! j, OccurrenceProvides lookup entry j name := by
  obtain ⟨asName, source⟩ := entry
  unfold offeredBy OccurrenceProvides
  cases asName with
  | some asName =>
    by_cases h : asName = name
    · simp [h, ExistsUnique]
    · simp [h, Ne.symm h, ExistsUnique]
  | none =>
    cases lookup source with
    | none => simp [ExistsUnique]
    | some names =>
      by_cases hdefault : name = defaultExport
      · subst hdefault
        have hcount : (names.filter (· ≠ defaultExport)).count defaultExport = 0 := by
          simp [List.count_eq_zero]
        simp only [Option.getD_some, hcount]
        simp [ExistsUnique]
      · simp [hdefault, List.count_filter, count_eq_one]

/-- A name is offered once if exactly one pair of an export of everything and an occurrence provides
it. -/
theorem count_offers_eq_one {entries : List (Option String × String)} :
    (entries.flatMap (offeredBy lookup)).count name = 1 ↔
      ∃! pair, PairProvides lookup entries pair name := by
  induction entries with
  | nil => simp [PairProvides, ExistsUnique]
  | cons entry entries ih =>
    have hnone : (∀ i j, ¬ PairProvides lookup entries (i, j) name) ↔
        (entries.flatMap (offeredBy lookup)).count name = 0 := by
      have hmem : ∀ entry, entry ∈ entries ↔ ∃ i : Nat, entries[i]? = some entry :=
        fun _ => List.mem_iff_getElem?
      simp only [List.count_eq_zero, List.mem_flatMap, mem_offeredBy, PairProvides, hmem]
      grind
    have hnone' : (∀ j, ¬ OccurrenceProvides lookup entry j name) ↔
        (offeredBy lookup entry).count name = 0 := by
      rw [List.count_eq_zero, mem_offeredBy, not_exists]
    have hzero : ∀ j, PairProvides lookup (entry :: entries) (0, j) name ↔
        OccurrenceProvides lookup entry j name := by simp [PairProvides]
    have hsucc : ∀ i j, PairProvides lookup (entry :: entries) (i + 1, j) name ↔
        PairProvides lookup entries (i, j) name := by simp [PairProvides]
    rw [existsUnique_pair]
    simp only [hzero, hsucc]
    rw [hnone, hnone', ← count_offeredBy_eq_one, ← ih, List.flatMap_cons, List.count_append]
    omega

/-! ## All exports -/

/-- The names that exports of everything provide, in the order in which they are offered. -/
def providedNames (lookup : ExportLookup) (items : List Node) : List String :=
  let offers := (exportAlls items).flatMap (offeredBy lookup)
  offers.filter fun name => offers.count name = 1 ∧ name ∉ items.flatMap exportedNames

variable {items : List Node}

theorem mem_providedNames : name ∈ providedNames lookup items ↔
    name ∉ items.flatMap exportedNames ∧ ∃! pair, PairProvides lookup (exportAlls items) pair name := by
  rw [providedNames, List.mem_filter, decide_eq_true_eq, ← count_offers_eq_one]
  constructor
  · exact fun ⟨_, hcount, hnot⟩ => ⟨hnot, hcount⟩
  · refine fun ⟨hnot, hcount⟩ => ⟨?_, hcount, hnot⟩
    exact List.count_pos_iff.mp (by omega)

theorem nodup_providedNames (lookup : ExportLookup) (items : List Node) :
    (providedNames lookup items).Nodup := by
  refine List.nodup_iff_count_le_one.mpr fun name => ?_
  by_cases hmem : name ∈ providedNames lookup items
  · have hone := count_offers_eq_one.mpr (mem_providedNames.mp hmem).2
    exact hone ▸ (List.filter_sublist).count_le name
  · rw [List.count_eq_zero.mpr hmem]
    exact Nat.zero_le 1

theorem names_starExports (stars : List StarExport) (explicit : List (String × Reading)) :
    (starExports lookup stars explicit).map (·.1) =
      (stars.flatMap (·.offers lookup)).filter fun name =>
        (stars.flatMap (·.offers lookup)).count name = 1 ∧ name ∉ explicit.map (·.1) := by
  unfold starExports
  rw [List.map_flatMap, List.filter_flatMap]
  refine List.flatMap_congr fun star _ => ?_
  rw [List.map_filterMap, ← List.filterMap_eq_filter]
  refine List.filterMap_congr fun name _ => ?_
  simp only [List.any_eq_true, decide_eq_true_eq, List.mem_map, Option.guard]
  split <;> simp_all

theorem map_starExport? (handles : String → String) (items : List Node) :
    (items.filterMap (starExport? handles)).flatMap (·.offers lookup) =
      (exportAlls items).flatMap (offeredBy lookup) := by
  have hentries : exportAlls items =
      (items.filterMap (starExport? handles)).map fun star => (star.asName, star.specifier) := by
    rw [exportAlls, List.map_filterMap]
    refine List.filterMap_congr fun item _ => ?_
    unfold starExport?
    cases item.kind <;> rfl
  rw [hentries, List.flatMap_map]
  rfl

/-- The exported names: first those that the items export themselves, each where it comes first, and
then those that exports of everything provide. -/
theorem names_allExports (h : ∀ n ∈ items, Derives false .item n) (scopes : ScopeTree)
    (lookup : ExportLookup) : ((Interface.ofItems items scopes).allExports lookup).map (·.1) =
      (items.flatMap exportedNames).eraseDups ++ providedNames lookup items := by
  unfold Interface.allExports Interface.ofItems providedNames
  dsimp only
  rw [List.map_append, keys_firstOfEach, flatMap_explicitExports h, names_starExports,
    map_starExport?, keys_firstOfEach, flatMap_explicitExports h]
  simp only [List.mem_eraseDups]

theorem nodup_allExports (h : ∀ n ∈ items, Derives false .item n) (scopes : ScopeTree)
    (lookup : ExportLookup) :
    (((Interface.ofItems items scopes).allExports lookup).map (·.1)).Nodup := by
  rw [names_allExports h, List.nodup_append]
  refine ⟨nodup_eraseDups _, nodup_providedNames lookup items, ?_⟩
  rintro name hname _ hname' rfl
  exact (mem_providedNames.mp hname').1 (List.mem_eraseDups.mp hname)

end

end EsModule.Compile
