import EsModule.Proofs.Scope.Visible

/-!
# A walk inside another one

If the tree of a module is put into a function and some of its names are replaced, the walk over the
new tree does what the walk over the old one did, and something before and in between. An
`Embedding` says how the scopes are numbered then and what became of the nodes, and `Mirrored`
relates the steps of the two walks. From this alone it follows that a name means what it meant
before: `Embedding.Whole.listed`, `Embedding.Whole.of_listed` and `Embedding.Whole.globals_iff`.
-/

namespace EsModule.Scope

open EsModule.Syntax

/-- How the walk over a module goes on inside another one. -/
structure Embedding where
  /-- How many scopes are opened in front of those of the module. -/
  opened : Nat
  /-- The numbers of the nodes that stand for those of the module. -/
  moved : Nat → Nat
  /-- Whether a use is not made any longer. -/
  gone : Nat → Bool
  /-- The nodes that are uses in the module. -/
  old : Nat → Prop
  /-- The names that are used besides. -/
  adds : String → Prop

namespace Embedding

variable (w : Embedding)

/-- The number of a scope in the other walk. The program's scope becomes that of the function, which
is the first one that is opened. -/
def scope (s : Nat) : Nat := if s = 0 then 1 else s + w.opened

/-- The scopes around a place in the other walk. -/
def chain (scopes : List Nat) : List Nat := scopes.map w.scope ++ [0]

/-- A use in the other walk. -/
def use (u : Use) : Use := { u with chain := w.chain u.chain, params := u.params.map w.scope }

/-- A declaration in the other walk. -/
def declaration (d : Declaration) : Declaration := { d with node := w.moved d.node }

/-- A declaration in the other walk, with the scope that receives it. -/
def placement (p : Placement) : Placement :=
  { p with scope := w.scope p.scope, node := w.moved p.node }

end Embedding

/-- Whether some scopes are those around a place in a module: the last one is the program's. -/
def Rooted (chain : List Nat) : Prop := ∃ cs, chain = cs ++ [0] ∧ 0 ∉ cs

/-- Whether a step does what another one does in the walk over the module. -/
structure Embedding.Mirrors (w : Embedding) (e e' : Step) : Prop where
  /-- The node stands for that of the module. -/
  node : e'.node = w.moved e.node
  /-- It opens the same kind of scope. -/
  scope : e'.scope = e.scope
  /-- It stands in a module. -/
  rooted : Rooted e.chain
  /-- So does what it declares outside itself. -/
  outside : ∀ d ∈ e.declares, d.place = .outerBlock → Rooted e.chain.tail
  /-- The scopes around it stand for those in the module. -/
  chain : e'.chain = w.chain e.chain
  /-- It makes the same declarations. -/
  declares : e'.declares = e.declares.map w.declaration
  /-- None of them is an import. -/
  plain : ∀ d ∈ e.declares, d.kind ≠ .imported
  /-- It makes the same uses, but for those that are gone. -/
  uses : ∀ u', u' ∈ e'.uses ↔ ∃ u ∈ e.uses, w.gone u.node = false ∧ u' = w.use u

/-- Whether some steps do what the steps of a module do, and make other declarations besides. -/
inductive Embedding.Mirrored (w : Embedding) : List Step → List Step → List Declaration → Prop where
  | nil : Mirrored w [] [] []
  | both {e e' es es' ds} (h : w.Mirrors e e') (hs : Mirrored w es es' ds) :
      Mirrored w (e :: es) (e' :: es') ds
  | lost {e es es' ds} (hscope : e.scope = none) (huses : e.uses = [])
      (himports : ∀ d ∈ e.declares, d.kind = .imported) (hs : Mirrored w es es' ds) :
      Mirrored w (e :: es) es' ds
  | added {e' es es' ds} (hscope : e'.scope = none)
      (huses : ∀ u ∈ e'.uses, ¬ w.old u.node ∧ w.adds u.name)
      (hs : Mirrored w es es' ds) : Mirrored w es (e' :: es') (e'.declares ++ ds)

namespace Embedding.Mirrored

variable {w : Embedding} {es es' fs fs' : List Step} {ds ds' : List Declaration}

theorem append (h : w.Mirrored es es' ds) (h' : w.Mirrored fs fs' ds') :
    w.Mirrored (es ++ fs) (es' ++ fs') (ds ++ ds') := by
  induction h with
  | nil => exact h'
  | both h _ ih => exact .both h ih
  | lost hscope huses himports _ ih => exact .lost hscope huses himports ih
  | added hscope huses _ ih =>
    rw [List.append_assoc]
    exact .added hscope huses ih

/-- The two walks open the same scopes. -/
theorem opened (h : w.Mirrored es es' ds) :
    (scopesOpened es').map (fun o => (o.1, o.2.1)) =
      (scopesOpened es).map fun o => (o.1, w.moved o.2.1) := by
  induction h with
  | nil => rfl
  | @both e e' es es' ds h _ ih =>
    unfold scopesOpened at ih ⊢
    rw [List.filterMap_cons, List.filterMap_cons, h.scope, h.node]
    cases e.scope <;> simp [ih]
  | @lost e es es' ds hscope huses himports _ ih =>
    have hlost : scopesOpened (e :: es) = scopesOpened es := by
      simp [scopesOpened, hscope]
    rw [hlost, ih]
  | @added e' es es' ds hscope huses _ ih =>
    have hadded : scopesOpened (e' :: es') = scopesOpened es' := by
      simp [scopesOpened, hscope]
    rw [hadded, ih]

theorem kindsOpened (h : w.Mirrored es es' ds) : kindsOpened es' = kindsOpened es := by
  have hkinds := congrArg (List.map Prod.fst) h.opened
  simpa [Scope.kindsOpened, Function.comp_def] using hkinds

theorem openers (h : w.Mirrored es es' ds) : openers es' = (openers es).map w.moved := by
  have hnodes := congrArg (List.map Prod.snd) h.opened
  simpa [Scope.openers, Function.comp_def] using hnodes

theorem openings (h : w.Mirrored es es' ds) : openings es' = openings es := by
  rw [← length_kindsOpened, ← length_kindsOpened, h.kindsOpened]

/-- The uses of the other walk are those of the module that are not gone, and new ones. -/
theorem uses (h : w.Mirrored es es' ds) {u' : Use} (hu : u' ∈ es'.flatMap (·.uses)) :
    (∃ u ∈ es.flatMap (·.uses), w.gone u.node = false ∧ u' = w.use u) ∨
      ¬ w.old u'.node ∧ w.adds u'.name := by
  induction h with
  | nil => cases hu
  | both h _ ih =>
    rw [List.flatMap_cons, List.mem_append] at hu
    rcases hu with hu | hu
    · obtain ⟨u, hmem, hgone, rfl⟩ := (h.uses u').mp hu
      exact .inl ⟨u, List.mem_append_left _ hmem, hgone, rfl⟩
    · refine (ih hu).imp_left fun ⟨u, hmem, h⟩ => ⟨u, List.mem_append_right _ hmem, h⟩
  | lost hscope huses himports _ ih =>
    refine (ih hu).imp_left fun ⟨u, hmem, h⟩ => ⟨u, List.mem_append_right _ hmem, h⟩
  | added hscope huses _ ih =>
    rw [List.flatMap_cons, List.mem_append] at hu
    rcases hu with hu | hu
    · exact .inr (huses u' hu)
    · exact ih hu

/-- A use of the module that is not gone is made in the other walk too. -/
theorem mem_uses (h : w.Mirrored es es' ds) {u : Use} (hu : u ∈ es.flatMap (·.uses))
    (hgone : w.gone u.node = false) : w.use u ∈ es'.flatMap (·.uses) := by
  induction h with
  | nil => cases hu
  | both h _ ih =>
    rw [List.flatMap_cons, List.mem_append] at hu ⊢
    rcases hu with hu | hu
    · exact .inl ((h.uses _).mpr ⟨u, hu, hgone, rfl⟩)
    · exact .inr (ih hu)
  | lost hscope huses himports _ ih =>
    rw [List.flatMap_cons, huses, List.nil_append] at hu
    exact ih hu
  | added hscope huses _ ih => exact List.mem_append_right _ (ih hu)

end Embedding.Mirrored

/-! ## Where declarations are made -/

/-- Whether scopes of the module have the same kinds in the other walk, but that the program's
became that of a function. -/
structure Embedding.Kinds (w : Embedding) (kinds kinds' : List ScopeKind) : Prop where
  /-- The program's scope. -/
  program : kinds[0]? = some .program
  /-- The function's scope. -/
  function : kinds'[1]? = some .function
  /-- The other scopes. -/
  inner : ∀ s, s ≠ 0 → kinds'[w.scope s]? = kinds[s]?

namespace Embedding.Kinds

variable {w : Embedding} {kinds kinds' : List ScopeKind} {chain : List Nat}

theorem nearest (h : w.Kinds kinds kinds') (hchain : Rooted chain) {test : ScopeKind → Bool}
    (htest : test .function = true) :
    nearest kinds' test (w.chain chain) = w.scope (nearest kinds test chain) := by
  obtain ⟨cs, rfl, hcs⟩ := hchain
  unfold Scope.nearest
  -- by induction on the scopes inside the program's: only that one has another kind
  induction cs with
  | nil =>
    -- the search stops at the function, whatever it is for
    have hscope : w.scope 0 = 1 := rfl
    simp only [chain, List.nil_append, List.map_cons, List.map_nil, List.cons_append, hscope]
    rw [List.find?_cons_of_pos (by rw [h.function]; exact htest), List.find?_singleton]
    split <;> rfl
  | cons s cs ih =>
    have hs : s ≠ 0 := fun h0 => hcs (h0 ▸ List.mem_cons_self)
    have hcons : w.chain (s :: cs ++ [0]) = w.scope s :: w.chain (cs ++ [0]) := rfl
    rw [hcons, List.cons_append, List.find?_cons, List.find?_cons, h.inner s hs]
    cases kinds[s]?.any test with
    | true => rfl
    | false => exact ih fun h0 => hcs (List.mem_cons_of_mem _ h0)

/-- A place means the same scope in both walks. -/
theorem placeIn (h : w.Kinds kinds kinds') (hchain : Rooted chain) {place : Place}
    (houter : place = .outerBlock → Rooted chain.tail) :
    placeIn kinds' (w.chain chain) place = w.scope (placeIn kinds chain place) := by
  cases place with
  | innermost =>
    obtain ⟨cs, rfl, -⟩ := hchain
    cases cs <;> rfl
  | block => exact h.nearest hchain rfl
  | function => exact h.nearest hchain rfl
  | outerBlock =>
    -- what is declared outside stands in a scope, so there is another one around it
    have htail : (w.chain chain).tail = w.chain chain.tail := by
      obtain ⟨cs, rfl, -⟩ := hchain
      cases cs <;> rfl
    unfold Scope.placeIn
    rw [htail]
    exact h.nearest (houter rfl) rfl

end Embedding.Kinds

/-! ## The declarations of the other walk -/

theorem firstAt?_filter {ps : List Placement} {s : Nat} {x : String} {f : Placement → Bool}
    (h : ∀ p, p.name = x → f p = true) : firstAt? (ps.filter f) s x = firstAt? ps s x := by
  unfold firstAt?
  rw [List.find?_filter]
  congr 2
  funext p
  by_cases hx : p.name = x
  · simp [h p hx]
  · simp [hx]

namespace Embedding

variable {w : Embedding} {es es' : List Step} {ds : List Declaration}
  {kinds kinds' : List ScopeKind} {names : List String}

theorem Mirrors.placements {e e' : Step} (h : w.Mirrors e e') (hk : w.Kinds kinds kinds') :
    e'.placements kinds' = (e.placements kinds).map w.placement := by
  unfold Step.placements
  rw [h.declares, List.map_map, List.map_map]
  refine List.map_congr_left fun d hd => ?_
  have hplace := hk.placeIn h.rooted (h.outside d hd)
  simp only [Function.comp, declaration, placement, h.chain, hplace]

/-- The declarations of the other walk are those of the module that are no imports, but for the names
that are made. -/
theorem Mirrored.placements (h : w.Mirrored es es' ds) (hk : w.Kinds kinds kinds')
    (hmade : ∀ d ∈ ds, d.name ∈ names) : (placements kinds' es').filter (·.name ∉ names) =
      (((placements kinds es).filter (·.kind ≠ .imported)).filter (·.name ∉ names)).map
        w.placement := by
  induction h with
  | nil => rfl
  | @both e e' es es' ds h _ ih =>
    have hnames : (e'.placements kinds').filter (·.name ∉ names) =
        ((e.placements kinds).filter (·.name ∉ names)).map w.placement := by
      rw [h.placements hk, List.filter_map]
      rfl
    have hplain : (e.placements kinds).filter (·.kind ≠ .imported) = e.placements kinds := by
      rw [List.filter_eq_self]
      intro p hp
      obtain ⟨d, hd, rfl⟩ := List.mem_map.mp hp
      exact decide_eq_true (h.plain d hd)
    have hrest := ih hmade
    simp only [Scope.placements, List.flatMap_cons, List.filter_append, List.map_append] at hrest ⊢
    rw [hnames, hplain, hrest]
  | @lost e es es' ds hscope huses himports _ ih =>
    have hnone : (e.placements kinds).filter (·.kind ≠ .imported) = [] := by
      rw [List.filter_eq_nil_iff]
      intro p hp
      obtain ⟨d, hd, rfl⟩ := List.mem_map.mp hp
      simp [himports d hd]
    rw [ih hmade, Scope.placements, Scope.placements, List.flatMap_cons, List.filter_append, hnone,
      List.nil_append]
  | @added e' es es' ds hscope huses _ ih =>
    have hnone : (e'.placements kinds').filter (·.name ∉ names) = [] := by
      rw [List.filter_eq_nil_iff]
      intro p hp
      obtain ⟨d, hd, rfl⟩ := List.mem_map.mp hp
      simp [hmade d (List.mem_append_left _ hd)]
    rw [← ih fun d hd => hmade d (List.mem_append_right _ hd), Scope.placements, Scope.placements,
      List.flatMap_cons, List.filter_append, hnone, List.nil_append]

/-- What the module declares is declared in the other walk, but for the imports. -/
theorem Mirrored.mem_placements (h : w.Mirrored es es' ds) (hk : w.Kinds kinds kinds')
    {q : Placement} (hq : q ∈ Scope.placements kinds es) (hkind : q.kind ≠ .imported) :
    w.placement q ∈ Scope.placements kinds' es' := by
  -- by induction on the two walks: what is lost on the way declares imports only
  induction h with
  | nil => cases hq
  | both h _ ih =>
    rw [Scope.placements, List.flatMap_cons, List.mem_append] at hq ⊢
    exact hq.imp (fun hq => h.placements hk ▸ List.mem_map_of_mem hq) ih
  | lost hscope huses himports _ ih =>
    rw [Scope.placements, List.flatMap_cons, List.mem_append] at hq
    refine ih (hq.resolve_left fun hq => ?_)
    obtain ⟨d, hd, rfl⟩ := List.mem_map.mp hq
    exact hkind (himports d hd)
  | added hscope huses _ ih =>
    rw [Scope.placements, List.flatMap_cons, List.mem_append]
    exact .inr (ih hq)

/-- The other walk declares what the module does, and the names that are made. -/
theorem Mirrored.of_mem_placements (h : w.Mirrored es es' ds) (hk : w.Kinds kinds kinds')
    {q' : Placement} (hq : q' ∈ Scope.placements kinds' es') : q'.name ∈ ds.map (·.name) ∨
      ∃ q ∈ Scope.placements kinds es, q.kind ≠ .imported ∧ w.placement q = q' := by
  induction h with
  | nil => cases hq
  | @both e _ _ _ _ h _ ih =>
    rw [Scope.placements, List.flatMap_cons, List.mem_append] at hq
    rcases hq with hq | hq
    · rw [h.placements hk] at hq
      obtain ⟨q, hplaced, rfl⟩ := List.mem_map.mp hq
      obtain ⟨d, hd, rfl⟩ := List.mem_map.mp hplaced
      exact .inr ⟨_, List.mem_append_left _ hplaced, h.plain d hd, rfl⟩
    · refine (ih hq).imp_right ?_
      rintro ⟨q, hq, h⟩
      exact ⟨q, List.mem_append_right _ hq, h⟩
  | lost hscope huses himports _ ih =>
    refine (ih hq).imp_right ?_
    rintro ⟨q, hq, h⟩
    exact ⟨q, List.mem_append_right _ hq, h⟩
  | added hscope huses _ ih =>
    rw [Scope.placements, List.flatMap_cons, List.mem_append] at hq
    rw [List.map_append, List.mem_append]
    rcases hq with hq | hq
    · obtain ⟨d, hd, rfl⟩ := List.mem_map.mp hq
      exact .inl (.inl (List.mem_map_of_mem hd))
    · exact (ih hq).imp_left .inr

theorem map_name_placements (kinds : List ScopeKind) (es : List Step) :
    (placements kinds es).map (·.name) = (es.flatMap (·.declares)).map (·.name) := by
  simp [Scope.placements, Step.placements, List.map_flatMap, Function.comp_def]

/-- The names that are made are declared where the other walk goes beyond the module. -/
theorem Mirrored.made_names (h : w.Mirrored es es' ds)
    (hapart : ∀ e ∈ es, ∀ d ∈ e.declares, d.name ∉ names) (hmade : ∀ d ∈ ds, d.name ∈ names) :
    ((es'.flatMap (·.declares)).map (·.name)).filter (· ∈ names) = ds.map (·.name) := by
  induction h with
  | nil => rfl
  | @both e e' es es' ds h _ ih =>
    have hrest := ih (fun e he => hapart e (List.mem_cons_of_mem _ he)) hmade
    have hnone : (e'.declares.map (·.name)).filter (· ∈ names) = [] := by
      rw [h.declares, List.map_map, List.filter_eq_nil_iff]
      intro x hx
      obtain ⟨d, hd, rfl⟩ := List.mem_map.mp hx
      exact Bool.eq_false_iff.mp (decide_eq_false (hapart e List.mem_cons_self d hd))
    rw [List.flatMap_cons, List.map_append, List.filter_append, hnone, hrest, List.nil_append]
  | lost hscope huses himports _ ih =>
    exact ih (fun e he => hapart e (List.mem_cons_of_mem _ he)) hmade
  | @added e' es es' ds hscope huses _ ih =>
    have hrest := ih hapart fun d hd => hmade d (List.mem_append_right _ hd)
    have hall : (e'.declares.map (·.name)).filter (· ∈ names) = e'.declares.map (·.name) := by
      rw [List.filter_eq_self]
      intro x hx
      obtain ⟨d, hd, rfl⟩ := List.mem_map.mp hx
      simpa using hmade d (List.mem_append_left _ hd)
    rw [List.flatMap_cons, List.map_append, List.filter_append, hall, hrest, List.map_append]

theorem scope_inj {s s' : Nat} (hw : w.opened ≠ 0) (h : w.scope s = w.scope s') : s = s' := by
  unfold scope at h
  split at h <;> split at h <;> omega

theorem scope_ne_zero (s : Nat) : w.scope s ≠ 0 := by
  unfold scope
  split <;> omega

/-- What is declared first in a scope of the module is declared first in that of the other walk. -/
theorem firstAt?_map (hw : w.opened ≠ 0) (ps : List Placement) (s : Nat) (x : String) :
    firstAt? (ps.map w.placement) (w.scope s) x =
      (firstAt? ps s x).map fun d => (d.1, w.moved d.2) := by
  induction ps with
  | nil => rfl
  | cons p ps ih =>
    have hkey : (w.placement p).scope = w.scope s ∧ (w.placement p).name = x ↔
        p.scope = s ∧ p.name = x :=
      and_congr_left fun _ => ⟨scope_inj hw, congrArg w.scope⟩
    rw [List.map_cons, firstAt?_cons, firstAt?_cons, ih]
    by_cases h : p.scope = s ∧ p.name = x
    · rw [if_pos (hkey.mpr h), if_pos h]
      rfl
    · rw [if_neg fun h' => h (hkey.mp h'), if_neg h]

end Embedding

/-- What is declared first is declared first without imports, if declarations may stand beside each
other. -/
theorem firstAt?_not_imported {ps : List Placement} (hps : Compatible (fun _ _ => none) ps)
    (himports : ∀ p ∈ ps, ∀ q ∈ ps, p.node = q.node → p.kind = .imported → q.kind = .imported)
    (s : Nat) (x : String) : firstAt? (ps.filter (·.kind ≠ .imported)) s x =
      (firstAt? ps s x).filter (·.1 ≠ .imported) := by
  cases hfirst : firstAt? ps s x with
  | none =>
    rw [Option.filter_none, firstAt?_eq_none]
    exact fun p hp => firstAt?_eq_none.mp hfirst p (List.mem_of_mem_filter hp)
  | some d =>
    unfold firstAt? at hfirst
    obtain ⟨p, hp, rfl⟩ := Option.map_eq_some_iff.mp hfirst
    obtain ⟨hkey, before, behind, rfl, hbefore⟩ := List.find?_eq_some_iff_append.mp hp
    by_cases hkind : p.kind = .imported
    · -- another declaration of the name is by the same node, so it is an import too
      rw [Option.filter_some, if_neg (by simpa using hkind), firstAt?_eq_none]
      intro q hq hscope hname
      obtain ⟨hq, hplain⟩ := List.mem_filter.mp hq
      have hallows := hps q hq p.kind p.node (by rw [Option.none_or, hscope, hname]; exact hfirst)
      rcases hallows with hnode | hparam | ⟨hlexical, -⟩
      · have himport := himports p (List.mem_append_right _ List.mem_cons_self) q hq hnode hkind
        simp [himport] at hplain
      · cases hkind.symm.trans hparam
      · rw [hkind] at hlexical
        cases hlexical
    · rw [Option.filter_some, if_pos (by simpa using hkind), List.filter_append,
        List.filter_cons_of_pos (by simpa using hkind), firstAt?_append]
      have hnone : firstAt? (before.filter (·.kind ≠ .imported)) s x = none := by
        rw [firstAt?_eq_none]
        intro q hq hscope hname
        simpa [hscope, hname] using hbefore q (List.mem_of_mem_filter hq)
      rw [hnone, Option.none_or, firstAt?_cons, if_pos (by simpa using hkey)]

/-! ## A module inside another tree -/

/-- The names that are declared besides those of the module. -/
def made (front : List Step) (ds : List Declaration) : List String :=
  (front.flatMap (·.declares) ++ ds).map (·.name)

/-- Whether the walk over a tree takes some steps and goes on as the walk over a module. -/
structure Embedding.Continues (w : Embedding) (root root' : Node) (front steps : List Step)
    (ds : List Declaration) : Prop where
  /-- The steps. -/
  walk : moduleSteps root' = front ++ steps
  /-- They go on as those of the module. -/
  mirrored : w.Mirrored (moduleSteps root) steps ds
  /-- The first scope that is opened is that of a function. -/
  function : ∃ kinds, kindsOpened front = .function :: kinds ∧ w.opened = kinds.length + 1

/-- Whether a walk goes on in this way, where imported names are not used any longer and the names
that are made stand beside those of the module. -/
structure Embedding.Whole (w : Embedding) (root root' : Node) (front steps : List Step)
    (ds : List Declaration) : Prop extends w.Continues root root' front steps ds where
  /-- The function stands for the program. -/
  owner : (openers front).head? = some (w.moved root.id)
  /-- The uses in front are new ones. -/
  new : ∀ e ∈ front, ∀ u ∈ e.uses, ¬ w.old u.node
  /-- The other names are different, -/
  nodup : (made front ds).Nodup
  /-- the module declares none of them -/
  undeclared : ∀ e ∈ moduleSteps root, ∀ d ∈ e.declares, d.name ∉ made front ds
  /-- and uses none of them. -/
  unused : ∀ u ∈ usesIn root, u.name ∉ made front ds
  /-- What declares an import declares nothing else. -/
  imports : ∀ p ∈ placementsOf root, ∀ q ∈ placementsOf root, p.node = q.node →
    p.kind = .imported → q.kind = .imported
  /-- What means an import is gone. -/
  gone : ∀ u ∈ usesIn root, ∀ s n, targetIn? (placementsOf root) u = some s →
    firstAt? (placementsOf root) s u.name = some (.imported, n) → w.gone u.node = true

namespace Embedding.Continues

variable {w : Embedding} {root root' : Node} {front steps : List Step} {ds : List Declaration}

theorem opened_ne_zero (h : w.Continues root root' front steps ds) : w.opened ≠ 0 := by
  obtain ⟨kinds, -, hopened⟩ := h.function
  omega

theorem kindsOf (h : w.Continues root root' front steps ds) :
    ∃ kinds, w.opened = kinds.length + 1 ∧
      kindsOf root' = .program :: .function :: kinds ++ kindsOpened (moduleSteps root) := by
  obtain ⟨kinds, hfront, hopened⟩ := h.function
  refine ⟨kinds, hopened, ?_⟩
  rw [Scope.kindsOf, h.walk, kindsOpened_append, hfront, h.mirrored.kindsOpened]
  rfl

theorem kinds (h : w.Continues root root' front steps ds) :
    w.Kinds (Scope.kindsOf root) (Scope.kindsOf root') := by
  obtain ⟨kinds, hopened, hkinds⟩ := h.kindsOf
  refine ⟨rfl, by rw [hkinds]; rfl, fun s hs => ?_⟩
  have hscope : w.scope s = (ScopeKind.program :: .function :: kinds).length + (s - 1) := by
    unfold scope
    rw [if_neg hs, hopened, List.length_cons, List.length_cons]
    omega
  obtain ⟨s, rfl⟩ := Nat.exists_eq_succ_of_ne_zero hs
  rw [hkinds, hscope, List.getElem?_append_right (Nat.le_add_right _ _), Nat.add_sub_cancel_left]
  rfl

/-- What the module declares is declared in the other tree, but for the imports. -/
theorem mem_placementsOf (h : w.Continues root root' front steps ds) {q : Placement}
    (hq : q ∈ placementsOf root) (hkind : q.kind ≠ .imported) :
    w.placement q ∈ placementsOf root' := by
  rw [placementsOf, h.walk, placements, List.flatMap_append]
  exact List.mem_append_right _ (h.mirrored.mem_placements h.kinds hq hkind)

/-- The other tree declares what the module does, and the names that are made. -/
theorem of_mem_placementsOf (h : w.Continues root root' front steps ds) {q' : Placement}
    (hq : q' ∈ placementsOf root') : q'.name ∈ made front ds ∨
      ∃ q ∈ placementsOf root, q.kind ≠ .imported ∧ w.placement q = q' := by
  rw [made, List.map_append, List.mem_append]
  rw [placementsOf, h.walk, placements, List.flatMap_append, List.mem_append] at hq
  rcases hq with hq | hq
  · have hname := List.mem_map_of_mem (f := Placement.name) hq
    rw [← placements, map_name_placements] at hname
    exact .inl (.inl hname)
  · exact (h.mirrored.of_mem_placements h.kinds hq).imp_left .inr

/-- The declarations of the other tree, without those of the names that are made, are those of the
module that are no imports. -/
theorem placements (h : w.Continues root root' front steps ds) :
    (placementsOf root').filter (·.name ∉ made front ds) =
      (((placementsOf root).filter (·.kind ≠ .imported)).filter (·.name ∉ made front ds)).map
        w.placement := by
  have hfront : (Scope.placements (Scope.kindsOf root') front).filter (·.name ∉ made front ds) =
      [] := by
    rw [List.filter_eq_nil_iff]
    intro p hp
    have hname := List.mem_map_of_mem (f := Placement.name) hp
    rw [map_name_placements] at hname
    simp only [made, List.map_append, List.mem_append, hname, true_or, not_true_eq_false,
      decide_false, Bool.false_eq_true, not_false_eq_true]
  rw [placementsOf, h.walk, Scope.placements, List.flatMap_append, List.filter_append]
  refine (congrArg (· ++ _) hfront).trans ?_
  exact h.mirrored.placements h.kinds fun d hd => List.mem_map_of_mem (List.mem_append_right _ hd)

/-- A name that is not made is declared first by what declared it first in the module, if that was no
import. -/
theorem firstAt?_placements (h : w.Continues root root' front steps ds)
    (hc : Compatible (fun _ _ => none) (placementsOf root))
    (himports : ∀ p ∈ placementsOf root, ∀ q ∈ placementsOf root, p.node = q.node →
      p.kind = .imported → q.kind = .imported) {x : String} (hx : x ∉ made front ds) (s : Nat) :
    firstAt? (placementsOf root') (w.scope s) x =
      ((firstAt? (placementsOf root) s x).filter (·.1 ≠ .imported)).map
        fun d => (d.1, w.moved d.2) := by
  have hapart : ∀ p : Placement, p.name = x → decide (p.name ∉ made front ds) = true := by
    rintro p rfl
    simpa using hx
  rw [← firstAt?_filter hapart, h.placements, firstAt?_map h.opened_ne_zero, firstAt?_filter hapart,
    firstAt?_not_imported hc himports]

end Embedding.Continues

namespace Embedding.Whole

variable {w : Embedding} {root root' : Node} {front steps : List Step} {ds : List Declaration}

/-- The declarations of the other tree, without those of the names that are made. -/
theorem placements (h : w.Whole root root' front steps ds) :
    (placementsOf root').filter (·.name ∉ made front ds) =
      ((placementsOf root).filter (·.kind ≠ .imported)).map w.placement := by
  rw [h.toContinues.placements]
  congr 1
  rw [List.filter_eq_self]
  intro q hq
  obtain ⟨e, he, hq⟩ := List.mem_flatMap.mp (List.mem_of_mem_filter hq)
  obtain ⟨d, hd, rfl⟩ := List.mem_map.mp hq
  exact decide_eq_true (h.undeclared e he d hd)

theorem firstAt?_program (h : w.Whole root root' front steps ds) {x : String}
    (hx : x ∉ made front ds) : firstAt? (placementsOf root') 0 x = none := by
  rw [← firstAt?_filter (f := (·.name ∉ made front ds)) (by rintro p rfl; simpa using hx),
    h.placements, firstAt?_eq_none]
  intro p hp hscope
  obtain ⟨q, -, rfl⟩ := List.mem_map.mp hp
  exact absurd hscope (scope_ne_zero q.scope)

/-- The names that are made are declared once. -/
theorem names (h : w.Whole root root' front steps ds) :
    ((placementsOf root').filter (·.name ∈ made front ds)).map (·.name) = made front ds := by
  have hfront : ((front.flatMap (·.declares)).map (·.name)).filter (· ∈ made front ds) =
      (front.flatMap (·.declares)).map (·.name) := by
    rw [List.filter_eq_self]
    intro x hx
    simp [made, hx]
  have hsteps := h.mirrored.made_names h.undeclared fun d hd =>
    List.mem_map_of_mem (f := Declaration.name) (List.mem_append_right _ hd)
  have hmap : ((placementsOf root').filter (·.name ∈ made front ds)).map (·.name) =
      ((placementsOf root').map (·.name)).filter (· ∈ made front ds) := by
    rw [List.filter_map]
    rfl
  rw [hmap, placementsOf, map_name_placements, h.walk, List.flatMap_append, List.map_append,
    List.filter_append, hfront, hsteps, made, List.map_append]

/-- A name that is made has one declaration. -/
theorem eq_of_name (h : w.Whole root root' front steps ds) {p q : Placement}
    (hp : p ∈ placementsOf root') (hq : q ∈ placementsOf root') (hname : p.name = q.name)
    (hmade : q.name ∈ made front ds) : p = q := by
  have hnodup : (((placementsOf root').filter (·.name ∈ made front ds)).map (·.name)).Nodup :=
    h.names.symm ▸ h.nodup
  exact List.inj_on_of_nodup_map hnodup (List.mem_filter.mpr ⟨hp, by simpa [hname]⟩)
    (List.mem_filter.mpr ⟨hq, by simpa⟩) hname

/-- The declarations of the other tree may stand beside each other. -/
theorem compatible (h : w.Whole root root' front steps ds)
    (hc : Compatible (fun _ _ => none) (placementsOf root)) :
    Compatible (fun _ _ => none) (placementsOf root') := by
  intro p hp
  rw [Option.none_or]
  by_cases hname : p.name ∈ made front ds
  · intro k n hfirst
    obtain ⟨q, hq, -, hqname, heq⟩ := exists_of_firstAt? hfirst
    obtain rfl := h.eq_of_name hq hp hqname hname
    exact .inl (Prod.mk.inj heq).2
  · -- any other name was declared in the module, and beside it was what is beside it now
    have hmem : p ∈ (placementsOf root').filter (·.name ∉ made front ds) :=
      List.mem_filter.mpr ⟨hp, by simpa⟩
    rw [h.placements] at hmem
    obtain ⟨q, hq, rfl⟩ := List.mem_map.mp hmem
    have hallows := hc q (List.mem_of_mem_filter hq)
    rw [Option.none_or] at hallows
    intro k n hfirst
    have hfirst' := (h.firstAt?_placements hc h.imports hname q.scope).symm.trans hfirst
    obtain ⟨⟨k', n'⟩, hheld, heq⟩ := Option.map_eq_some_iff.mp hfirst'
    obtain ⟨rfl, rfl⟩ := Prod.mk.inj heq
    exact (hallows k' n' (Option.filter_eq_some_iff.mp hheld).1).imp_left (congrArg w.moved)

/-! ## What names mean -/

theorem seen_scope (h : w.Whole root root' front steps ds) (params : List Nat) (s : Nat)
    (d : BindingKind × Nat) :
    ScopeTree.seen (params.map w.scope) (w.scope s) (d.1, w.moved d.2) =
      (ScopeTree.seen params s d).map w.scope := by
  have hcontains : (params.map w.scope).contains (w.scope s) = params.contains s := by
    rw [Bool.eq_iff_iff, List.contains_iff_mem, List.contains_iff_mem, List.mem_map]
    constructor
    · rintro ⟨s', hs', heq⟩
      exact scope_inj h.opened_ne_zero heq ▸ hs'
    · exact fun hs => ⟨s, hs, rfl⟩
  unfold ScopeTree.seen
  rw [hcontains]
  split <;> rfl

/-- What a name means in the scopes around a place is what it meant before, unless it was an
import. -/
theorem findSome?_chain (h : w.Whole root root' front steps ds)
    (hc : Compatible (fun _ _ => none) (placementsOf root)) {x : String} (hx : x ∉ made front ds)
    {params chain : List Nat}
    (hplain : ∀ s n, (chain.findSome? fun s =>
        (firstAt? (placementsOf root) s x).bind (ScopeTree.seen params s)) = some s →
      firstAt? (placementsOf root) s x ≠ some (.imported, n)) :
    ((w.chain chain).findSome? fun s =>
        (firstAt? (placementsOf root') s x).bind (ScopeTree.seen (params.map w.scope) s)) =
      (chain.findSome? fun s =>
        (firstAt? (placementsOf root) s x).bind (ScopeTree.seen params s)).map w.scope := by
  induction chain with
  | nil =>
    -- the program's scope of the other tree, which holds no name of the module
    change ([0].findSome? _) = none
    rw [List.findSome?_singleton, h.firstAt?_program hx]
    rfl
  | cons s chain ih =>
    change ((w.scope s :: w.chain chain).findSome? _) = _
    rw [List.findSome?_cons, List.findSome?_cons, h.firstAt?_placements hc h.imports hx]
    rw [List.findSome?_cons] at hplain
    cases hfirst : firstAt? (placementsOf root) s x with
    | none =>
      rw [hfirst] at hplain
      exact ih hplain
    | some d =>
      rw [hfirst, Option.bind_some] at hplain
      cases hseen : ScopeTree.seen params s d with
      | none =>
        -- what is hidden stays hidden, and an import is not there any longer
        rw [hseen] at hplain
        have hhidden : (((some d).filter (·.1 ≠ .imported)).map fun d => (d.1, w.moved d.2)).bind
            (ScopeTree.seen (params.map w.scope) (w.scope s)) = none := by
          rw [Option.filter_some]
          split
          · rw [Option.map_some, Option.bind_some, h.seen_scope, hseen]
            rfl
          · rfl
        rw [hhidden, Option.bind_some, hseen]
        exact ih hplain
      | some s' =>
        obtain rfl : s = s' := by
          unfold ScopeTree.seen at hseen
          split at hseen
          · cases hseen
          · exact Option.some.inj hseen
        -- the search stops here, so this is no import
        have hkind : d.1 ≠ .imported := by
          intro hkind
          rw [hseen] at hplain
          exact hplain s d.2 rfl (by rw [hfirst, ← hkind])
        rw [Option.filter_some, if_pos (by simpa using hkind), Option.map_some, Option.bind_some,
          h.seen_scope, hseen, Option.bind_some, hseen]
        rfl

/-- A use means what it meant before, unless it is gone. -/
theorem targetIn? (h : w.Whole root root' front steps ds)
    (hc : Compatible (fun _ _ => none) (placementsOf root)) {u : Use} (hu : u ∈ usesIn root)
    (hgone : w.gone u.node = false) : Scope.targetIn? (placementsOf root') (w.use u) =
      (Scope.targetIn? (placementsOf root) u).map w.scope := by
  refine h.findSome?_chain hc (h.unused u hu) fun s n hs hfirst => ?_
  rw [h.gone u hu s n hs hfirst] at hgone
  cases hgone

/-! ## What is recorded -/

theorem exists_collect (h : w.Whole root root' front steps ds) {t : ScopeTree}
    (ht : collect root = .ok t) : ∃ t', collect root' = .ok t' :=
  collect_iff.mpr (h.compatible (collect_iff.mp ⟨t, ht⟩))

variable {t t' : ScopeTree}

/-- The nodes that open scopes stand for those of the module. -/
theorem node_scope (h : w.Whole root root' front steps ds) (ht : Collected root t)
    (ht' : Collected root' t') (s : Nat) :
    t'.scopes[w.scope s]?.map (·.node) = t.scopes[s]?.map fun sc => w.moved sc.node := by
  have hnodes : t.scopes[s]?.map (fun sc => w.moved sc.node) =
      ((openersOf root)[s]?).map w.moved := by
    rw [ht.getElem?_openersOf, Option.map_map]
    rfl
  obtain ⟨kinds, hfront, hopened⟩ := h.function
  have hlength : (openers front).length = w.opened := by
    rw [length_openers, ← length_kindsOpened, hfront, hopened, List.length_cons]
  rw [hnodes, ← ht'.getElem?_openersOf, openersOf, openersOf, h.walk, openers_append,
    h.mirrored.openers]
  cases s with
  | zero =>
    -- the first scope that is opened in front
    change (openers front ++ _)[0]? = some (w.moved root.id)
    rw [List.getElem?_append_left (by omega), ← List.head?_eq_getElem?, h.owner]
  | succ s =>
    have hscope : w.scope (s + 1) = w.opened + s + 1 := by
      unfold scope
      rw [if_neg (Nat.succ_ne_zero s)]
      omega
    rw [hscope, List.getElem?_cons_succ, List.getElem?_cons_succ,
      List.getElem?_append_right (by omega), hlength, Nat.add_sub_cancel_left, List.getElem?_map]

/-- The scopes have the same kinds, but that the program's became that of the function. -/
theorem kind_scope (h : w.Whole root root' front steps ds) (ht : Collected root t)
    (ht' : Collected root' t') {s : Nat} (hs : s ≠ 0) :
    t'.scopes[w.scope s]?.map (·.kind) = t.scopes[s]?.map (·.kind) := by
  have hkinds : ∀ {root t}, Collected root t → Scope.kindsOf root = t.kinds := by
    intro root t ht
    rw [ScopeTree.kinds, ht.shapes]
    rfl
  rw [← ScopeTree.getElem?_kinds, ← ScopeTree.getElem?_kinds, ← hkinds ht, ← hkinds ht',
    h.kinds.inner s hs]

theorem mem_usesIn (h : w.Whole root root' front steps ds) {u : Use} (hu : u ∈ usesIn root)
    (hgone : w.gone u.node = false) : w.use u ∈ usesIn root' := by
  rw [usesIn, h.walk, List.flatMap_append]
  exact List.mem_append_right _ (h.mirrored.mem_uses hu hgone)

/-- The old uses of the other tree are those of the module that are not gone. -/
theorem exists_use (h : w.Whole root root' front steps ds) {u' : Use} (hu : u' ∈ usesIn root')
    (hold : w.old u'.node) : ∃ u ∈ usesIn root, w.gone u.node = false ∧ u' = w.use u := by
  rw [usesIn, h.walk, List.flatMap_append, List.mem_append] at hu
  rcases hu with hu | hu
  · obtain ⟨e, he, hu⟩ := List.mem_flatMap.mp hu
    exact absurd hold (h.new e he u' hu)
  · exact (h.mirrored.uses hu).resolve_right fun hnew => hnew.1 hold

theorem bindingAt?_scope (h : w.Whole root root' front steps ds) (ht : Collected root t)
    (ht' : Collected root' t') (hc : Compatible (fun _ _ => none) (placementsOf root)) {x : String}
    (hx : x ∉ made front ds) {s : Nat} {b' : Binding} (hb : t'.bindingAt? (w.scope s) x = some b') :
    ∃ b, t.bindingAt? s x = some b ∧ b.kind = b'.kind := by
  have hfirst := ht'.firstAt? hb
  rw [h.firstAt?_placements hc h.imports hx, ← ht.declared] at hfirst
  obtain ⟨d, hd, heq⟩ := Option.map_eq_some_iff.mp hfirst
  obtain ⟨b, hb, rfl⟩ := Option.map_eq_some_iff.mp (Option.filter_eq_some_iff.mp hd).1
  exact ⟨b, hb, (Prod.mk.inj heq).1⟩

/-- The names that are made are none of those that the module declares. -/
theorem not_made (h : w.Whole root root' front steps ds) (ht : Collected root t) {s : Nat}
    {x : String} {b : Binding} (hb : t.bindingAt? s x = some b) : x ∉ made front ds := by
  have hname : x ∈ (placementsOf root).map (·.name) :=
    List.mem_map_of_mem (f := Placement.name) (ht.mem_placementsOf hb)
  rw [placementsOf, map_name_placements] at hname
  obtain ⟨d, hd, hname⟩ := List.mem_map.mp hname
  obtain ⟨e, he, hd⟩ := List.mem_flatMap.mp hd
  exact hname ▸ h.undeclared e he d hd

/-- A binding of the module that is no import is found in the other tree. -/
theorem exists_binding (h : w.Whole root root' front steps ds) (ht : Collected root t)
    (ht' : Collected root' t') (hc : Compatible (fun _ _ => none) (placementsOf root)) {s : Nat}
    {x : String} {b : Binding} (hb : t.bindingAt? s x = some b) (hkind : b.kind ≠ .imported) :
    ∃ b', t'.bindingAt? (w.scope s) x = some b' ∧ b'.kind = b.kind ∧ b'.node = w.moved b.node := by
  have hdeclared' : t'.declared? (w.scope s) x = some (b.kind, w.moved b.node) := by
    rw [ht'.declared, h.firstAt?_placements hc h.imports (h.not_made ht hb), ht.firstAt? hb,
      Option.filter_some, if_pos (by simpa using hkind)]
    rfl
  obtain ⟨b', hb', heq⟩ := Option.map_eq_some_iff.mp hdeclared'
  exact ⟨b', hb', (Prod.mk.inj heq).1, (Prod.mk.inj heq).2⟩

/-- A binding that lists an identifier, if it is no use of an import, lists it in the other tree. -/
theorem listed (h : w.Whole root root' front steps ds) (ht : Collected root t)
    (ht' : Collected root' t') (hc : Compatible (fun _ _ => none) (placementsOf root)) {s i : Nat}
    {x : String} {b : Binding} {access : Access} (hb : t.bindingAt? s x = some b)
    (hi : i ∈ b.listed access) (hgone : w.gone i = false) :
    ∃ b', t'.bindingAt? (w.scope s) x = some b' ∧ b'.kind = b.kind ∧ b'.node = w.moved b.node ∧
      i ∈ b'.listed access := by
  obtain ⟨u, hu, rfl, rfl, rfl, htarget⟩ := (ht.mem_listed hb access i).mp hi
  have hkind : b.kind ≠ .imported := by
    intro hkind
    rw [h.gone u hu s b.node htarget (hkind ▸ ht.firstAt? hb)] at hgone
    cases hgone
  obtain ⟨b', hb', hkind', hnode⟩ := h.exists_binding ht ht' hc hb hkind
  refine ⟨b', hb', hkind', hnode, ?_⟩
  refine (ht'.mem_listed hb' u.access u.node).mpr
    ⟨w.use u, h.mem_usesIn hu hgone, rfl, rfl, rfl, ?_⟩
  rw [h.targetIn? hc hu hgone, htarget]
  rfl

/-- What lists an old identifier in the other tree is a binding of the module that lists it. -/
theorem of_listed (h : w.Whole root root' front steps ds) (ht : Collected root t)
    (ht' : Collected root' t') (hc : Compatible (fun _ _ => none) (placementsOf root)) {s' i : Nat}
    {x : String} {b' : Binding} {access : Access} (hb : t'.bindingAt? s' x = some b')
    (hi : i ∈ b'.listed access) (hold : w.old i) : ∃ s b, s' = w.scope s ∧
      t.bindingAt? s x = some b ∧ b.kind = b'.kind ∧ i ∈ b.listed access := by
  obtain ⟨u', hu', rfl, rfl, rfl, htarget⟩ := (ht'.mem_listed hb access i).mp hi
  obtain ⟨u, hu, hgone, rfl⟩ := h.exists_use hu' hold
  rw [h.targetIn? hc hu hgone] at htarget
  obtain ⟨s, hs, rfl⟩ := Option.map_eq_some_iff.mp htarget
  obtain ⟨b, hb, hkind⟩ := h.bindingAt?_scope ht ht' hc (h.unused u hu) hb
  exact ⟨s, b, rfl, hb, hkind, (ht.mem_listed hb u.access u.node).mpr
    ⟨u, hu, rfl, rfl, rfl, hs⟩⟩

/-- The globals among the old identifiers are those of the module. -/
theorem globals_iff (h : w.Whole root root' front steps ds) (ht : Collected root t)
    (ht' : Collected root' t') (hc : Compatible (fun _ _ => none) (placementsOf root)) {i : Nat}
    (hold : w.old i) (hgone : w.gone i = false) : i ∈ t'.globals ↔ i ∈ t.globals := by
  rw [ht'.globals, ht.globals]
  constructor
  · rintro ⟨u', hu', rfl, htarget⟩
    obtain ⟨u, hu, -, rfl⟩ := h.exists_use hu' hold
    rw [h.targetIn? hc hu hgone, Option.map_eq_none_iff] at htarget
    exact ⟨u, hu, rfl, htarget⟩
  · rintro ⟨u, hu, rfl, htarget⟩
    refine ⟨w.use u, h.mem_usesIn hu hgone, rfl, ?_⟩
    rw [h.targetIn? hc hu hgone, htarget]
    rfl

end Embedding.Whole

end EsModule.Scope
