import EsModule.Proofs.Scope.Resolve
import Mathlib.Data.List.Find

/-!
# The declarations of a tree as a list

Which scope a place means depends on the kinds of the scopes around it alone, and these are those of
the nodes that open them. So the declarations of a tree are a list of names with the scopes that
receive them: the first declaration of a name in a scope is the binding (`firstAt?`), and collecting
ends well if all others of the name may stand beside it (`collect_iff`).
-/

namespace EsModule.Scope

open EsModule.Syntax

/-- A declaration with the scope that receives it. -/
structure Placement where
  /-- The scope. -/
  scope : Nat
  /-- How the name is declared. -/
  kind : BindingKind
  /-- The declared name. -/
  name : String
  /-- The number of the node that declares it. -/
  node : Nat
deriving DecidableEq

/-- The first declaration of a name in a scope. -/
def firstAt? (ps : List Placement) (s : Nat) (x : String) : Option (BindingKind × Nat) :=
  (ps.find? fun p => p.scope = s ∧ p.name = x).map fun p => (p.kind, p.node)

theorem firstAt?_cons (p : Placement) (ps : List Placement) (s : Nat) (x : String) :
    firstAt? (p :: ps) s x =
      if p.scope = s ∧ p.name = x then some (p.kind, p.node) else firstAt? ps s x := by
  unfold firstAt?
  rw [List.find?_cons]
  by_cases h : p.scope = s ∧ p.name = x <;> simp [h]

theorem firstAt?_append (ps qs : List Placement) (s : Nat) (x : String) :
    firstAt? (ps ++ qs) s x = (firstAt? ps s x).or (firstAt? qs s x) := by
  unfold firstAt?
  rw [List.find?_append]
  cases ps.find? _ <;> rfl

theorem firstAt?_eq_none {ps : List Placement} {s : Nat} {x : String} :
    firstAt? ps s x = none ↔ ∀ p ∈ ps, p.scope = s → p.name ≠ x := by
  simp [firstAt?]

theorem exists_of_firstAt? {ps : List Placement} {s : Nat} {x : String} {d : BindingKind × Nat}
    (h : firstAt? ps s x = some d) : ∃ p ∈ ps, p.scope = s ∧ p.name = x ∧ d = (p.kind, p.node) := by
  unfold firstAt? at h
  obtain ⟨p, hp, rfl⟩ := Option.map_eq_some_iff.mp h
  have hkey := List.find?_some hp
  simp only [decide_eq_true_eq] at hkey
  exact ⟨p, List.mem_of_find?_eq_some hp, hkey.1, hkey.2, rfl⟩

theorem mem_of_firstAt? {ps : List Placement} {s : Nat} {x : String} {kind : BindingKind} {i : Nat}
    (h : firstAt? ps s x = some (kind, i)) : ⟨s, kind, x, i⟩ ∈ ps := by
  obtain ⟨q, hq, rfl, rfl, heq⟩ := exists_of_firstAt? h
  obtain ⟨rfl, rfl⟩ := Prod.mk.inj heq
  exact hq

theorem firstAt?_isSome_of_mem {ps : List Placement} {p : Placement} (h : p ∈ ps) :
    ∃ d, firstAt? ps p.scope p.name = some d := by
  cases hfirst : firstAt? ps p.scope p.name with
  | none => exact absurd rfl (firstAt?_eq_none.mp hfirst p h rfl)
  | some d => exact ⟨d, rfl⟩

/-- Whether some declarations can all be made one after the other, if a name may be held by a
scope before. -/
def Compatible (held : Nat → String → Option (BindingKind × Nat)) (ps : List Placement) : Prop :=
  ∀ p ∈ ps, ScopeTree.Allows ((held p.scope p.name).or (firstAt? ps p.scope p.name)) p.kind p.node

theorem compatible_append {held : Nat → String → Option (BindingKind × Nat)}
    {ps qs : List Placement} : Compatible held (ps ++ qs) ↔ Compatible held ps ∧
      Compatible (fun s x => (held s x).or (firstAt? ps s x)) qs := by
  unfold Compatible
  simp only [List.mem_append, or_imp, forall_and, firstAt?_append, ← Option.or_assoc]
  refine and_congr_left fun _ => forall_congr' fun p => imp_congr_right fun hp => ?_
  obtain ⟨d, hd⟩ := firstAt?_isSome_of_mem hp
  cases held p.scope p.name <;> simp [hd]

theorem compatible_singleton {held : Nat → String → Option (BindingKind × Nat)} {p : Placement} :
    Compatible held [p] ↔ ScopeTree.Allows (held p.scope p.name) p.kind p.node := by
  unfold Compatible ScopeTree.Allows
  cases h : held p.scope p.name <;> simp [firstAt?_cons, h]

namespace ScopeTree

/-- Makes declarations one after the other. -/
def placeAll (t : ScopeTree) (ps : List Placement) : Except Redeclaration ScopeTree :=
  ps.foldlM (fun t p => t.declare p.scope p.kind p.name p.node) t

theorem declared?_place {t t' : ScopeTree} {p : Placement} (hp : p.scope < t.scopes.size)
    (h : t.declare p.scope p.kind p.name p.node = .ok t') (s : Nat) (x : String) :
    t'.declared? s x = (t.declared? s x).or (firstAt? [p] s x) := by
  rw [declared?_declare h, firstAt?_cons]
  by_cases hkey : p.scope = s ∧ p.name = x
  · obtain ⟨rfl, rfl⟩ := hkey
    simp [hp]
  · rw [if_neg hkey, if_neg fun h => hkey ⟨h.1.symm, h.2.1.symm⟩]
    simp [firstAt?]

theorem declared?_placeAll {t t' : ScopeTree} {ps : List Placement}
    (hps : ∀ p ∈ ps, p.scope < t.scopes.size) (h : t.placeAll ps = .ok t') (s : Nat) (x : String) :
    t'.declared? s x = (t.declared? s x).or (firstAt? ps s x) := by
  induction ps generalizing t with
  | nil =>
    obtain rfl := Except.ok.inj h
    simp [firstAt?]
  | cons p ps ih =>
    rw [placeAll, List.foldlM_cons] at h
    obtain ⟨t1, h1, h⟩ := bind_eq_ok.mp h
    have hsize := size_declare h1
    rw [ih (fun q hq => hsize ▸ hps q (List.mem_cons_of_mem _ hq)) h,
      declared?_place (hps p List.mem_cons_self) h1, Option.or_assoc, ← firstAt?_append]
    rfl

theorem placeAll_iff {t : ScopeTree} {ps : List Placement}
    (hps : ∀ p ∈ ps, p.scope < t.scopes.size) :
    (∃ t', t.placeAll ps = .ok t') ↔ Compatible t.declared? ps := by
  induction ps generalizing t with
  | nil => exact ⟨fun _ => nofun, fun _ => ⟨t, rfl⟩⟩
  | cons p ps ih =>
    rw [← List.singleton_append, compatible_append, compatible_singleton, ← declare_eq_ok]
    have hrest : ∀ t1, t.declare p.scope p.kind p.name p.node = .ok t1 →
        ((∃ t', t1.placeAll ps = .ok t') ↔
          Compatible (fun s x => (t.declared? s x).or (firstAt? [p] s x)) ps) := by
      intro t1 h1
      have hsize := size_declare h1
      rw [ih fun q hq => hsize ▸ hps q (List.mem_cons_of_mem _ hq)]
      have hheld : t1.declared? = fun s x => (t.declared? s x).or (firstAt? [p] s x) := by
        funext s x
        exact declared?_place (hps p List.mem_cons_self) h1 s x
      rw [hheld]
    have hsplit : (∃ t', t.placeAll ([p] ++ ps) = .ok t') ↔
        ∃ t1, t.declare p.scope p.kind p.name p.node = .ok t1 ∧ ∃ t', t1.placeAll ps = .ok t' := by
      simp only [placeAll, List.singleton_append, List.foldlM_cons, bind_eq_ok]
      exact ⟨fun ⟨t', t1, h1, h⟩ => ⟨t1, h1, t', h⟩, fun ⟨t1, h1, t', h⟩ => ⟨t', t1, h1, h⟩⟩
    rw [hsplit]
    constructor
    · rintro ⟨t1, h1, h⟩
      exact ⟨⟨t1, h1⟩, (hrest t1 h1).mp h⟩
    · rintro ⟨⟨t1, h1⟩, h⟩
      exact ⟨t1, h1, (hrest t1 h1).mpr h⟩

end ScopeTree

/-! ## Where a place is -/

/-- The nearest scope of a chain whose kind a test accepts, or else the program's. -/
def nearest (kinds : List ScopeKind) (test : ScopeKind → Bool) (chain : List Nat) : Nat :=
  (chain.find? fun s => kinds[s]?.any test).getD 0

/-- The scope that a place means, by the kinds of all scopes. -/
def placeIn (kinds : List ScopeKind) (chain : List Nat) : Place → Nat
  | .innermost => chain.headD 0
  | .block => nearest kinds ScopeKind.isBlockParent chain
  | .outerBlock => nearest kinds ScopeKind.isBlockParent chain.tail
  | .function => nearest kinds ScopeKind.isFunctionParent chain

/-- The kinds of all scopes. -/
def ScopeTree.kinds (t : ScopeTree) : List ScopeKind := t.shapes.map (·.1)

theorem ScopeTree.getElem?_kinds (t : ScopeTree) (s : Nat) :
    t.kinds[s]? = t.scopes[s]?.map (·.kind) := by
  rw [kinds, List.getElem?_map, getElem?_shapes, Option.map_map]
  rfl

theorem ScopeTree.length_kinds (t : ScopeTree) : t.kinds.length = t.scopes.size := by
  simp [kinds, shapes]

theorem ScopeTree.placed_eq (t : ScopeTree) (chain : List Nat) (place : Place) :
    t.placed chain place = placeIn t.kinds chain place := by
  have htest : ∀ test, t.scopeSatisfies test = fun s => t.kinds[s]?.any test := by
    intro test
    funext s
    rw [getElem?_kinds, Option.any_map]
    rfl
  cases place <;> simp only [placed, blockParent, functionParent, htest, placeIn, nearest]

theorem nearest_append {kinds more : List ScopeKind} {test : ScopeKind → Bool} {chain : List Nat}
    (h : ∀ s ∈ chain, s < kinds.length) :
    nearest (kinds ++ more) test chain = nearest kinds test chain := by
  unfold nearest
  congr 1
  refine List.find?_congr fun s hs => ?_
  rw [List.getElem?_append_left (h s hs)]

theorem placeIn_append {kinds more : List ScopeKind} {chain : List Nat}
    (h : ∀ s ∈ chain, s < kinds.length) (place : Place) :
    placeIn (kinds ++ more) chain place = placeIn kinds chain place := by
  cases place with
  | innermost => rfl
  | block => exact nearest_append h
  | outerBlock => exact nearest_append fun s hs => h s (List.mem_of_mem_tail hs)
  | function => exact nearest_append h

theorem nearest_lt {kinds : List ScopeKind} {test : ScopeKind → Bool} {chain : List Nat} {n : Nat}
    (hn : 0 < n) (h : ∀ s ∈ chain, s < n) : nearest kinds test chain < n := by
  unfold nearest
  cases hfind : chain.find? _ with
  | none => exact hn
  | some s => exact h s (List.mem_of_find?_eq_some hfind)

theorem placeIn_lt {kinds : List ScopeKind} {chain : List Nat} {n : Nat} (hn : 0 < n)
    (h : ∀ s ∈ chain, s < n) (place : Place) : placeIn kinds chain place < n := by
  cases place with
  | innermost =>
    cases chain with
    | nil => exact hn
    | cons s chain => exact h s List.mem_cons_self
  | block => exact nearest_lt hn h
  | outerBlock => exact nearest_lt hn fun s hs => h s (List.mem_of_mem_tail hs)
  | function => exact nearest_lt hn h

/-- A place means one of the scopes around it, if it does not mean the program's. -/
theorem placeIn_mem {kinds : List ScopeKind} {chain : List Nat} {place : Place}
    (h : placeIn kinds chain place ≠ 0) : placeIn kinds chain place ∈ chain := by
  have hnearest : ∀ {test chain}, nearest kinds test chain ≠ 0 → nearest kinds test chain ∈ chain := by
    intro test chain h
    unfold nearest at h ⊢
    cases hfind : chain.find? _ with
    | none => simp [hfind] at h
    | some s => exact List.mem_of_find?_eq_some hfind
  cases place with
  | innermost =>
    cases chain with
    | nil => exact absurd rfl h
    | cons s chain => exact List.mem_cons_self
  | block => exact hnearest h
  | outerBlock => exact List.mem_of_mem_tail (hnearest h)
  | function => exact hnearest h

/-! ## The declarations of steps -/

/-- The scopes that some steps open: their kinds, the nodes that open them, and the scopes around
them. -/
def scopesOpened (es : List Step) : List (ScopeKind × Nat × List Nat) :=
  es.filterMap fun e => e.scope.map (·, e.node, e.outer)

/-- The kinds of the scopes that some steps open. -/
def kindsOpened (es : List Step) : List ScopeKind := (scopesOpened es).map (·.1)

/-- The declarations of a step with the scopes that receive them. -/
def Step.placements (kinds : List ScopeKind) (e : Step) : List Placement :=
  e.declares.map fun d => ⟨placeIn kinds e.chain d.place, d.kind, d.name, d.node⟩

/-- The declarations of some steps with the scopes that receive them. -/
def placements (kinds : List ScopeKind) (es : List Step) : List Placement :=
  es.flatMap (·.placements kinds)

theorem placements_singleton (kinds : List ScopeKind) (e : Step) :
    placements kinds [e] = e.placements kinds :=
  List.flatMap_singleton ..

/-- Whether the scopes around each of some steps are opened before it. -/
def Numbered : List Step → Nat → Prop
  | [], _ => True
  | e :: es, next =>
    (∀ s ∈ e.chain, s < next + openings [e]) ∧ Numbered es (next + openings [e])

theorem scopesOpened_append (es fs : List Step) :
    scopesOpened (es ++ fs) = scopesOpened es ++ scopesOpened fs :=
  List.filterMap_append

theorem kindsOpened_append (es fs : List Step) :
    kindsOpened (es ++ fs) = kindsOpened es ++ kindsOpened fs := by
  rw [kindsOpened, scopesOpened_append, List.map_append]
  rfl

theorem length_kindsOpened (es : List Step) : (kindsOpened es).length = openings es := by
  unfold kindsOpened scopesOpened openings
  rw [List.length_map, List.length_filterMap_eq_countP]
  simp

theorem Step.declared?_labelled_opened (e : Step) (t : ScopeTree) :
    (e.labelled (e.opened t)).declared? = t.declared? := by
  funext s x
  unfold ScopeTree.declared?
  rw [e.bindingAt?_labelled, e.bindingAt?_opened]

theorem shapes_placeAll {t t' : ScopeTree} {ps : List Placement} (h : t.placeAll ps = .ok t') :
    t'.shapes = t.shapes := by
  induction ps generalizing t with
  | nil =>
    obtain rfl := Except.ok.inj h
    rfl
  | cons p ps ih =>
    rw [ScopeTree.placeAll, List.foldlM_cons] at h
    obtain ⟨t1, h1, h⟩ := bind_eq_ok.mp h
    rw [ih h, ScopeTree.shapes_declare h1]

theorem Step.shapes_labelled_opened (e : Step) (t : ScopeTree) :
    (e.labelled (e.opened t)).shapes = t.shapes ++ scopesOpened [e] := by
  have hlabel : ∀ t : ScopeTree, (e.labelled t).shapes = t.shapes := by
    intro t
    unfold labelled
    split
    · exact t.shapes_label ..
    · rfl
  rw [hlabel]
  unfold opened scopesOpened
  split
  · rename_i h
    simp [ScopeTree.shapes_openScope, h]
  · rename_i h
    simp [h]

theorem Step.kinds_labelled_opened (e : Step) (t : ScopeTree) :
    (e.labelled (e.opened t)).kinds = t.kinds ++ kindsOpened [e] := by
  rw [ScopeTree.kinds, e.shapes_labelled_opened, List.map_append]
  rfl

/-- The declarations of a step are made where its places are. -/
theorem Step.foldlM_declare {e : Step} {t : ScopeTree} (kinds : List ScopeKind)
    (hk : ∀ place, placeIn t.kinds e.chain place = placeIn kinds e.chain place) :
    e.declares.foldlM e.declare t = t.placeAll (e.placements kinds) := by
  unfold Step.placements ScopeTree.placeAll
  rw [List.foldlM_map]
  induction e.declares generalizing t with
  | nil => rfl
  | cons d ds ih =>
    rw [List.foldlM_cons, List.foldlM_cons]
    have hd : e.declare t d = t.declare (placeIn kinds e.chain d.place) d.kind d.name d.node := by
      rw [Step.declare, ScopeTree.placed_eq, hk]
    rw [hd]
    cases h : t.declare (placeIn kinds e.chain d.place) d.kind d.name d.node with
    | error r => rfl
    | ok t1 => exact ih fun place => by rw [ScopeTree.kinds, ScopeTree.shapes_declare h]; exact hk place

/-- A step makes its declarations, and notes its uses. -/
theorem Step.run_eq {found : Findings} {e : Step} (more : List ScopeKind)
    (he : ∀ s ∈ e.chain, s < found.tree.scopes.size + openings [e]) :
    e.run found = ((e.labelled (e.opened found.tree)).placeAll
      (e.placements (found.tree.kinds ++ kindsOpened [e] ++ more))).bind
        fun t => .ok ⟨t, found.uses ++ e.uses⟩ := by
  unfold Step.run
  rw [Step.foldlM_declare (found.tree.kinds ++ kindsOpened [e] ++ more) fun place => ?_]
  · rfl
  · rw [e.kinds_labelled_opened]
    refine (placeIn_append (fun s hs => ?_) place).symm
    rw [List.length_append, ScopeTree.length_kinds, length_kindsOpened]
    exact he s hs

theorem placements_lt {kinds : List ScopeKind} {e : Step} {n : Nat} (hn : 0 < n)
    (he : ∀ s ∈ e.chain, s < n) : ∀ p ∈ e.placements kinds, p.scope < n := by
  intro p hp
  obtain ⟨d, -, rfl⟩ := List.mem_map.mp hp
  exact placeIn_lt hn he d.place

/-- What is known of findings to which steps have been added. -/
structure Adds (kinds : List ScopeKind) (es : List Step) (found found' : Findings) : Prop where
  /-- The scopes that the steps open come behind the others. -/
  opened : found'.tree.shapes = found.tree.shapes ++ scopesOpened es
  /-- A name is bound by its first declaration. -/
  declared : ∀ s x, found'.tree.declared? s x =
    (found.tree.declared? s x).or (firstAt? (placements kinds es) s x)
  /-- The uses come behind the others. -/
  uses : found'.uses.toList = found.uses.toList ++ es.flatMap (·.uses)

theorem Adds.kinds {kinds : List ScopeKind} {es : List Step} {found found' : Findings}
    (h : Adds kinds es found found') : found'.tree.kinds = found.tree.kinds ++ kindsOpened es := by
  rw [ScopeTree.kinds, h.opened, List.map_append]
  rfl

theorem Step.adds {found found' : Findings} {e : Step} (more : List ScopeKind)
    (hpos : 0 < found.tree.scopes.size)
    (he : ∀ s ∈ e.chain, s < found.tree.scopes.size + openings [e])
    (h : e.run found = .ok found') :
    Adds (found.tree.kinds ++ kindsOpened [e] ++ more) [e] found found' := by
  rw [Step.run_eq more he] at h
  obtain ⟨t, ht, h⟩ := bind_eq_ok.mp h
  obtain rfl := Except.ok.inj h
  refine ⟨?_, fun s x => ?_, ?_⟩
  · rw [shapes_placeAll ht, e.shapes_labelled_opened]
  · have hsize : (e.labelled (e.opened found.tree)).scopes.size =
        found.tree.scopes.size + openings [e] := by
      rw [e.size_labelled, e.size_opened]
    dsimp only
    rw [ScopeTree.declared?_placeAll (hsize ▸ placements_lt (by omega) he) ht,
      e.declared?_labelled_opened, placements_singleton]
  · simp

theorem foldlM_adds {es : List Step} {found found' : Findings} {kinds : List ScopeKind}
    (hpos : 0 < found.tree.scopes.size) (hes : Numbered es found.tree.scopes.size)
    (hkinds : found.tree.kinds ++ kindsOpened es <+: kinds)
    (h : es.foldlM Step.run found = .ok found') : Adds kinds es found found' := by
  induction es generalizing found with
  | nil =>
    obtain rfl := Except.ok.inj h
    exact ⟨by simp [scopesOpened], fun s x => by simp [placements, firstAt?], by simp⟩
  | cons e es ih =>
    obtain ⟨he, hes⟩ := hes
    rw [← List.singleton_append, kindsOpened_append, ← List.append_assoc] at hkinds
    obtain ⟨more, rfl⟩ := (List.prefix_append _ _).trans hkinds
    rw [List.foldlM_cons] at h
    obtain ⟨found1, h1, h⟩ := bind_eq_ok.mp h
    have hadds := Step.adds more hpos he h1
    have hsize := Step.size_run h1
    have hrest := ih (by omega) (hsize ▸ hes) (by rw [hadds.kinds]; exact hkinds) h
    refine ⟨?_, fun s x => ?_, ?_⟩
    · rw [hrest.opened, hadds.opened, List.append_assoc, ← scopesOpened_append, List.singleton_append]
    · rw [hrest.declared, hadds.declared, Option.or_assoc, ← firstAt?_append]
      simp [placements]
    · rw [hrest.uses, hadds.uses]
      simp

/-- Steps can be taken if the declarations that they make can be made. -/
theorem foldlM_run_iff {es : List Step} {found : Findings} {kinds : List ScopeKind}
    (hpos : 0 < found.tree.scopes.size) (hes : Numbered es found.tree.scopes.size)
    (hkinds : found.tree.kinds ++ kindsOpened es <+: kinds) :
    (∃ found', es.foldlM Step.run found = .ok found') ↔
      Compatible found.tree.declared? (placements kinds es) := by
  induction es generalizing found with
  | nil => exact ⟨fun _ => nofun, fun _ => ⟨found, rfl⟩⟩
  | cons e es ih =>
    obtain ⟨he, hes⟩ := hes
    rw [← List.singleton_append, kindsOpened_append, ← List.append_assoc] at hkinds
    obtain ⟨more, rfl⟩ := (List.prefix_append _ _).trans hkinds
    have hstart : (e.labelled (e.opened found.tree)).scopes.size =
        found.tree.scopes.size + openings [e] := by
      rw [e.size_labelled, e.size_opened]
    -- the first step
    have hfirst : (∃ found1, e.run found = .ok found1) ↔ Compatible found.tree.declared?
        (e.placements (found.tree.kinds ++ kindsOpened [e] ++ more)) := by
      rw [Step.run_eq more he, ← e.declared?_labelled_opened,
        ← ScopeTree.placeAll_iff (hstart ▸ placements_lt (by omega) he)]
      constructor
      · rintro ⟨found1, h⟩
        obtain ⟨t, ht, -⟩ := bind_eq_ok.mp h
        exact ⟨t, ht⟩
      · rintro ⟨t, ht⟩
        exact ⟨_, bind_eq_ok.mpr ⟨t, ht, rfl⟩⟩
    -- the other steps
    have hrest : ∀ found1, e.run found = .ok found1 →
        ((∃ found', es.foldlM Step.run found1 = .ok found') ↔ Compatible
          (fun s x => (found.tree.declared? s x).or
            (firstAt? (e.placements (found.tree.kinds ++ kindsOpened [e] ++ more)) s x))
          (placements (found.tree.kinds ++ kindsOpened [e] ++ more) es)) := by
      intro found1 h1
      have hadds := Step.adds more hpos he h1
      have hsize := Step.size_run h1
      rw [ih (by omega) (hsize ▸ hes) (by rw [hadds.kinds]; exact hkinds)]
      have hheld : found1.tree.declared? = fun s x => (found.tree.declared? s x).or
          (firstAt? (e.placements (found.tree.kinds ++ kindsOpened [e] ++ more)) s x) := by
        funext s x
        rw [hadds.declared, placements_singleton]
      rw [hheld]
    rw [placements, List.flatMap_cons, compatible_append, ← hfirst]
    simp only [List.foldlM_cons, bind_eq_ok]
    constructor
    · rintro ⟨found', found1, h1, h⟩
      exact ⟨⟨found1, h1⟩, (hrest found1 h1).mp ⟨found', h⟩⟩
    · rintro ⟨⟨found1, h1⟩, h⟩
      obtain ⟨found', h⟩ := (hrest found1 h1).mpr h
      exact ⟨found', found1, h1, h⟩

/-! ## The declarations of a tree -/

theorem numbered_append {es fs : List Step} {next : Nat} : Numbered (es ++ fs) next ↔
    Numbered es next ∧ Numbered fs (next + openings es) := by
  induction es generalizing next with
  | nil => simp [Numbered, openings]
  | cons e es ih =>
    have hopen : openings (e :: es) = openings [e] + openings es := openings_append [e] es
    rw [List.cons_append, Numbered, ih, Numbered, hopen, Nat.add_assoc, and_assoc]

theorem inside_lt {here : Surroundings} {n : Node} {next : Nat} (h : ∀ s ∈ here.chain, s < next) :
    ∀ s ∈ here.inside n next, s < next + if here.opens n then 1 else 0 := by
  unfold Surroundings.inside
  intro s hs
  split at hs
  · rcases List.mem_cons.mp hs with rfl | hs
    · rename_i hopens
      simp [hopens]
    · exact Nat.lt_of_lt_of_le (h s hs) (Nat.le_add_right ..)
  · exact Nat.lt_of_lt_of_le (h s hs) (Nat.le_add_right ..)

theorem numbered_steps (n : Node) {here : Surroundings} {next : Nat}
    (h : ∀ s ∈ here.chain, s < next) : Numbered (n.steps here next) next := by
  induction n using Node.induct generalizing here next with
  | h n ih =>
    rw [steps_eq]
    refine ⟨by rw [openings_step]; exact inside_lt h, ?_⟩
    rw [openings_step]
    have hbelow : ∀ (cs : List (Bool × Node)) (next' : Nat),
        (∀ c ∈ cs, c.2 ∈ n.kind.children) → (∀ s ∈ here.inside n next, s < next') →
        Numbered (stepsOfAll (cs.map fun c => (here.below n next c.1, c.2.steps)) next') next' := by
      intro cs
      induction cs with
      | nil => exact fun _ _ _ => trivial
      | cons c cs ihc =>
        intro next' hcs hnext
        rw [List.map_cons, stepsOfAll, numbered_append]
        refine ⟨ih c.2 (hcs c List.mem_cons_self) hnext, ihc _ (fun c' hc' =>
          hcs c' (List.mem_cons_of_mem _ hc')) fun s hs => ?_⟩
        exact Nat.lt_of_lt_of_le (hnext s hs) (Nat.le_add_right ..)
    exact hbelow _ _ (fun c hc => mem_of_visited (a := c.2) hc) (inside_lt h)

/-- The kinds of the scopes of a tree. -/
def kindsOf (root : Node) : List ScopeKind := .program :: kindsOpened (moduleSteps root)

/-- The declarations of a tree. -/
def placementsOf (root : Node) : List Placement := placements (kindsOf root) (moduleSteps root)

/-- The places in a tree where names are used. -/
def usesIn (root : Node) : List Use := (moduleSteps root).flatMap (·.uses)

/-- The scope that a use resolves to, by the declarations of all scopes. -/
def targetIn? (ps : List Placement) (u : Use) : Option Nat :=
  u.chain.findSome? fun s => (firstAt? ps s u.name).bind (ScopeTree.seen u.params s)

theorem numbered_moduleSteps (root : Node) : Numbered (moduleSteps root) 1 := by
  refine numbered_steps root fun s hs => ?_
  obtain rfl := List.mem_singleton.mp hs
  exact Nat.one_pos

theorem declared?_ofRoot (node s : Nat) (x : String) :
    (ScopeTree.ofRoot node).declared? s x = none := by
  unfold ScopeTree.declared? ScopeTree.bindingAt? ScopeTree.ofRoot
  match s with
  | 0 => rfl
  | s + 1 => rfl

theorem startFindings_adds {root : Node} {found : Findings}
    (h : (moduleSteps root).foldlM Step.run (startFindings root) = .ok found) :
    Adds (kindsOf root) (moduleSteps root) (startFindings root) found :=
  foldlM_adds Nat.one_pos (numbered_moduleSteps root) (List.prefix_refl _) h

/-- The scopes are those that the nodes of a tree open. -/
structure Shaped (root : Node) (t : ScopeTree) : Prop where
  shapes : t.shapes = (.program, root.id, []) :: scopesOpened (moduleSteps root)

/-- The scopes of a tree are fixed before any name is declared. -/
theorem exists_shaped (root : Node) : ∃ t, Shaped root t := by
  let shapes := (ScopeKind.program, root.id, []) :: scopesOpened (moduleSteps root)
  refine ⟨⟨(shapes.map fun (kind, node, outer) => ⟨node, kind, outer, [], []⟩).toArray, []⟩, ?_⟩
  constructor
  change _ = shapes
  rw [ScopeTree.shapes, List.map_map]
  exact List.map_id' shapes

/-- What collecting gives for a tree, by its declarations and its uses. -/
structure Collected (root : Node) (t : ScopeTree) : Prop extends Shaped root t where
  /-- A name is bound by its first declaration in a scope. -/
  declared : ∀ s x, t.declared? s x = firstAt? (placementsOf root) s x
  /-- A binding lists the uses that read it. -/
  references : ∀ {s x b}, t.bindingAt? s x = some b → ∀ i, i ∈ b.references ↔ ∃ u ∈ usesIn root,
    u.access = .read ∧ u.node = i ∧ u.name = x ∧ targetIn? (placementsOf root) u = some s
  /-- It lists the uses that write it. -/
  mutations : ∀ {s x b}, t.bindingAt? s x = some b → ∀ i, i ∈ b.mutations ↔ ∃ u ∈ usesIn root,
    u.access = .write ∧ u.node = i ∧ u.name = x ∧ targetIn? (placementsOf root) u = some s
  /-- What resolves to nothing is a global. -/
  globals : ∀ i, i ∈ t.globals ↔
    ∃ u ∈ usesIn root, u.node = i ∧ targetIn? (placementsOf root) u = none

namespace Collected

variable {root : Node} {t : ScopeTree} {s : Nat} {x : String} {b : Binding}

/-- A binding is made by the first declaration of the name. -/
theorem firstAt? (h : Collected root t) (hb : t.bindingAt? s x = some b) :
    Scope.firstAt? (placementsOf root) s x = some (b.kind, b.node) := by
  rw [← h.declared, ScopeTree.declared?, hb]
  rfl

theorem mem_placementsOf (h : Collected root t) (hb : t.bindingAt? s x = some b) :
    ⟨s, b.kind, x, b.node⟩ ∈ placementsOf root :=
  mem_of_firstAt? (h.firstAt? hb)

/-- A declaration makes a binding or shares it. -/
theorem exists_bindingAt? (h : Collected root t) {q : Placement} (hq : q ∈ placementsOf root) :
    ∃ b, t.bindingAt? q.scope q.name = some b := by
  obtain ⟨d, hfirst⟩ := firstAt?_isSome_of_mem hq
  rw [← h.declared] at hfirst
  obtain ⟨b, hb, -⟩ := Option.map_eq_some_iff.mp hfirst
  exact ⟨b, hb⟩

end Collected

theorem shapes_foldl_recordUse (us : List Use) (t : ScopeTree) :
    (us.foldl ScopeTree.recordUse t).shapes = t.shapes := by
  induction us generalizing t with
  | nil => rfl
  | cons u us ih => rw [List.foldl_cons, ih, ScopeTree.shapes_recordUse]

/-- Collecting gives the scopes, the declarations and the uses of a tree. -/
theorem collected {root : Node} {t : ScopeTree} (h : collect root = .ok t) : Collected root t := by
  obtain ⟨found, hfound, h⟩ := bind_eq_ok.mp h
  obtain rfl := Except.ok.inj h
  rw [findings_eq] at hfound
  have hadds := startFindings_adds hfound
  have huses : found.uses.toList = usesIn root := by
    rw [hadds.uses]
    rfl
  have hdeclared : ∀ s x, found.tree.declared? s x = firstAt? (placementsOf root) s x := by
    intro s x
    rw [hadds.declared, startFindings, declared?_ofRoot, Option.none_or]
    rfl
  have htarget : found.tree.target? = targetIn? (placementsOf root) := by
    funext u
    rw [ScopeTree.target?_eq, targetIn?]
    simp only [hdeclared]
  have hrecords := (unused_foldlM_run (unused_ofRoot _) hfound).records.foldl found.uses.toList
  rw [List.nil_append, Array.foldl_toList, huses] at hrecords
  refine ⟨⟨?_⟩, fun s x => ?_, fun hb i => ?_, fun hb i => ?_, fun i => ?_⟩
  · rw [← Array.foldl_toList, shapes_foldl_recordUse, hadds.opened]
    rfl
  · rw [hrecords.declared, hdeclared]
  · rw [hrecords.references hb, htarget]
  · rw [hrecords.mutations hb, htarget]
  · rw [hrecords.globals, htarget]

/-- In the scopes of a tree no name is listed twice. -/
theorem keyed_collect {root : Node} {t : ScopeTree} (h : collect root = .ok t) : t.Keyed := by
  obtain ⟨found, hfound, h⟩ := bind_eq_ok.mp h
  obtain rfl := Except.ok.inj h
  rw [findings_eq] at hfound
  have hfold : ∀ (us : List Use) (t : ScopeTree), t.Keyed →
      (us.foldl ScopeTree.recordUse t).Keyed := by
    intro us
    induction us with
    | nil => exact fun _ ht => ht
    | cons u us ih => exact fun t ht => ih _ (ht.recordUse u)
  rw [← Array.foldl_toList]
  exact hfold _ _ (keyed_foldlM_run (keyed_ofRoot _) hfound)

/-- Collecting ends well if the declarations of the tree can all be made. -/
theorem collect_iff {root : Node} :
    (∃ t, collect root = .ok t) ↔ Compatible (fun _ _ => none) (placementsOf root) := by
  have hfold : (∃ t, collect root = .ok t) ↔
      ∃ found, (moduleSteps root).foldlM Step.run (startFindings root) = .ok found := by
    constructor
    · rintro ⟨t, h⟩
      obtain ⟨found, hfound, -⟩ := bind_eq_ok.mp h
      rw [findings_eq] at hfound
      exact ⟨found, hfound⟩
    · rintro ⟨found, h⟩
      exact ⟨_, bind_eq_ok.mpr ⟨found, by rw [findings_eq]; exact h, rfl⟩⟩
  have hnone : (startFindings root).tree.declared? = fun _ _ => none := by
    funext s x
    exact declared?_ofRoot root.id s x
  have hrun : (∃ found, (moduleSteps root).foldlM Step.run (startFindings root) = .ok found) ↔ _ :=
    foldlM_run_iff Nat.one_pos (numbered_moduleSteps root) (List.prefix_refl (kindsOf root))
  rw [hfold, hrun, hnone]
  rfl

end EsModule.Scope
