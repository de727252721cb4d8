import EsModule.Proofs.Tree.Nodes
import EsModule.Scope.Collect

/-!
# The walk, step by step

What the walk over a tree does at a node depends on the tree and on how many scopes were opened
before, and on nothing else that was found. `Node.steps` lists what is done at the nodes of a tree
in the order of the walk, and the walk is the run of that list (`walk_eq_run`). To compare the
findings of two trees it is then enough to compare two lists.
-/

namespace EsModule.Scope

open EsModule.Syntax

/-- What the walk does at one node. -/
structure Step where
  /-- The number of the node. -/
  node : Nat
  /-- The kind of scope that the node opens, if it opens one. -/
  scope : Option ScopeKind
  /-- The scopes around the node. -/
  outer : List Nat
  /-- The same, with the scope that the node opens. -/
  chain : List Nat
  /-- The scopes of the functions whose parameter lists the node stands in. -/
  params : List Nat
  /-- The label of a labelled statement. -/
  label : Option String
  /-- The declarations of the node. -/
  declares : List Declaration
  /-- The uses that the node makes by itself. -/
  uses : List Use

namespace Step

/-- The scopes once the one of the step is open. -/
def opened (e : Step) (t : ScopeTree) : ScopeTree :=
  match e.scope with
  | some kind => t.openScope e.node kind e.outer
  | none => t

/-- The scopes once the label of the step is known. -/
def labelled (e : Step) (t : ScopeTree) : ScopeTree :=
  match e.label with
  | some name => t.label (t.blockParent e.chain) name e.node
  | none => t

/-- Makes a declaration in the scope that its place means. -/
def declare (e : Step) (t : ScopeTree) (d : Declaration) : Except Redeclaration ScopeTree :=
  t.declare (t.placed e.chain d.place) d.kind d.name d.node

/-- Takes a step. -/
def run (found : Findings) (e : Step) : Except Redeclaration Findings := do
  let tree ← e.declares.foldlM e.declare (e.labelled (e.opened found.tree))
  return ⟨tree, found.uses ++ e.uses⟩

end Step

/-- How many scopes some steps open. -/
def openings (es : List Step) : Nat := es.countP (·.scope.isSome)

/-- The steps of a tree where it stands, if scopes are numbered from a number on. -/
abbrev Steps := Surroundings → Nat → List Step

/-- The children in the order of the walk, each with whether it is a parameter. -/
def visited {α : Type} : Kind α → List (Bool × α)
  | .functionDeclaration f | .functionExpression f =>
    f.name.toList.map (false, ·) ++ f.params.map (true, ·) ++ [(false, f.body)]
  | .arrowFunction params body _ _ => params.map (true, ·) ++ [(false, body)]
  | kind => kind.children.map (false, ·)

/-- Whether a node opens a scope where it stands. -/
def Surroundings.opens (here : Surroundings) (n : Node) : Bool :=
  here.parent.isSome && opensScope n here.parent

/-- The chain inside a node, if the next scope has a given number. -/
def Surroundings.inside (here : Surroundings) (n : Node) (next : Nat) : List Nat :=
  if here.opens n then next :: here.chain else here.chain

/-- What stands around the children of a node, those in its list of parameters or the others. -/
def Surroundings.below (here : Surroundings) (n : Node) (next : Nat) (isParam : Bool) :
    Surroundings :=
  let chain := here.inside n next
  ⟨some n, here.parent, chain, if isParam then chain.headD 0 :: here.params else here.params⟩

/-- What the walk does at a node itself. -/
def Surroundings.step (here : Surroundings) (n : Node) (next : Nat) : Step where
  node := n.id
  scope := if here.opens n then some (scopeKind n.kind) else none
  outer := here.chain
  chain := here.inside n next
  params := here.params
  label := label? n
  declares := declarations n
  uses := usesOf n { here with chain := here.inside n next }

/-- The steps of some trees one after the other. -/
def stepsOfAll : List (Surroundings × Steps) → Nat → List Step
  | [], _ => []
  | (here, steps) :: rest, next =>
    let es := steps here next
    es ++ stepsOfAll rest (next + openings es)

/-- The steps of a node, from those of its children. -/
def Steps.ofKind (id : Nat) (span : Span) (kind : Kind (Node × Steps)) : Steps := fun here next =>
  let n := Node.mk id span (kind.map (·.1))
  here.step n next :: stepsOfAll
    ((visited kind).map fun (isParam, _, steps) => (here.below n next isParam, steps))
    (next + if here.opens n then 1 else 0)

end EsModule.Scope

namespace EsModule.Syntax.Node

open EsModule.Scope

/-- The steps of the walk over a tree. -/
def steps : Node → Steps := para Steps.ofKind

end EsModule.Syntax.Node

namespace EsModule.Scope

open EsModule.Syntax

theorem visited_map {α β : Type} (f : α → β) (kind : Kind α) :
    visited (kind.map f) = (visited kind).map fun (isParam, a) => (isParam, f a) := by
  cases kind <;>
    simp [visited, Kind.map, Function.map, Kind.children, Class.children, Class.map,
      List.map_filterMap, List.filterMap_map, Function.comp_def, Option.toList_map]

theorem mem_of_visited {α : Type} {kind : Kind α} {isParam : Bool} {a : α}
    (h : (isParam, a) ∈ visited kind) : a ∈ kind.children := by
  cases kind <;> simp_all [visited, Kind.children, Function.children]
  all_goals grind

/-- The steps of the children of a node. -/
def stepsBelow (here : Surroundings) (n : Node) (next : Nat) (children : List (Bool × Node)) :
    List Step :=
  stepsOfAll (children.map fun (isParam, child) => (here.below n next isParam, child.steps))
    (next + if here.opens n then 1 else 0)

theorem steps_eq (n : Node) (here : Surroundings) (next : Nat) :
    n.steps here next = here.step n next :: stepsBelow here n next (visited n.kind) := by
  obtain ⟨id, span, kind⟩ := n
  have h := congrFun (congrFun (Node.para_eq Steps.ofKind (.mk id span kind)) here) next
  refine h.trans ?_
  unfold Steps.ofKind stepsBelow
  simp only [Kind.map_map, Kind.map_id', visited_map, List.map_map]
  rfl

theorem mem_stepsOfAll {cs : List (Surroundings × Steps)} {next : Nat} {e : Step}
    (h : e ∈ stepsOfAll cs next) : ∃ c ∈ cs, ∃ next', e ∈ c.2 c.1 next' := by
  induction cs generalizing next with
  | nil => cases h
  | cons c cs ih =>
    rcases List.mem_append.mp h with h | h
    · exact ⟨c, List.mem_cons_self, next, h⟩
    · obtain ⟨c', hc', h⟩ := ih h
      exact ⟨c', List.mem_cons_of_mem _ hc', h⟩

/-- Whether some surroundings are those of a node in a tree that stands somewhere itself. -/
inductive Stands (root : Node) (here : Surroundings) (m : Node) (there : Surroundings) : Prop where
  | root (hm : m = root) (hp : there.parent = here.parent)
      (hg : there.grandparent = here.grandparent)
  | child (hm : m ∈ root.kind.children) (hp : there.parent = some root)
      (hg : there.grandparent = here.parent)
  | below {p g : Node} (hg : g ∈ root.nodes) (hpg : p ∈ g.kind.children) (hm : m ∈ p.kind.children)
      (hp : there.parent = some p) (hgp : there.grandparent = some g)

/-- Every step is that of a node with the nodes around it. -/
theorem exists_of_mem_steps {n : Node} {here : Surroundings} {next : Nat} {e : Step}
    (h : e ∈ n.steps here next) :
    ∃ m ∈ n.nodes, ∃ there next', e = there.step m next' ∧ Stands n here m there := by
  induction n using Node.induct generalizing here next with
  | h n ih =>
    rw [steps_eq, List.mem_cons] at h
    rcases h with rfl | h
    · exact ⟨n, n.mem_nodes_self, here, next, rfl, .root rfl rfl rfl⟩
    · obtain ⟨c, hc, next', h⟩ := mem_stepsOfAll h
      obtain ⟨⟨isParam, child⟩, hchild, rfl⟩ := List.mem_map.mp hc
      have hmem := mem_of_visited hchild
      obtain ⟨m, hm, there, next2, he, hstands⟩ := ih child hmem h
      refine ⟨m, Node.mem_nodes_of_child hmem hm, there, next2, he, ?_⟩
      cases hstands with
      | root hm hp hg => exact .child (hm ▸ hmem) hp hg
      | child hm hp hg => exact .below n.mem_nodes_self hmem hm hp hg
      | below hg hpg hm hp hgp =>
        exact .below (Node.mem_nodes_of_child hmem hg) hpg hm hp hgp

/-! ## The walk runs the steps -/

/-- A computation in two parts ends well if both do. -/
theorem bind_eq_ok {ε α β : Type} {x : Except ε α} {f : α → Except ε β} {b : β} :
    x >>= f = .ok b ↔ ∃ a, x = .ok a ∧ f a = .ok b := by
  cases x with
  | error e => exact ⟨nofun, nofun⟩
  | ok a =>
    constructor
    · exact fun h => ⟨a, rfl, h⟩
    · rintro ⟨a', ⟨⟩, h⟩
      exact h

theorem mapError_eq_ok {ε ε' α : Type} {f : ε → ε'} {x : Except ε α} {a : α} :
    x.mapError f = .ok a ↔ x = .ok a := by
  cases x with
  | error e => constructor <;> intro h <;> cases h
  | ok b =>
    constructor <;> intro h
    · exact congrArg _ (Except.ok.inj h)
    · exact congrArg _ (Except.ok.inj h)

theorem size_declare {t t' : ScopeTree} {scope : Nat} {kind : BindingKind} {name : String}
    {node : Nat} (h : t.declare scope kind name node = .ok t') :
    t'.scopes.size = t.scopes.size := by
  unfold ScopeTree.declare at h
  split at h
  · obtain rfl := Except.ok.inj h
    rfl
  · obtain ⟨s, -, h⟩ := bind_eq_ok.mp h
    obtain rfl := Except.ok.inj h
    simp

theorem size_foldlM_declare {e : Step} {ds : List Declaration} {t t' : ScopeTree}
    (h : ds.foldlM e.declare t = .ok t') : t'.scopes.size = t.scopes.size := by
  induction ds generalizing t with
  | nil =>
    obtain rfl := Except.ok.inj h
    rfl
  | cons d ds ih =>
    rw [List.foldlM_cons] at h
    obtain ⟨t1, hd, h⟩ := bind_eq_ok.mp h
    rw [ih h, size_declare hd]

theorem Step.size_opened (e : Step) (t : ScopeTree) :
    (e.opened t).scopes.size = t.scopes.size + openings [e] := by
  unfold Step.opened openings
  split
  · rename_i h
    simp [ScopeTree.openScope, h]
  · rename_i h
    simp [h]

theorem Step.size_labelled (e : Step) (t : ScopeTree) :
    (e.labelled t).scopes.size = t.scopes.size := by
  unfold Step.labelled
  split
  · simp [ScopeTree.label]
  · rfl

theorem Step.size_run {found found' : Findings} {e : Step} (h : e.run found = .ok found') :
    found'.tree.scopes.size = found.tree.scopes.size + openings [e] := by
  obtain ⟨t, ht, h⟩ := bind_eq_ok.mp h
  obtain rfl := Except.ok.inj h
  rw [size_foldlM_declare ht, e.size_labelled, e.size_opened]

theorem openings_append (es fs : List Step) : openings (es ++ fs) = openings es + openings fs :=
  List.countP_append

theorem size_foldlM_run {es : List Step} {found found' : Findings}
    (h : es.foldlM Step.run found = .ok found') :
    found'.tree.scopes.size = found.tree.scopes.size + openings es := by
  induction es generalizing found with
  | nil =>
    obtain rfl := Except.ok.inj h
    rfl
  | cons e es ih =>
    rw [List.foldlM_cons] at h
    obtain ⟨found1, he, h⟩ := bind_eq_ok.mp h
    rw [ih h, Step.size_run he, Nat.add_assoc, ← openings_append, List.singleton_append]

/-- Walking over trees one after the other runs their steps one after the other. -/
theorem foldlM_walks (cs : List (Surroundings × Node))
    (h : ∀ c ∈ cs, ∀ found : Findings, c.2.para Walk.ofKind c.1 found =
      (c.2.steps c.1 found.tree.scopes.size).foldlM Step.run found) (found : Findings) :
    cs.foldlM (fun found c => c.2.para Walk.ofKind c.1 found) found =
      (stepsOfAll (cs.map fun c => (c.1, c.2.steps)) found.tree.scopes.size).foldlM Step.run
        found := by
  induction cs generalizing found with
  | nil => rfl
  | cons c cs ih =>
    rw [List.foldlM_cons, h c List.mem_cons_self, List.map_cons, stepsOfAll, List.foldlM_append]
    cases hc : (c.2.steps c.1 found.tree.scopes.size).foldlM Step.run found with
    | error e => rfl
    | ok found1 =>
      rw [← size_foldlM_run hc]
      exact ih (fun c' hc' => h c' (List.mem_cons_of_mem _ hc')) found1

/-- What the walk over a node does below it, in the order of the visits. -/
theorem walk_below (kind : Kind (Node × Walk)) (below paramList : Surroundings)
    (found : Findings) :
    (match kind with
      | .functionDeclaration f | .functionExpression f => do
        let found ← walkAll f.name.toList below found
        walkAll [f.body] below (← walkAll f.params paramList found)
      | .arrowFunction params body _ _ => do
        walkAll [body] below (← walkAll params paramList found)
      | kind => walkAll kind.children below found) =
    (visited kind).foldlM (fun found (isParam, _, walk) =>
      walk (if isParam then paramList else below) found) found := by
  cases kind <;> simp [visited, walkAll, List.foldlM_map, List.foldlM_append]

/-- The walk takes the step of a node and goes on below it. -/
theorem walk_ofKind (id : Nat) (span : Span) (kind : Kind (Node × Walk)) (here : Surroundings)
    (found : Findings) :
    Walk.ofKind id span kind here found =
      Step.run found (here.step (.mk id span (kind.map (·.1))) found.tree.scopes.size) >>=
        (visited kind).foldlM fun found' (isParam, _, walk) =>
          walk (here.below (.mk id span (kind.map (·.1))) found.tree.scopes.size isParam) found' := by
  obtain ⟨n, hn⟩ : ∃ n, n = Node.mk id span (kind.map (·.1)) := ⟨_, rfl⟩
  have htree : Step.run found (here.step n found.tree.scopes.size) =
      ((((if here.opens n then found.tree.openScope n.id (scopeKind n.kind) here.chain
          else found.tree).labelNode (here.inside n found.tree.scopes.size) n).declareNode
        (here.inside n found.tree.scopes.size) n) >>= fun tree =>
          .ok ⟨tree, found.uses ++ usesOf n { here with
            chain := here.inside n found.tree.scopes.size }⟩) := by
    unfold Step.run Surroundings.step Step.opened Step.labelled ScopeTree.labelNode
    cases here.opens n <;> cases label? n <;> rfl
  rw [← hn, htree, hn, bind_assoc]
  unfold Walk.ofKind
  refine bind_congr fun tree => ?_
  refine (walk_below kind _ _ _).trans ?_
  congr 1
  funext found' child
  obtain ⟨isParam, child, walk⟩ := child
  cases isParam <;> rfl

theorem openings_step (here : Surroundings) (n : Node) (next : Nat) :
    openings [here.step n next] = if here.opens n then 1 else 0 := by
  unfold openings Surroundings.step
  cases here.opens n <;> rfl

theorem walk_eq_run (n : Node) (here : Surroundings) (found : Findings) :
    n.para Walk.ofKind here found =
      (n.steps here found.tree.scopes.size).foldlM Step.run found := by
  induction n using Node.induct generalizing here found with
  | h n ih =>
    rw [steps_eq, List.foldlM_cons, Node.para_eq, walk_ofKind]
    simp only [Kind.map_map, Kind.map_id', visited_map]
    cases hstep : Step.run found (here.step n found.tree.scopes.size) with
    | error e =>
      obtain ⟨id, span, kind⟩ := n
      exact congrArg (· >>= _) hstep
    | ok found1 =>
      obtain ⟨id, span, kind⟩ := n
      refine (congrArg (· >>= _) hstep).trans ?_
      have hsize := Step.size_run hstep
      rw [openings_step] at hsize
      have hbelow := foldlM_walks ((visited kind).map fun c =>
        (here.below (.mk id span kind) found.tree.scopes.size c.1, c.2)) (fun c hc found => by
          obtain ⟨c, hmem, rfl⟩ := List.mem_map.mp hc
          exact ih c.2 (mem_of_visited hmem) _ found) found1
      rw [hsize, List.foldlM_map, List.map_map] at hbelow
      refine Eq.trans ?_ hbelow
      exact List.foldlM_map ..

/-- The findings of a tree are those of its steps. -/
theorem findings_eq (root : Node) :
    findings root =
      (root.steps ⟨none, none, [0], []⟩ 1).foldlM Step.run ⟨.ofRoot root.id, #[]⟩ :=
  walk_eq_run root _ _

end EsModule.Scope
