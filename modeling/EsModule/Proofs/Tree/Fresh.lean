import EsModule.Proofs.Tree.Nodes
import EsModule.Syntax.NodeTable
import EsModule.Syntax.Supply
import Mathlib.Data.List.Nodup
import Mathlib.Data.List.Pairwise
import Mathlib.Data.List.Perm.Subperm

/-!
# Numbers of nodes and what stands above them

Nodes are numbered as they are made, so the nodes made between two moments have the numbers from the
one counter to the other, each at most once. `Within` says so of some numbers, and `idsOf` are the
numbers of all nodes of some trees. By its numbers a tree is kept in a table, and is got back from
there (`NodeTable.tree_eq`).
-/

namespace EsModule.Syntax

/-- The numbers of the nodes of some trees. -/
def idsOf (ns : List Node) : List Nat := (ns.flatMap Node.nodes).map Node.id

@[simp] theorem idsOf_append (ns ms : List Node) : idsOf (ns ++ ms) = idsOf ns ++ idsOf ms := by
  simp [idsOf]

theorem idsOf_cons (n : Node) (ns : List Node) : idsOf (n :: ns) = idsOf [n] ++ idsOf ns := by
  simp [idsOf]

theorem idsOf_singleton (n : Node) : idsOf [n] = n.id :: idsOf n.kind.children := by
  simp [idsOf, Node.nodes_eq n]

theorem mem_idsOf {ns : List Node} {i : Nat} :
    i ∈ idsOf ns ↔ ∃ n ∈ ns, ∃ m ∈ n.nodes, m.id = i := by
  simp only [idsOf, List.mem_map, List.mem_flatMap]
  constructor
  · rintro ⟨m, ⟨n, hn, hm⟩, hi⟩
    exact ⟨n, hn, m, hm, hi⟩
  · rintro ⟨n, hn, m, hm, hi⟩
    exact ⟨m, ⟨n, hn, hm⟩, hi⟩

theorem idsOf_sublist {ns ms : List Node} (h : ns.Sublist ms) : (idsOf ns).Sublist (idsOf ms) := by
  induction h with
  | slnil => exact List.Sublist.refl _
  | cons n h ih =>
    rw [idsOf_cons n]
    exact ih.trans (List.sublist_append_right _ _)
  | cons_cons n h ih =>
    have happend := (List.Sublist.refl (idsOf [n])).append ih
    rwa [← idsOf_cons, ← idsOf_cons] at happend

/-- Some numbers that lie between two bounds, each of them once. -/
structure Within (low high : Nat) (ids : List Nat) : Prop where
  /-- The bounds are in order. -/
  le : low ≤ high
  /-- No number occurs twice. -/
  nodup : ids.Nodup
  /-- All numbers lie between the bounds. -/
  mem : ∀ i ∈ ids, low ≤ i ∧ i < high

theorem Within.nil {low high : Nat} (h : low ≤ high) : Within low high [] :=
  ⟨h, List.nodup_nil, by simp⟩

theorem Within.append {low mid high : Nat} {xs ys : List Nat} (hx : Within low mid xs)
    (hy : Within mid high ys) : Within low high (xs ++ ys) := by
  refine ⟨Nat.le_trans hx.le hy.le, ?_, ?_⟩
  · rw [List.nodup_append]
    refine ⟨hx.nodup, hy.nodup, ?_⟩
    intro i hi j hj
    have := (hx.mem i hi).2
    have := (hy.mem j hj).1
    omega
  · intro i hi
    rcases List.mem_append.mp hi with hi | hi
    · exact ⟨(hx.mem i hi).1, Nat.lt_of_lt_of_le (hx.mem i hi).2 hy.le⟩
    · exact ⟨Nat.le_trans hx.le (hy.mem i hi).1, (hy.mem i hi).2⟩

/-- Numbers that are given out later stand in front of the others. -/
theorem Within.prepend {low mid high : Nat} {xs ys : List Nat} (hx : Within mid high xs)
    (hy : Within low mid ys) : Within low high (xs ++ ys) := by
  have hperm : (ys ++ xs).Perm (xs ++ ys) := List.perm_append_comm
  obtain ⟨hle, hnodup, hmem⟩ := hy.append hx
  exact ⟨hle, hperm.nodup_iff.mp hnodup, fun i hi => hmem i (hperm.mem_iff.mpr hi)⟩

theorem Within.sublist {low high : Nat} {xs ys : List Nat} (h : Within low high ys)
    (hs : xs.Sublist ys) : Within low high xs :=
  ⟨h.le, h.nodup.sublist hs, fun i hi => h.mem i (hs.subset hi)⟩

/-- The number that is given out last stands in front of the others. -/
theorem Within.cons {low high : Nat} {xs : List Nat} (h : Within low high xs) :
    Within low (high + 1) (high :: xs) := by
  refine ⟨Nat.le_succ_of_le h.le, ?_, ?_⟩
  · rw [List.nodup_cons]
    refine ⟨?_, h.nodup⟩
    intro hmem
    exact absurd (h.mem _ hmem).2 (Nat.lt_irrefl _)
  · intro i hi
    rcases List.mem_cons.mp hi with rfl | hi
    · exact ⟨h.le, Nat.lt_succ_self _⟩
    · exact ⟨(h.mem i hi).1, Nat.lt_succ_of_lt (h.mem i hi).2⟩

theorem le_foldl_bound (ns : List Node) (b : Nat) :
    b ≤ ns.foldl (fun bound m => max bound (m.id + 1)) b ∧
      ∀ n ∈ ns, n.id < ns.foldl (fun bound m => max bound (m.id + 1)) b := by
  induction ns generalizing b with
  | nil => exact ⟨Nat.le_refl b, nofun⟩
  | cons n ns ih =>
    obtain ⟨hle, hmem⟩ := ih (max b (n.id + 1))
    rw [List.foldl_cons]
    refine ⟨by omega, fun m hm => ?_⟩
    rcases List.mem_cons.mp hm with rfl | hm
    · omega
    · exact hmem m hm

theorem lt_numberBound {root n : Node} (h : n ∈ root.nodes) : n.id < root.numberBound :=
  (le_foldl_bound root.nodes 0).2 n h

end EsModule.Syntax

/-!
## What stands above a node

In a tree whose nodes have different numbers a node is known by its number, the trees below the
children of a node share no node, and at most one node stands above a node.
-/

namespace EsModule.Syntax.Node

/-- Whether no two nodes of a tree have the same number. -/
def Distinct (root : Node) : Prop := (root.nodes.map Node.id).Nodup

variable {root n m p q c : Node}

theorem mem_nodes_trans (hm : m ∈ n.nodes) (hn : n ∈ root.nodes) : m ∈ root.nodes := by
  induction root using Node.induct with
  | h root ih =>
    rw [nodes_eq, List.mem_cons, List.mem_flatMap] at hn
    rcases hn with rfl | ⟨c, hc, hn⟩
    · exact hm
    · exact mem_nodes_of_child hc (ih c hc hn)

theorem mem_nodes_below (hp : p ∈ root.nodes) (hc : c ∈ p.kind.children) : c ∈ root.nodes :=
  mem_nodes_trans (mem_nodes_of_child hc c.mem_nodes_self) hp

theorem length_nodes_le (h : m ∈ n.nodes) : m.nodes.length ≤ n.nodes.length := by
  induction n using Node.induct with
  | h n ih =>
    rw [nodes_eq, List.mem_cons, List.mem_flatMap] at h
    rcases h with rfl | ⟨c, hc, h⟩
    · exact Nat.le_refl _
    · exact Nat.le_trans (ih c hc h) (Nat.le_of_lt (length_nodes_lt hc))

/-- The root stands below no node of its tree. -/
theorem root_not_child (hp : p ∈ root.nodes) : root ∉ p.kind.children := by
  intro h
  have hle := length_nodes_le hp
  have hlt := length_nodes_lt h
  omega

theorem eq_root_or_child (h : n ∈ root.nodes) :
    n = root ∨ ∃ p ∈ root.nodes, n ∈ p.kind.children := by
  induction root using Node.induct with
  | h root ih =>
    rw [nodes_eq, List.mem_cons, List.mem_flatMap] at h
    rcases h with rfl | ⟨c, hc, h⟩
    · exact .inl rfl
    · rcases ih c hc h with rfl | ⟨p, hp, hn⟩
      · exact .inr ⟨root, root.mem_nodes_self, hc⟩
      · exact .inr ⟨p, mem_nodes_of_child hc hp, hn⟩

namespace Distinct

theorem eq_of_id (h : root.Distinct) (hn : n ∈ root.nodes) (hm : m ∈ root.nodes)
    (hid : n.id = m.id) : n = m :=
  List.inj_on_of_nodup_map h hn hm hid

theorem flatMap_children (h : root.Distinct) :
    ((root.kind.children.flatMap nodes).map Node.id).Nodup := by
  unfold Distinct at h
  rw [nodes_eq, List.map_cons, List.nodup_cons] at h
  exact h.2

theorem child (h : root.Distinct) (hc : c ∈ root.kind.children) : c.Distinct := by
  refine h.flatMap_children.sublist (List.Sublist.map _ ?_)
  rw [List.flatMap_def]
  exact List.sublist_flatten_of_mem (List.mem_map_of_mem hc)

theorem node (h : root.Distinct) (hn : n ∈ root.nodes) : n.Distinct := by
  induction root using Node.induct with
  | h root ih =>
    rw [nodes_eq, List.mem_cons, List.mem_flatMap] at hn
    rcases hn with rfl | ⟨c, hc, hn⟩
    · exact h
    · exact ih c hc (h.child hc) hn

/-- A node stands below one child only. -/
theorem eq_child (h : root.Distinct) {a b : Node} (ha : a ∈ root.kind.children)
    (hb : b ∈ root.kind.children) (hna : n ∈ a.nodes) (hnb : n ∈ b.nodes) : a = b := by
  have hnodup := List.Nodup.of_map _ h.flatMap_children
  rw [List.nodup_flatMap] at hnodup
  have : Std.Symm (Function.onFun List.Disjoint nodes) := ⟨fun _ _ hd _ hb ha => hd ha hb⟩
  by_contra hne
  exact hnodup.2.forall ha hb hne hna hnb

theorem nodup_children (h : root.Distinct) : (root.kind.children.map Node.id).Nodup := by
  refine h.flatMap_children.sublist (List.Sublist.map _ ?_)
  induction root.kind.children with
  | nil => exact List.Sublist.refl _
  | cons a as ih =>
    rw [List.flatMap_cons, nodes_eq, List.cons_append]
    exact (ih.trans (List.sublist_append_right _ _)).cons_cons a

/-- At most one node stands above a node. -/
theorem parent_unique (h : root.Distinct) (hp : p ∈ root.nodes) (hq : q ∈ root.nodes)
    (hcp : c ∈ p.kind.children) (hcq : c ∈ q.kind.children) : p = q := by
  induction root using Node.induct with
  | h root ih =>
    have hself : ∀ {q}, q ∈ root.nodes → c ∈ q.kind.children → c ∈ root.kind.children →
        q = root := by
      intro q hq hcq hc
      rw [nodes_eq, List.mem_cons, List.mem_flatMap] at hq
      rcases hq with rfl | ⟨b, hb, hq⟩
      · rfl
      · have hbc := h.eq_child hb hc (mem_nodes_below hq hcq) c.mem_nodes_self
        subst hbc
        exact absurd hcq (root_not_child hq)
    have hp' := hp
    have hq' := hq
    rw [nodes_eq, List.mem_cons, List.mem_flatMap] at hp hq
    rcases hp with rfl | ⟨a, ha, hp⟩
    · exact (hself hq' hcq hcp).symm
    rcases hq with rfl | ⟨b, hb, hq⟩
    · exact hself hp' hcp hcq
    · have hab := h.eq_child ha hb (mem_nodes_below hp hcp) (mem_nodes_below hq hcq)
      subst hab
      exact ih a ha (h.child ha) hp hq

end Distinct

end EsModule.Syntax.Node

/-!
## Ways down a tree

A node of a tree is reached from the root through the nodes above it. `Path` lists these, from the
nearest outwards. Where the nodes of a tree have different numbers there is one way to each node
(`Path.unique`), so what is said of the nodes above a node is said of the node.
-/

namespace EsModule.Syntax.Node

/-- Whether a node stands at or below the node `n`, and which nodes are above it, from the nearest
outwards, if those above `n` are `as`. -/
inductive Path (n : Node) (as : List Node) : Node → List Node → Prop where
  | here : Path n as n as
  | child {p c : Node} {bs : List Node} (h : Path n as p bs) (hc : c ∈ p.kind.children) :
      Path n as c (p :: bs)

/-- Whether some nodes are all those above a node of a tree, from the nearest outwards. -/
def Ancestors (root n : Node) (as : List Node) : Prop := Path root [] n as

variable {root n m c : Node} {as bs cs : List Node}

namespace Path

theorem mem_nodes (h : n.Path as m bs) : m ∈ n.nodes := by
  induction h with
  | here => exact n.mem_nodes_self
  | child _ hc ih => exact mem_nodes_below ih hc

/-- A way from a child goes on from the node above it. -/
theorem of_child (hc : c ∈ n.kind.children) (h : c.Path (n :: as) m bs) : n.Path as m bs := by
  induction h with
  | here => exact .child .here hc
  | child _ hd ih => exact .child ih hd

/-- A way down ends at once, or goes through a child. -/
theorem eq_or_child (h : n.Path as m bs) :
    m = n ∧ bs = as ∨ ∃ c ∈ n.kind.children, c.Path (n :: as) m bs := by
  induction h with
  | here => exact .inl ⟨rfl, rfl⟩
  | @child p d bs _ hd ih =>
    rcases ih with ⟨rfl, rfl⟩ | ⟨c, hc, h⟩
    · exact .inr ⟨d, hd, .here⟩
    · exact .inr ⟨c, hc, .child h hd⟩

/-- A way to a node goes on from there. -/
theorem trans (h : n.Path as m bs) (h' : m.Path bs c cs) : n.Path as c cs := by
  induction h' with
  | here => exact h
  | child _ hd ih => exact .child ih hd

theorem above_mem_nodes (h : n.Path as m bs) : ∀ a ∈ bs, a ∈ n.nodes ∨ a ∈ as := by
  induction h with
  | here => exact fun a ha => .inr ha
  | child h _ ih =>
    intro a ha
    rcases List.mem_cons.mp ha with rfl | ha
    · exact .inl h.mem_nodes
    · exact ih a ha

/-- A way down from somewhere stays below the nodes that it leads through. -/
theorem mem_nodes_of_above (h : n.Path as m bs) {a : Node} (ha : a ∈ bs) : m ∈ a.nodes ∨ a ∈ as := by
  induction h with
  | here => exact .inr ha
  | child h hc ih =>
    rcases List.mem_cons.mp ha with rfl | ha
    · exact .inl (mem_nodes_below a.mem_nodes_self hc)
    · exact (ih ha).imp_left fun hp => mem_nodes_below hp hc

end Path

theorem exists_path (hm : m ∈ n.nodes) (as : List Node) : ∃ bs, n.Path as m bs := by
  induction n using Node.induct generalizing as with
  | h n ih =>
    rw [nodes_eq, List.mem_cons, List.mem_flatMap] at hm
    rcases hm with rfl | ⟨c, hc, hm⟩
    · exact ⟨as, .here⟩
    · obtain ⟨bs, h⟩ := ih c hc hm (n :: as)
      exact ⟨bs, .of_child hc h⟩

namespace Ancestors

theorem mem_nodes (h : Ancestors root n as) : n ∈ root.nodes := Path.mem_nodes h

theorem above_mem_nodes (h : Ancestors root n as) : ∀ a ∈ as, a ∈ root.nodes := fun a ha =>
  (Path.above_mem_nodes h a ha).resolve_right nofun

theorem mem_nodes_of_above (h : Ancestors root n as) {a : Node} (ha : a ∈ as) : n ∈ a.nodes :=
  (Path.mem_nodes_of_above h ha).resolve_right nofun

/-- The root is the only node with nothing above it. -/
theorem parent (h : Ancestors root n as) :
    n = root ∧ as = [] ∨ ∃ p bs, as = p :: bs ∧ Ancestors root p bs ∧ n ∈ p.kind.children := by
  cases h with
  | here => exact .inl ⟨rfl, rfl⟩
  | child h hc => exact .inr ⟨_, _, rfl, h, hc⟩

/-- No node stands above itself. -/
theorem not_above (h : Ancestors root n as) : n ∉ as := by
  have hlt : ∀ {m bs}, Path root [] m bs → ∀ a ∈ bs, m.nodes.length < a.nodes.length := by
    intro m bs h
    induction h with
    | here => nofun
    | child h hc ih =>
      have hchild := length_nodes_lt hc
      exact List.forall_mem_cons.mpr ⟨hchild, fun a ha => Nat.lt_trans hchild (ih a ha)⟩
  exact fun hn => Nat.lt_irrefl _ (hlt h n hn)

/-- There is one way to a node. -/
theorem unique (hd : root.Distinct) (h : Ancestors root n as) (h' : Ancestors root n bs) :
    as = bs := by
  have hroot : ∀ {n : Node} {as : List Node}, Ancestors root n as → n = root → as = [] := by
    intro n as h hn
    rcases h.parent with ⟨-, rfl⟩ | ⟨p, _, rfl, hp, hc⟩
    · rfl
    · exact absurd (hn ▸ hc) (root_not_child hp.mem_nodes)
  induction as generalizing n bs with
  | nil =>
    rcases h.parent with ⟨hn, -⟩ | ⟨_, _, has, -⟩
    · exact (hroot h' hn).symm
    · cases has
  | cons p as ih =>
    obtain ⟨_, _, has, hp, hc⟩ := h.parent.resolve_left nofun
    obtain ⟨rfl, rfl⟩ := List.cons.inj has
    rcases h'.parent with ⟨rfl, -⟩ | ⟨q, cs, rfl, hq, hcq⟩
    · exact absurd hc (root_not_child hp.mem_nodes)
    · obtain rfl := hd.parent_unique hp.mem_nodes hq.mem_nodes hc hcq
      rw [ih hp hq]

end Ancestors

theorem exists_ancestors (hn : n ∈ root.nodes) : ∃ as, Ancestors root n as := exists_path hn []

end EsModule.Syntax.Node

/-!
## Trees and their tables

A table holds a tree if it has the entry of every node of the tree. If in addition the nodes have
different numbers then the tree is what the table gives for its root (`NodeTable.tree_eq`).
-/

namespace EsModule.Syntax.NodeTable

variable {t : NodeTable}

/-- Whether a table has the entry of a node. -/
def Holds (t : NodeTable) (n : Node) : Prop := t.entries[n.id]? = some n.entry

theorem getElem?_setKind (id : Nat) (kind : Kind Nat) (i : Nat) :
    (t.setKind id kind).entries[i]? =
      if i = id then t.entries[i]?.map fun e => { e with kind } else t.entries[i]? := by
  unfold setKind
  rw [Std.TreeMap.getElem?_modify]
  by_cases h : i = id
  · subst h
    simp
  · simp [h, Ne.symm h]

theorem getElem?_insertNew (ns : List Node) (entries : Std.TreeMap Nat NodeEntry) (i : Nat) :
    (ns.foldl (fun entries n => entries.insertIfNew n.id n.entry) entries)[i]? =
      entries[i]?.or ((ns.find? (·.id = i)).map Node.entry) := by
  induction ns generalizing entries with
  | nil => simp
  | cons n ns ih =>
    rw [List.foldl_cons, ih, List.find?_cons, Std.TreeMap.getElem?_insertIfNew]
    by_cases h : n.id = i
    · subst h
      cases hentry : entries[n.id]? with
      | none =>
        have hmem : n.id ∉ entries := by
          rw [← Std.TreeMap.isSome_getElem?_iff_mem, hentry]
          nofun
        simp [hmem]
      | some e =>
        have hmem : n.id ∈ entries := by
          rw [← Std.TreeMap.isSome_getElem?_iff_mem, hentry]
          rfl
        simp [hmem]
    · simp [h]

theorem getElem?_add (tree : Node) (i : Nat) : (t.add tree).entries[i]? =
    t.entries[i]?.or ((tree.nodes.find? (·.id = i)).map Node.entry) :=
  getElem?_insertNew ..

theorem getElem?_addAll (trees : List Node) (i : Nat) : (trees.foldl add t).entries[i]? =
    t.entries[i]?.or (((trees.flatMap Node.nodes).find? (·.id = i)).map Node.entry) := by
  induction trees generalizing t with
  | nil => simp
  | cons tree trees ih =>
    rw [List.foldl_cons, ih, getElem?_add, List.flatMap_cons, List.find?_append, Option.or_assoc]
    cases tree.nodes.find? _ <;> rfl

theorem find?_of_nodup {ns : List Node} (h : (ns.map Node.id).Nodup) {n : Node} (hn : n ∈ ns) :
    ns.find? (·.id = n.id) = some n := by
  induction ns with
  | nil => cases hn
  | cons m ns ih =>
    rw [List.map_cons, List.nodup_cons] at h
    rw [List.find?_cons]
    rcases List.mem_cons.mp hn with rfl | hn
    · simp
    · have hne : m.id ≠ n.id := fun he => h.1 (List.mem_map.mpr ⟨n, hn, he.symm⟩)
      simpa [hne] using ih h.2 hn

/-- The table of a tree whose nodes have different numbers. -/
theorem getElem?_ofTree {root : Node} (h : root.Distinct) {n : Node} (hn : n ∈ root.nodes) :
    (ofTree root).Holds n := by
  unfold Holds ofTree
  rw [getElem?_add, find?_of_nodup h hn]
  simp [empty]

theorem getElem?_ofTree_none {root : Node} {i : Nat} (h : i ∉ idsOf [root]) :
    (ofTree root).entries[i]? = none := by
  unfold ofTree
  rw [getElem?_add]
  have hfind : root.nodes.find? (·.id = i) = none := by
    rw [List.find?_eq_none]
    intro n hn
    rw [decide_eq_true_eq]
    rintro rfl
    exact h (mem_idsOf.mpr ⟨root, List.mem_singleton_self _, n, hn, rfl⟩)
  simp [hfind, empty]

theorem treeToDepth_eq {n : Node} {depth : Nat} (h : ∀ m ∈ n.nodes, t.Holds m)
    (hdepth : n.nodes.length ≤ depth) : t.treeToDepth depth n.id = n := by
  induction n using Node.induct generalizing depth with
  | h n ih =>
    match depth, hdepth with
    | 0, hdepth =>
      rw [Node.nodes_eq] at hdepth
      cases hdepth
    | depth + 1, hdepth =>
      have hentry : t.entries[n.id]? = some n.entry := h n n.mem_nodes_self
      rw [treeToDepth, hentry]
      have hkind : n.entry.kind.map (t.treeToDepth depth) = n.kind := by
        refine (Kind.map_map ..).trans (Eq.trans (Kind.map_congr fun c hc => ?_) (Kind.map_id' _))
        refine ih c hc (fun m hm => h m (Node.mem_nodes_of_child hc hm)) ?_
        have hlt := Node.length_nodes_lt hc
        omega
      dsimp only
      rw [hkind]
      cases n
      rfl

theorem length_nodes_le_size {root : Node} (hd : root.Distinct)
    (h : ∀ n ∈ root.nodes, t.Holds n) : root.nodes.length ≤ t.entries.size := by
  rw [← Std.TreeMap.length_keys, ← List.length_map (f := Node.id)]
  refine (List.Nodup.subperm hd fun i hi => ?_).length_le
  obtain ⟨n, hn, rfl⟩ := List.mem_map.mp hi
  rw [Std.TreeMap.mem_keys, ← Std.TreeMap.isSome_getElem?_iff_mem, h n hn]
  rfl

/-- A tree whose nodes have different numbers is what a table that holds it gives for its root. -/
theorem tree_eq {root : Node} (hd : root.Distinct) (h : ∀ n ∈ root.nodes, t.Holds n) :
    t.tree root.id = root :=
  treeToDepth_eq h (length_nodes_le_size hd h)

end EsModule.Syntax.NodeTable
