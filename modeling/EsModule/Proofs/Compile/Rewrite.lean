import EsModule.Compile.Patch
import EsModule.Proofs.Tree.Fresh
import Mathlib.Data.List.Forall2
import Mathlib.Data.List.Induction

/-!
# Nodes that take another form

The patches of the first stage give other kinds to single nodes. What they make of a tree is a
function on trees, `rewrite`: a node that takes another form keeps its number and its children, and
has new nodes in front of them. The table in which the patches are made holds the rewritten tree
(`holds_rewrite`).
-/

namespace EsModule.Compile

open EsModule.Syntax

/-- Another form for a node. -/
structure Form where
  /-- The number of the node. -/
  target : Nat
  /-- The new nodes that stand in front of the children of the node. -/
  news : List Node
  /-- The kind that the node gets. -/
  kind : Kind Node

/-- The patch that gives a node its form. -/
def Form.patch (f : Form) : Patch := .replace f.target f.kind

/-- The form that a node takes at last. -/
def formAt? (forms : List Form) (id : Nat) : Option Form :=
  forms.reverse.find? (·.target = id)

/-- A tree whose nodes have taken their forms. -/
def rewrite (forms : List Form) : Node → Node :=
  Node.para fun id span kind => .mk id span <|
    match formAt? forms id with
    | none => kind.map (·.2)
    | some f => f.kind.map fun c => ((kind.children.find? (·.1.id = c.id)).map (·.2)).getD c

/-- The new nodes in front of the children of a node. -/
def newsAt (forms : List Form) (id : Nat) : List Node := ((formAt? forms id).map (·.news)).getD []

/-- Whether forms are given to the nodes of a tree and keep their children, and all new nodes have
different numbers between two bounds above those of the tree. -/
structure Fits (forms : List Form) (root : Node) (low high : Nat) : Prop where
  /-- The numbers of the tree lie below the new ones. -/
  old : ∀ n ∈ root.nodes, n.id < low
  /-- A form is that of a node, with new nodes in front of its children. -/
  children : ∀ f ∈ forms, ∃ n ∈ root.nodes, n.id = f.target ∧
    f.kind.children = f.news ++ n.kind.children
  /-- The numbers of the new nodes. -/
  news : Within low high (forms.flatMap fun f => idsOf f.news)

section

variable {forms : List Form} {root : Node} {low high : Nat}

theorem formAt?_concat (forms : List Form) (f : Form) (i : Nat) :
    formAt? (forms ++ [f]) i = if f.target = i then some f else formAt? forms i := by
  unfold formAt?
  rw [List.reverse_append, List.reverse_singleton, List.singleton_append, List.find?_cons]
  by_cases h : f.target = i <;> simp [h]

theorem formAt?_eq_some {f : Form} {i : Nat} (h : formAt? forms i = some f) :
    f ∈ forms ∧ f.target = i := by
  unfold formAt? at h
  have htarget := List.find?_some h
  rw [decide_eq_true_eq] at htarget
  exact ⟨List.mem_reverse.mp (List.mem_of_find?_eq_some h), htarget⟩

theorem exists_formAt? {f : Form} (h : f ∈ forms) : ∃ f', formAt? forms f.target = some f' := by
  cases hat : formAt? forms f.target with
  | some f' => exact ⟨f', rfl⟩
  | none =>
    have := List.find?_eq_none.mp hat f (List.mem_reverse.mpr h)
    simp at this

/-! ## The rewritten tree -/

theorem rewrite_eq (n : Node) : rewrite forms n = .mk n.id n.span (
    match formAt? forms n.id with
    | none => n.kind.map (rewrite forms)
    | some f => f.kind.map fun c =>
      ((n.kind.children.find? (·.id = c.id)).map (rewrite forms)).getD c) := by
  unfold rewrite
  rw [Node.para_eq]
  cases formAt? forms n.id with
  | none => simp only [Kind.map_map]
  | some f =>
    simp only [Kind.children_map, List.find?_map, Option.map_map, Function.comp_def]

@[simp] theorem id_rewrite (n : Node) : (rewrite forms n).id = n.id := by
  rw [rewrite_eq]
  rfl

@[simp] theorem span_rewrite (n : Node) : (rewrite forms n).span = n.span := by
  rw [rewrite_eq]
  rfl

theorem kind_rewrite_of_none {n : Node} (h : formAt? forms n.id = none) :
    (rewrite forms n).kind = n.kind.map (rewrite forms) := by
  rw [rewrite_eq, h]
  rfl

theorem kind_rewrite_of_some {n : Node} {f : Form} (h : formAt? forms n.id = some f) :
    (rewrite forms n).kind = f.kind.map fun c =>
      ((n.kind.children.find? (·.id = c.id)).map (rewrite forms)).getD c := by
  rw [rewrite_eq, h]
  rfl

/-- The kind that a node has in the end, with its own children. -/
def kindAt (forms : List Form) (n : Node) : Kind Node :=
  ((formAt? forms n.id).map (·.kind)).getD n.kind

theorem entry_rewrite (n : Node) :
    (rewrite forms n).entry = ⟨n.span, (kindAt forms n).map Node.id⟩ := by
  unfold Node.entry kindAt
  rw [span_rewrite]
  congr 1
  cases h : formAt? forms n.id with
  | none =>
    rw [kind_rewrite_of_none h, Kind.map_map]
    simp
  | some f =>
    rw [kind_rewrite_of_some h, Kind.map_map]
    refine Kind.map_congr fun c _ => ?_
    cases hfind : n.kind.children.find? (·.id = c.id) with
    | none => rfl
    | some d =>
      have hid := List.find?_some hfind
      rw [decide_eq_true_eq] at hid
      simpa using hid

namespace Fits

theorem node_of_form (h : Fits forms root low high) (hd : root.Distinct) {n : Node}
    (hn : n ∈ root.nodes) {f : Form} (hf : formAt? forms n.id = some f) :
    f.kind.children = f.news ++ n.kind.children := by
  obtain ⟨hmem, htarget⟩ := formAt?_eq_some hf
  obtain ⟨m, hm, hid, hchildren⟩ := h.children f hmem
  rw [hd.eq_of_id hm hn (hid.trans htarget)] at hchildren
  exact hchildren

theorem news_bounds (h : Fits forms root low high) {f : Form} (hf : f ∈ forms) {i : Nat}
    (hi : i ∈ idsOf f.news) : low ≤ i ∧ i < high :=
  h.news.mem i (List.mem_flatMap.mpr ⟨f, hf, hi⟩)

theorem newsAt_bounds (h : Fits forms root low high) {j i : Nat}
    (hi : i ∈ idsOf (newsAt forms j)) : low ≤ i ∧ i < high := by
  unfold newsAt at hi
  cases hf : formAt? forms j with
  | none =>
    rw [hf] at hi
    cases hi
  | some f =>
    rw [hf] at hi
    exact h.news_bounds (formAt?_eq_some hf).1 hi

/-- The new nodes of different nodes are different. -/
theorem newsAt_disjoint (h : Fits forms root low high) {j k i : Nat} (hjk : j ≠ k)
    (hj : i ∈ idsOf (newsAt forms j)) (hk : i ∈ idsOf (newsAt forms k)) : False := by
  unfold newsAt at hj hk
  cases hfj : formAt? forms j with
  | none =>
    rw [hfj] at hj
    cases hj
  | some f =>
    cases hfk : formAt? forms k with
    | none =>
      rw [hfk] at hk
      cases hk
    | some g =>
      rw [hfj] at hj
      rw [hfk] at hk
      obtain ⟨hf, rfl⟩ := formAt?_eq_some hfj
      obtain ⟨hg, rfl⟩ := formAt?_eq_some hfk
      have hnodup := h.news.nodup
      rw [List.nodup_flatMap] at hnodup
      have : Std.Symm (Function.onFun List.Disjoint fun f : Form => idsOf f.news) :=
        ⟨fun _ _ hd _ hb ha => hd ha hb⟩
      exact hnodup.2.forall hf hg (fun he => hjk (he ▸ rfl)) hj hk

/-- A form keeps its new nodes, and has the rewritten children of the node for the children. -/
theorem filled (h : Fits forms root low high) (hd : root.Distinct) {n : Node}
    (hn : n ∈ root.nodes) {f : Form} (hf : formAt? forms n.id = some f) :
    ∃ fill : Node → Node, (rewrite forms n).kind = f.kind.map fill ∧
      (∀ c ∈ f.news, fill c = c) ∧ ∀ c ∈ n.kind.children, fill c = rewrite forms c := by
  refine ⟨_, kind_rewrite_of_some hf, fun c hc => ?_, fun c hc => ?_⟩
  · have hlow := (h.news_bounds (formAt?_eq_some hf).1
      (mem_idsOf.mpr ⟨c, hc, c, c.mem_nodes_self, rfl⟩)).1
    have hnone : n.kind.children.find? (·.id = c.id) = none := by
      rw [List.find?_eq_none]
      intro d hdn
      have := h.old d (Node.mem_nodes_below hn hdn)
      rw [decide_eq_true_eq]
      omega
    rw [hnone]
    rfl
  · have hnodup := (hd.node hn).nodup_children
    rw [NodeTable.find?_of_nodup hnodup hc]
    rfl

/-- A rewritten node has new nodes in front of its rewritten children. -/
theorem children_rewrite (h : Fits forms root low high) (hd : root.Distinct) {n : Node}
    (hn : n ∈ root.nodes) : (rewrite forms n).kind.children =
      newsAt forms n.id ++ n.kind.children.map (rewrite forms) := by
  unfold newsAt
  cases hf : formAt? forms n.id with
  | none =>
    rw [kind_rewrite_of_none hf, Kind.children_map]
    rfl
  | some f =>
    obtain ⟨fill, hkind, hnews, hold⟩ := h.filled hd hn hf
    rw [hkind, Kind.children_map, h.node_of_form hd hn hf, List.map_append,
      List.map_congr_left hold]
    congr 1
    exact (List.map_congr_left hnews).trans (List.map_id' _)

end Fits

end

/-! ## Numbers of the rewritten tree -/

theorem idsOf_eq (n : Node) : idsOf [n] = n.nodes.map Node.id := by
  simp [idsOf]

/-- Where new numbers may come from: the node of every number has its own ones. -/
structure Spare (low : Nat) (new : Nat → List Nat) : Prop where
  /-- They lie above those of the tree. -/
  le : ∀ j, ∀ i ∈ new j, low ≤ i
  /-- No two nodes share one. -/
  disjoint : ∀ {j k i}, j ≠ k → i ∈ new j → i ∈ new k → False

/-- Whether a node has different numbers, those of another one and new ones. -/
structure Grows (new : Nat → List Nat) (ns ns' : List Node) : Prop where
  /-- The numbers are different. -/
  nodup : (idsOf ns').Nodup
  /-- They are old or new. -/
  mem : ∀ i ∈ idsOf ns', i ∈ idsOf ns ∨ ∃ j ∈ idsOf ns, i ∈ new j

theorem Grows.append {low : Nat} {new : Nat → List Nat} (hs : Spare low new)
    {ns ns' ms ms' : List Node} (h : Grows new ns ns') (h' : Grows new ms ms')
    (hnodup : (idsOf (ns ++ ms)).Nodup) (hold : ∀ i ∈ idsOf (ns ++ ms), i < low) :
    Grows new (ns ++ ms) (ns' ++ ms') := by
  rw [idsOf_append, List.nodup_append] at hnodup
  obtain ⟨-, -, hdisjoint⟩ := hnodup
  simp only [idsOf_append, List.mem_append] at hold
  constructor
  · rw [idsOf_append, List.nodup_append]
    refine ⟨h.nodup, h'.nodup, ?_⟩
    rintro i hi _ hi' rfl
    rcases h.mem i hi with hi | ⟨j, hj, hij⟩
    · rcases h'.mem i hi' with hi' | ⟨k, -, hik⟩
      · exact hdisjoint i hi i hi' rfl
      · have := hs.le k i hik
        have := hold i (.inl hi)
        omega
    · rcases h'.mem i hi' with hi' | ⟨k, hk, hik⟩
      · have := hs.le j i hij
        have := hold i (.inr hi')
        omega
      · exact hs.disjoint (hdisjoint j hj k hk) hij hik
  · intro i hi
    rw [idsOf_append, List.mem_append] at hi
    simp only [idsOf_append, List.mem_append]
    rcases hi with hi | hi
    · rcases h.mem i hi with hi | ⟨j, hj, hij⟩
      · exact .inl (.inl hi)
      · exact .inr ⟨j, .inl hj, hij⟩
    · rcases h'.mem i hi with hi | ⟨j, hj, hij⟩
      · exact .inl (.inr hi)
      · exact .inr ⟨j, .inr hj, hij⟩

theorem Grows.list {low : Nat} {new : Nat → List Nat} (hs : Spare low new) {ns ns' : List Node}
    (h : List.Forall₂ (fun n n' => Grows new [n] [n']) ns ns') (hnodup : (idsOf ns).Nodup)
    (hold : ∀ i ∈ idsOf ns, i < low) : Grows new ns ns' := by
  induction h with
  | nil => exact ⟨List.nodup_nil, fun i hi => absurd hi List.not_mem_nil⟩
  | @cons n n' ns ns' hn h ih =>
    have hsub : (idsOf ns).Sublist (idsOf (n :: ns)) := idsOf_sublist (List.sublist_cons_self n ns)
    exact hn.append hs (ih (hnodup.sublist hsub) fun i hi => hold i (hsub.subset hi)) hnodup hold

/-- A node with new nodes in front of children that have grown has grown. -/
theorem Grows.node {low : Nat} {new : Nat → List Nat} (hs : Spare low new) {n n' : Node}
    {news cs : List Node} (hid : n'.id = n.id) (hchildren : n'.kind.children = news ++ cs)
    (hnews : (idsOf news).Nodup) (hmem : ∀ i ∈ idsOf news, i ∈ new n.id)
    (h : Grows new n.kind.children cs) (hd : n.Distinct) (hold : ∀ i ∈ idsOf [n], i < low) :
    Grows new [n] [n'] := by
  rw [idsOf_singleton] at hold
  have hnodup : (idsOf [n]).Nodup := by
    rw [idsOf_eq]
    exact hd
  rw [idsOf_singleton, List.nodup_cons] at hnodup
  simp only [List.mem_cons, forall_eq_or_imp] at hold
  constructor
  · rw [idsOf_singleton, hid, hchildren, idsOf_append, List.nodup_cons, List.nodup_append,
      List.mem_append]
    refine ⟨?_, hnews, h.nodup, ?_⟩
    · rintro (hi | hi)
      · have := hs.le _ _ (hmem _ hi)
        omega
      · rcases h.mem _ hi with hi | ⟨j, -, hij⟩
        · exact hnodup.1 hi
        · have := hs.le _ _ hij
          omega
    · rintro i hi _ hi' rfl
      have hlow := hs.le _ _ (hmem i hi)
      rcases h.mem i hi' with hi' | ⟨j, hj, hij⟩
      · have := hold.2 i hi'
        omega
      · have hne : j ≠ n.id := by
          rintro rfl
          exact hnodup.1 hj
        exact hs.disjoint hne hij (hmem i hi)
  · intro i hi
    rw [idsOf_singleton, hid, hchildren, idsOf_append, List.mem_cons, List.mem_append] at hi
    rw [idsOf_singleton]
    rcases hi with rfl | hi | hi
    · exact .inl List.mem_cons_self
    · exact .inr ⟨n.id, List.mem_cons_self, hmem i hi⟩
    · rcases h.mem i hi with hi | ⟨j, hj, hij⟩
      · exact .inl (List.mem_cons_of_mem _ hi)
      · exact .inr ⟨j, List.mem_cons_of_mem _ hj, hij⟩

section

variable {forms : List Form} {root : Node} {low high : Nat}

theorem Fits.nodup_newsAt (h : Fits forms root low high) (j : Nat) :
    (idsOf (newsAt forms j)).Nodup := by
  unfold newsAt
  cases hf : formAt? forms j with
  | none => exact List.nodup_nil
  | some f =>
    have hnodup := h.news.nodup
    rw [List.nodup_flatMap] at hnodup
    exact hnodup.1 f (formAt?_eq_some hf).1

theorem Fits.grows (h : Fits forms root low high) (hd : root.Distinct) {new : Nat → List Nat}
    (hs : Spare low new) {n : Node} (hn : n ∈ root.nodes)
    (hnew : ∀ m ∈ n.nodes, ∀ i ∈ idsOf (newsAt forms m.id), i ∈ new m.id) :
    Grows new [n] [rewrite forms n] := by
  induction n using Node.induct with
  | h n ih =>
    have hold : ∀ i ∈ idsOf [n], i < low := by
      intro i hi
      obtain ⟨_, hn', m, hm, rfl⟩ := mem_idsOf.mp hi
      obtain rfl := List.mem_singleton.mp hn'
      exact h.old m (Node.mem_nodes_trans hm hn)
    have hdn := hd.node hn
    have hnodup : (idsOf [n]).Nodup := by
      rw [idsOf_eq]
      exact hdn
    rw [idsOf_singleton, List.nodup_cons] at hnodup
    refine Grows.node hs (id_rewrite n) (h.children_rewrite hd hn) (h.nodup_newsAt _)
      (hnew n n.mem_nodes_self) (Grows.list hs ?_ hnodup.2 fun i hi => hold i ?_) hdn hold
    · rw [List.forall₂_map_right_iff, List.forall₂_same]
      exact fun c hc => ih c hc (Node.mem_nodes_below hn hc) fun m hm =>
        hnew m (Node.mem_nodes_of_child hc hm)
    · rw [idsOf_singleton]
      exact List.mem_cons_of_mem _ hi

end

/-! ## The table in which the forms are taken -/

/-- A table in which forms are taken one after the other. -/
def takeForms (t : NodeTable) (forms : List Form) : NodeTable :=
  forms.foldl (fun t f => f.patch.apply t) t

/-- What a table holds in which the nodes of a tree have taken their forms. -/
structure Taken (forms : List Form) (root : Node) (t : NodeTable) : Prop where
  /-- The nodes of the tree in their forms. -/
  old : ∀ n ∈ root.nodes, t.entries[n.id]? = some (rewrite forms n).entry
  /-- All new nodes. -/
  news : ∀ f ∈ forms, ∀ c ∈ f.news, ∀ m ∈ c.nodes, t.Holds m
  /-- Nothing else. -/
  none : ∀ i, i ∉ idsOf [root] → i ∉ forms.flatMap (fun f => idsOf f.news) → t.entries[i]? = none

section

variable {forms : List Form} {root : Node} {low high : Nat}

theorem Fits.initial {f : Form} (h : Fits (forms ++ [f]) root low high) :
    Fits forms root low high := by
  refine ⟨h.old, fun g hg => h.children g (List.mem_append_left _ hg), h.news.sublist ?_⟩
  rw [List.flatMap_append]
  exact List.sublist_append_left ..

theorem getElem?_applyForm (t : NodeTable) (f : Form) (i : Nat) :
    (f.patch.apply t).entries[i]? =
      if i = f.target then ((f.kind.children.foldl NodeTable.add t).entries[i]?).map
        fun e => { e with kind := f.kind.map Node.id }
      else (f.kind.children.foldl NodeTable.add t).entries[i]? :=
  NodeTable.getElem?_setKind ..

theorem Fits.taken (h : Fits forms root low high) (hd : root.Distinct) :
    Taken forms root (takeForms (.ofTree root) forms) := by
  induction forms using List.reverseRecOn with
  | nil =>
    refine ⟨fun n hn => ?_, nofun, fun i hi _ => NodeTable.getElem?_ofTree_none hi⟩
    rw [entry_rewrite]
    exact NodeTable.getElem?_ofTree hd hn
  | append_singleton forms f ih =>
    have hfits := h.initial
    have htaken := ih hfits
    obtain ⟨n, hn, hid, hchildren⟩ := h.children f (List.mem_append_right _ List.mem_cons_self)
    have hnews := h.news.nodup
    rw [List.flatMap_append, List.flatMap_singleton, List.nodup_append] at hnews
    have hbounds : ∀ i ∈ idsOf f.news, low ≤ i ∧ i < high := fun i hi =>
      h.news_bounds (List.mem_append_right _ List.mem_cons_self) hi
    have hlow : f.target < low := hid ▸ h.old n hn
    have htable : takeForms (.ofTree root) (forms ++ [f]) =
        f.patch.apply (takeForms (.ofTree root) forms) := by
      unfold takeForms
      rw [List.foldl_append]
      rfl
    rw [htable]
    generalize takeForms (.ofTree root) forms = t at htaken
    refine ⟨fun m hm => ?_, fun g hg c hc m hm => ?_, fun i hi hinew => ?_⟩
    · rw [getElem?_applyForm, NodeTable.getElem?_addAll, htaken.old m hm, Option.some_or,
        entry_rewrite, entry_rewrite, kindAt, kindAt, formAt?_concat]
      by_cases htarget : m.id = f.target
      · simp [htarget]
      · simp [htarget, Ne.symm htarget]
    · have hmem : m.id ∈ idsOf g.news := mem_idsOf.mpr ⟨c, hc, m, hm, rfl⟩
      have hm' := h.news_bounds hg hmem
      unfold NodeTable.Holds
      rw [getElem?_applyForm, if_neg (by omega), NodeTable.getElem?_addAll]
      rcases List.mem_append.mp hg with hg | hg
      · rw [htaken.news g hg c hc m hm, Option.some_or]
      · obtain rfl := List.mem_singleton.mp hg
        have hnone : t.entries[m.id]? = none := by
          refine htaken.none _ (fun hroot => ?_) fun hold => ?_
          · obtain ⟨_, hr, k, hk, hkid⟩ := mem_idsOf.mp hroot
            obtain rfl := List.mem_singleton.mp hr
            have := h.old k hk
            omega
          · exact hnews.2.2 _ hold _ hmem rfl
        have hmnodes : m ∈ g.news.flatMap Node.nodes := List.mem_flatMap.mpr ⟨c, hc, hm⟩
        rw [hnone, Option.none_or, hchildren, List.flatMap_append, List.find?_append,
          NodeTable.find?_of_nodup hnews.2.1 hmnodes]
        rfl
    · rw [List.flatMap_append, List.flatMap_singleton, List.mem_append, not_or] at hinew
      have hnone : (f.kind.children.foldl NodeTable.add t).entries[i]? = none := by
        rw [NodeTable.getElem?_addAll, htaken.none i hi hinew.1, Option.none_or, hchildren,
          Option.map_eq_none_iff, List.find?_eq_none]
        intro m hm
        rw [decide_eq_true_eq]
        rintro rfl
        obtain ⟨c, hc, hm⟩ := List.mem_flatMap.mp hm
        rcases List.mem_append.mp hc with hc | hc
        · exact hinew.2 (mem_idsOf.mpr ⟨c, hc, m, hm, rfl⟩)
        · exact hi (mem_idsOf.mpr ⟨root, List.mem_singleton_self _, m,
            Node.mem_nodes_trans hm (Node.mem_nodes_below hn hc), rfl⟩)
      rw [getElem?_applyForm, hnone]
      split <;> rfl

/-- A table that holds the rewritten nodes and all new ones holds the rewritten tree. -/
theorem Fits.holds (h : Fits forms root low high) (hd : root.Distinct) {t : NodeTable}
    (hnews : ∀ f ∈ forms, ∀ c ∈ f.news, ∀ m ∈ c.nodes, t.Holds m) {n : Node} (hn : n ∈ root.nodes)
    (hold : ∀ k ∈ n.nodes, t.Holds (rewrite forms k)) : ∀ m ∈ (rewrite forms n).nodes, t.Holds m := by
  induction n using Node.induct with
  | h n ih =>
    intro m hm
    rw [Node.nodes_eq, h.children_rewrite hd hn, List.mem_cons, List.mem_flatMap] at hm
    rcases hm with rfl | ⟨c, hc, hm⟩
    · exact hold n n.mem_nodes_self
    rcases List.mem_append.mp hc with hc | hc
    · unfold newsAt at hc
      cases hf : formAt? forms n.id with
      | none =>
        rw [hf] at hc
        cases hc
      | some f =>
        rw [hf] at hc
        exact hnews f (formAt?_eq_some hf).1 c hc m hm
    · obtain ⟨d, hdn, rfl⟩ := List.mem_map.mp hc
      exact ih d hdn (Node.mem_nodes_below hn hdn)
        (fun k hk => hold k (Node.mem_nodes_of_child hdn hk)) m hm

end

end EsModule.Compile
