import EsModule.Proofs.Layout.Item
import EsModule.Proofs.Tree.Fresh
import Mathlib.Algebra.GroupWithZero.Nat

/-!
# The tree of a source

A walk with a stack visits the nodes below a node in the order in which they stand in its tree
(`walk_eq`). In the tree of a module it visits every node that can be reached once, each node but
the root has one node above it, all nodes fit the source, and what lies in front of, between and
behind the items is blank (`parseTree_laidOut`).
-/

namespace EsModule.Syntax

open EsModule.Text

/-! ## Walking through a tree -/

namespace Node

/-- Whether a node can be reached from another one, from children to children. -/
inductive Reaches (root : Node) : Node → Prop where
  /-- The node itself. -/
  | root : Reaches root root
  /-- The children of a node that can be reached. -/
  | child {p c : Node} (hp : Reaches root p) (hc : c ∈ p.kind.children) : Reaches root c

theorem mem_nodes_iff_reaches {root n : Node} : n ∈ root.nodes ↔ root.Reaches n := by
  constructor
  · intro h
    have hall : ∀ m : Node, root.Reaches m → ∀ n ∈ m.nodes, root.Reaches n := by
      intro m
      induction m using Node.induct with
      | h m ih =>
        intro hm
        exact forall_nodes hm fun c hc => ih c hc (.child hm hc)
    exact hall root .root n h
  · intro h
    induction h with
    | root => exact root.mem_nodes_self
    | child _ hc ih => exact mem_nodes_below ih hc

/-- How many nodes stand at or below the nodes on a stack. -/
def stackSize (stack : List Node) : Nat := (stack.map fun n => n.nodes.length).sum

theorem stackSize_children (n : Node) (stack : List Node) :
    stackSize (n.kind.children ++ stack) < stackSize (n :: stack) := by
  simp only [stackSize, List.map_append, List.sum_append, List.map_cons, List.sum_cons]
  rw [nodes_eq n, List.length_cons, List.length_flatMap]
  omega

/-- The nodes that a walk visits while its stack empties: the top node, and then the nodes that its
children put on the stack. -/
def walkFrom : List Node → List Node
  | [] => []
  | n :: stack => n :: walkFrom (n.kind.children ++ stack)
termination_by stack => stackSize stack
decreasing_by exact stackSize_children n stack

/-- The nodes that a walk visits. -/
def walk (start : Node) : List Node := walkFrom [start]

theorem walkFrom_eq (stack : List Node) : walkFrom stack = stack.flatMap nodes := by
  fun_induction walkFrom stack with
  | case1 => rfl
  | case2 n stack ih =>
    rw [ih, List.flatMap_append, List.flatMap_cons, nodes_eq n, List.cons_append]

theorem walk_eq (start : Node) : start.walk = start.nodes := by
  rw [walk, walkFrom_eq, List.flatMap_singleton]

theorem Distinct.id_ne_root {root p c : Node} (h : root.Distinct) (hp : p ∈ root.nodes)
    (hc : c ∈ p.kind.children) : c.id ≠ root.id := by
  intro hid
  obtain rfl := h.eq_of_id (mem_nodes_below hp hc) root.mem_nodes_self hid
  exact root_not_child hp hc

/-- Exactly one node stands above a node that is not the root. -/
theorem Distinct.existsUnique_parent {root n : Node} (h : root.Distinct) (hn : n ∈ root.nodes)
    (hne : n ≠ root) : ∃! p, p ∈ root.nodes ∧ n.id ∈ p.kind.children.map Node.id := by
  obtain ⟨p, hp, hnp⟩ := (eq_root_or_child hn).resolve_left hne
  refine ⟨p, ⟨hp, List.mem_map_of_mem hnp⟩, ?_⟩
  intro q hq
  obtain ⟨hq, hnq⟩ := hq
  obtain ⟨c, hc, hid⟩ := List.mem_map.mp hnq
  obtain rfl := h.eq_of_id (mem_nodes_below hq hc) hn hid
  exact h.parent_unique hq hp hc hnp

end Node

/-! ## Between the items -/

/-- Whether blanks, line ends and comments are all there is between two offsets. -/
def Gap (source : List Char) (low high : Nat) : Prop :=
  ∃ read w rest, source = read ++ w ++ rest ∧ low = byteSize read ∧ high = byteSize (read ++ w) ∧
    Trivia rest w

/-- The ends of the gaps between `low` and `high` that some spans leave. -/
def gaps (low high : Nat) : List Span → List (Nat × Nat)
  | [] => [(low, high)]
  | s :: spans => (low, s.start) :: gaps s.stop high spans

theorem gaps_concat (low mid high : Nat) (spans : List Span) (s : Span) (hs : s.start = mid) :
    gaps low high (spans ++ [s]) = gaps low mid spans ++ [(s.stop, high)] := by
  induction spans generalizing low with
  | nil => rw [← hs]; rfl
  | cons t spans ih => rw [List.cons_append, gaps, ih, gaps, List.cons_append]

section

variable {source : List Char} {g : Grammar} {c : Context} {s s' : State}

theorem State.Placed.gap (h : s.Placed source) :
    Gap source s.before.pos s.current.span.start := by
  obtain ⟨w, hm, htrivia, -⟩ := skipTrivia_moves s.before
  obtain ⟨read, hsource, hpos⟩ := h.before
  refine ⟨read, w, _, ?_, hpos, ?_, htrivia⟩
  · rw [hsource, hm.rest, List.append_assoc]
  · rw [h.span, hm.pos, hpos, byteSize_append]

/-- The end of the source is read at its end. -/
theorem State.Placed.start_eof (h : s.Placed source) (hk : s.current.kind = .eof) :
    s.current.span.start = byteSize source := by
  have hread := (h.normal (by rw [hk]; rfl)).tokenHere.1
  rw [hk] at hread
  obtain ⟨hrest, -⟩ := tokenHere_eof hread
  obtain ⟨read, hsource, hpos⟩ := h.start_at
  rw [hrest, List.append_nil] at hsource
  rw [h.span, hsource]
  exact hpos

/-- A list ends at a token that ends it, if all its items go on. -/
theorem Ensures.listUntil_ends {α : Type} {ends : TokenKind → Bool} {item : Parser (List α × Bool)}
    (I : List α → State → Prop) (h0 : I [] s)
    (hitem : ∀ acc s, I acc s → Ensures item c s fun r s' => r.2 = true ∧ I (acc ++ r.1) s') :
    Ensures (Parser.listUntil ends item) c s fun as s' =>
      I as s' ∧ ends s'.current.kind = true := by
  refine .loop I h0 fun acc s1 hacc => ?_
  refine .bind (.current (.ite (fun hends => .pure ⟨hacc, hends⟩) fun _ => ?_))
  refine .step (hitem acc s1 hacc) fun r s2 hr => ?_
  obtain ⟨more, goesOn⟩ := r
  obtain ⟨rfl, hr⟩ := hr
  exact .pure hr

/-- The items of a module lie one behind the other, with gaps between them. -/
theorem lays_moduleBody (hg : g.Lays source) (hs : s.Ready source) :
    Ensures g.moduleBody c s fun items s' => (∀ n ∈ items, n.Sits source s'.nextId) ∧
      InOrder 0 (byteSize source) (items.map Node.span) ∧
      ∀ p ∈ gaps s.before.pos (byteSize source) (items.map Node.span), Gap source p.1 p.2 := by
  have hall : Ensures g.moduleBody c s fun items s' =>
      (s'.Ready source ∧ (items = [] ∧ s' = s ∨ Laid source s s' items) ∧
        ∀ p ∈ gaps s.before.pos s'.current.span.start (items.map Node.span), Gap source p.1 p.2) ∧
      decide (s'.current.kind = .eof) = true := by
    refine .listUntil_ends (fun items s' => s'.Ready source ∧
      (items = [] ∧ s' = s ∨ Laid source s s' items) ∧
      ∀ p ∈ gaps s.before.pos s'.current.span.start (items.map Node.span), Gap source p.1 p.2) ?_ ?_
    · exact ⟨hs, .inl ⟨rfl, rfl⟩, List.forall_mem_singleton.mpr hs.gap⟩
    intro items s1 h
    obtain ⟨hplaced, hitems, hgaps⟩ := h
    refine .step (spans_moduleItem hg c s1 hplaced) ?_
    intro n s2 h
    obtain ⟨hn, hspan⟩ := h
    have hlaid : Laid source s s2 (items ++ [n]) := by
      rcases hitems with ⟨rfl, rfl⟩ | hitems
      · exact hn
      · exact hitems.append hn
    refine .pure ⟨rfl, hn.placed, .inr hlaid, ?_⟩
    rw [List.map_append, List.map_singleton, gaps_concat _ _ _ _ _ (congrArg Span.start hspan)]
    intro p hp
    cases List.mem_append.mp hp with
    | inl hp => exact hgaps p hp
    | inr hp =>
      rw [List.mem_singleton.mp hp, hspan]
      exact hn.touches ▸ hn.placed.gap
  refine hall.mono ?_
  intro items s' h
  obtain ⟨⟨hplaced, hitems, hgaps⟩, heof⟩ := h
  have hend := hplaced.start_eof (of_decide_eq_true heof)
  rw [hend] at hgaps
  rcases hitems with ⟨rfl, -⟩ | hitems
  · exact ⟨nofun, .nil, hgaps⟩
  · exact ⟨hitems.sits, hitems.ordered.widen (Nat.zero_le _) (hend ▸ hplaced.previous_le), hgaps⟩

end

theorem State.placed_start (source : List Char) : (State.start source).Placed source :=
  placed_of_normal (firstCursor_at source) (normal_start source) (Nat.zero_le _)

theorem State.ready_start (source : List Char) : (State.start source).Ready source :=
  ⟨State.placed_start source, normal_start source⟩

/-! ## The tree of a module -/

/-- What the tree of a module owes its source, and what makes it a tree. -/
structure Node.LaidOut (source : List Char) (root : Node) : Prop where
  /-- A walk visits the nodes that can be reached. -/
  visits : ∀ n, n ∈ root.walk ↔ root.Reaches n
  /-- It visits each of them once. -/
  once : (root.walk.map Node.id).Nodup
  /-- The root stands below no node. -/
  top : ∀ p, root.Reaches p → ∀ c ∈ p.kind.children, c.id ≠ root.id
  /-- Every other node stands below one node. -/
  parent : ∀ n, root.Reaches n → n ≠ root →
    ∃! p, root.Reaches p ∧ n.id ∈ p.kind.children.map Node.id
  /-- Below the root children are older than what stands above them. -/
  older : ∀ p, root.Reaches p → p ≠ root → ∀ c ∈ p.kind.children, c.id < p.id
  /-- All nodes fit the source. -/
  fits : ∀ n, root.Reaches n → n.Fits source
  /-- Behind the first line, if it starts with `#!`, only gaps are left between the items. -/
  blank : ∀ p ∈ gaps (firstCursor source).pos (byteSize source)
    (root.kind.children.map Node.span), Gap source p.1 p.2

/-- A tree is read by the rules for a module from the start of its source. -/
theorem parseTree_eq_ok {source : List Char} {root : Node} (h : parseTree source = .ok root) :
    ∃ c s' items, root = .mk 0 ⟨0, byteSize source⟩ (.program items) ∧
      (Grammar.ofDepth (depthBound source)).moduleBody c (State.start source) =
        .ok (items, s') := by
  unfold parseTree at h
  cases hitems : parseItems source with
  | error e =>
    rw [hitems] at h
    cases h
  | ok items =>
    rw [hitems] at h
    unfold parseItems at hitems
    dsimp only at hitems
    generalize hrun : (Grammar.moduleBody _ _).run _ = run at hitems
    cases run with
    | error e => cases hitems
    | ok result =>
      obtain ⟨items', s'⟩ := result
      obtain rfl := Except.ok.inj hitems
      exact ⟨_, _, _, (Except.ok.inj h).symm, hrun⟩

/-- The node above the items of a module fits if they sit in the source one behind the other. -/
theorem fits_program {source : List Char} {bound : Nat} {items : List Node}
    (hs : ∀ n ∈ items, n.Sits source bound)
    (ho : InOrder 0 (byteSize source) (items.map Node.span)) :
    Node.Fits source (.mk 0 ⟨0, byteSize source⟩ (.program items)) := by
  refine ⟨⟨[], source, rfl, rfl⟩, ⟨source, [], (List.append_nil _).symm, rfl⟩, Nat.zero_le _, ?_,
    fun _ => ho.apart, fun n hn => .inl (hs n hn).spelled⟩
  intro n hn
  obtain ⟨h1, -, h2⟩ := ho.inside _ (List.mem_map_of_mem hn)
  exact ⟨h1, h2⟩

theorem laidOut_of_parseTree {source : List Char} {root : Node}
    (h : parseTree source = .ok root) : root.LaidOut source := by
  obtain ⟨-, -, -, -, hdistinct⟩ := parseTree_sound h
  obtain ⟨c, s', items, hroot, hrun⟩ := parseTree_eq_ok h
  obtain ⟨hsits, hordered, hgaps⟩ :=
    lays_moduleBody (lays_ofDepth source _) (State.ready_start source) _ _ hrun
  have hchildren : root.kind.children = items := by rw [hroot]; rfl
  have hfits : root.Fits source := hroot ▸ fits_program hsits hordered
  rw [← hchildren] at hsits hgaps
  refine ⟨?visits, ?once, ?top, ?parent, ?older, ?fits, ?blank⟩
  case visits =>
    intro n
    rw [Node.walk_eq, Node.mem_nodes_iff_reaches]
  case once =>
    rw [Node.walk_eq]
    exact hdistinct
  case top => exact fun p hp c hc =>
    Node.Distinct.id_ne_root hdistinct (Node.mem_nodes_iff_reaches.mpr hp) hc
  case parent =>
    intro n hn hne
    simp only [← Node.mem_nodes_iff_reaches] at hn ⊢
    exact Node.Distinct.existsUnique_parent hdistinct hn hne
  case older =>
    intro p hp hne
    rw [← Node.mem_nodes_iff_reaches, Node.nodes_eq, List.mem_cons, List.mem_flatMap] at hp
    obtain ⟨n, hn, hp⟩ := hp.resolve_left hne
    exact (hsits n hn).older p hp
  case fits =>
    intro n hn
    rw [← Node.mem_nodes_iff_reaches] at hn
    exact Node.forall_nodes hfits (fun c hc => (hsits c hc).fits) n hn
  case blank => exact hgaps

/-- Regular expressions and templates stand in the source as the tree says. -/
theorem verbatim_of_parseTree {source : List Char} {root : Node}
    (h : parseTree source = .ok root) : ∀ n ∈ root.nodes, n.Verbatim source := by
  obtain ⟨c, s', items, rfl, hrun⟩ := parseTree_eq_ok h
  obtain ⟨hsits, -, -⟩ :=
    lays_moduleBody (lays_ofDepth source _) (State.ready_start source) _ _ hrun
  exact Node.forall_nodes trivial fun n hn => (hsits n hn).verbatim

theorem parseTree_of_parseModule {source file : String} {root : Node}
    (h : parseModule source file = .ok root) : parseTree source.toList = .ok root := by
  unfold parseModule at h
  cases htree : parseTree source.toList with
  | ok tree =>
    rw [htree] at h
    exact congrArg _ (Except.ok.inj h)
  | error e =>
    rw [htree] at h
    cases h

/-- The tree of an accepted source is a tree whose nodes fit the source, with gaps between its
items. -/
theorem parseModule_laidOut {source file : String} {root : Node}
    (h : parseModule source file = .ok root) : root.LaidOut source.toList :=
  laidOut_of_parseTree (parseTree_of_parseModule h)

/-- A first line of its own, a name for key and value, a string as a name, and trivia. -/
theorem parseModule_laidOut_example : ∃ root,
    parseModule "#!x\nvar a = (\x7bb\x7d) => /é/; // c\nexport \x7b\"d\" as a\x7d from 'm';" "test.js" =
      .ok root ∧
    root.LaidOut "#!x\nvar a = (\x7bb\x7d) => /é/; // c\nexport \x7b\"d\" as a\x7d from 'm';".toList := by
  have hok : (parseModule "#!x\nvar a = (\x7bb\x7d) => /é/; // c\nexport \x7b\"d\" as a\x7d from 'm';"
      "test.js").isOk = true := by decide +kernel
  cases h : parseModule "#!x\nvar a = (\x7bb\x7d) => /é/; // c\nexport \x7b\"d\" as a\x7d from 'm';"
      "test.js" with
  | ok root => exact ⟨root, rfl, parseModule_laidOut h⟩
  | error e =>
    rw [h] at hok
    cases hok

end EsModule.Syntax
