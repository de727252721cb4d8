import EsModule.Proofs.Lexis.Tiling
import EsModule.Proofs.Grammar.Reading

/-!
# Nodes that fit their source

What the span of a node owes the source and the spans of the children (`Node.Fits`): it lies between
characters, the children lie inside and one behind the other, and a child that is a name stands for
that very name. Two forms are excepted. The key and the value of a property that is written as one
name share its text, and what is exported may be named by a string.

A tree all of whose nodes fit and have greater numbers than their children `Sits` in the source.
Reading it again as a pattern keeps that (`recast`), since numbers and spans stay.
-/

namespace EsModule.Syntax

open EsModule.Text

/-! ## Places in the source -/

/-- Whether an offset lies between two characters of the source, or at one of its ends. -/
def Boundary (source : List Char) (k : Nat) : Prop :=
  ∃ read rest, source = read ++ rest ∧ k = byteSize read

/-- Whether a span covers a text of the source. -/
def Span.Covers (source text : List Char) (span : Span) : Prop :=
  ∃ read rest, source = read ++ text ++ rest ∧ span = ⟨byteSize read, byteSize (read ++ text)⟩

section

variable {source text : List Char} {c c' : Cursor}

theorem boundary_of_at (h : c.At source) : Boundary source c.pos := by
  obtain ⟨read, hs, hp⟩ := h
  exact ⟨read, c.rest, hs, hp⟩

theorem at_of_moves (h : c.At source) (hm : c.Moves text c') : c'.At source := by
  obtain ⟨read, hs, hp⟩ := h
  refine ⟨read ++ text, ?_, ?_⟩
  · rw [hs, hm.rest, List.append_assoc]
  · rw [hm.pos, hp, byteSize_append]

theorem covers_of_moves (h : c.At source) (hm : c.Moves text c') :
    Span.Covers source text ⟨c.pos, c'.pos⟩ := by
  obtain ⟨read, hs, hp⟩ := h
  refine ⟨read, c'.rest, ?_, ?_⟩
  · rw [hs, hm.rest, List.append_assoc]
  · rw [hm.pos, hp, byteSize_append]

end

/-- Spans between two offsets, one behind the other. -/
structure InOrder (low high : Nat) (spans : List Span) : Prop where
  /-- Each of them lies between the offsets. -/
  inside : ∀ s ∈ spans, low ≤ s.start ∧ s.start ≤ s.stop ∧ s.stop ≤ high
  /-- Each of them ends where a later one starts, or in front of it. -/
  apart : spans.Pairwise fun s t => s.stop ≤ t.start

namespace InOrder

variable {low low' mid high high' : Nat} {spans spans' : List Span}

theorem nil : InOrder low high [] := ⟨nofun, .nil⟩

theorem widen (h : InOrder low high spans) (hl : low' ≤ low) (hh : high ≤ high') :
    InOrder low' high' spans := by
  refine ⟨?_, h.apart⟩
  intro s hs
  obtain ⟨h1, h2, h3⟩ := h.inside s hs
  exact ⟨Nat.le_trans hl h1, h2, Nat.le_trans h3 hh⟩

theorem sublist (h : InOrder low high spans) (hs : spans'.Sublist spans) :
    InOrder low high spans' := ⟨fun s hm => h.inside s (hs.subset hm), h.apart.sublist hs⟩

theorem append (h : InOrder low mid spans) (h' : InOrder mid high spans') (hl : low ≤ mid)
    (hh : mid ≤ high) : InOrder low high (spans ++ spans') := by
  refine ⟨?_, List.pairwise_append.mpr ⟨h.apart, h'.apart, ?_⟩⟩
  · intro s hs
    cases List.mem_append.mp hs with
    | inl hs => exact (h.widen (Nat.le_refl _) hh).inside s hs
    | inr hs => exact (h'.widen hl (Nat.le_refl _)).inside s hs
  · intro s hs t ht
    exact Nat.le_trans (h.inside s hs).2.2 (h'.inside t ht).1

theorem single {span : Span} (h1 : low ≤ span.start) (h2 : span.start ≤ span.stop)
    (h3 : span.stop ≤ high) : InOrder low high [span] := by
  refine ⟨?_, List.pairwise_singleton _ _⟩
  intro s hs
  rw [List.mem_singleton.mp hs]
  exact ⟨h1, h2, h3⟩

end InOrder

/-! ## Templates in the source -/

/-- The chunks of a template and the substitutions behind them follow each other from one offset up
to another one, where the delimiter of the next chunk stands. -/
inductive ChunksUpTo (source : List Char) (start : Nat) :
    List Chunk → List Span → Char → Nat → Prop where
  | first : ChunksUpTo source start [] [] '`' start
  | more {chunks chunk spans span opening low mid high}
      (h : ChunksUpTo source start chunks spans opening low)
      (hc : Span.Covers source (opening :: chunk.raw.toList ++ chunkEnd false) ⟨low, mid⟩)
      (hs : mid ≤ span.start ∧ span.start ≤ span.stop ∧ span.stop ≤ high) :
      ChunksUpTo source start (chunks ++ [chunk]) (spans ++ [span]) '}' high

/-- Whether a span covers a template: its chunks between their delimiters, and the substitutions
between the chunks. -/
def Span.CoversTemplate (source : List Char) (chunks : List Chunk) (substitutions : List Span)
    (span : Span) : Prop :=
  ∃ earlier last opening mid, chunks = earlier ++ [last] ∧
    ChunksUpTo source span.start earlier substitutions opening mid ∧
    Span.Covers source (opening :: last.raw.toList ++ chunkEnd true) ⟨mid, span.stop⟩

/-! ## Nodes in the source -/

/-- Whether a kind is a property that is written as one name, for key and value. -/
def Kind.isShorthand {α : Type} : Kind α → Bool
  | .property _ _ _ _ shorthand _ => shorthand
  | _ => false

/-- Whether a kind is one name in a list of exports. -/
def Kind.isExportSpecifier {α : Type} : Kind α → Bool
  | .exportSpecifier .. => true
  | _ => false

/-- Whether a kind says what the text of the node is: a name, a regular expression or a template. -/
def Kind.isText {α : Type} : Kind α → Bool
  | .identifier _ | .literal (.regExp ..) | .templateLiteral .. => true
  | _ => false

namespace Node

/-- Whether the text of a node is its name, if it has one. -/
def Spelled (source : List Char) (n : Node) : Prop :=
  ∀ name, n.kind = .identifier name → n.span.Covers source name.toList

/-- Whether a node is a name that is written as a string. -/
def Quoted (source : List Char) (n : Node) : Prop :=
  ∃ name c c', n.kind = .identifier name ∧ c.At source ∧ tokenHere c = (.string name, c') ∧
    n.span = ⟨c.pos, c'.pos⟩

/-- Whether the text of a node is the literal, if it is a regular expression or a template. -/
def Verbatim (source : List Char) (n : Node) : Prop :=
  match n.kind with
  | .literal (.regExp pattern flags) =>
    n.span.Covers source ('/' :: pattern.toList ++ '/' :: flags.toList)
  | .templateLiteral quasis expressions =>
    n.span.CoversTemplate source quasis (expressions.map Node.span)
  | _ => True

/-- What the span of a node owes the source and the children. -/
structure Fits (source : List Char) (n : Node) : Prop where
  /-- The span starts between characters. -/
  start : Boundary source n.span.start
  /-- It ends between characters. -/
  stop : Boundary source n.span.stop
  /-- It ends behind its start. -/
  le : n.span.start ≤ n.span.stop
  /-- The children lie inside. -/
  inside : ∀ c ∈ n.kind.children, n.span.start ≤ c.span.start ∧ c.span.stop ≤ n.span.stop
  /-- They stand one behind the other, except for the two sides of a shorthand. -/
  apart : n.kind.isShorthand = false →
    (n.kind.children.map Node.span).Pairwise fun s t => s.stop ≤ t.start
  /-- Those that are names are written so, except for what a string names in a list of exports. -/
  spelled : ∀ c ∈ n.kind.children,
    c.Spelled source ∨ n.kind.isExportSpecifier = true ∧ c.Quoted source

/-- Says that a tree has its place in the source and a number below `bound`. -/
structure Sits (source : List Char) (bound : Nat) (n : Node) : Prop where
  /-- All nodes fit. -/
  fits : ∀ m ∈ n.nodes, m.Fits source
  /-- Literals are written so. -/
  verbatim : ∀ m ∈ n.nodes, m.Verbatim source
  /-- Children were made first. -/
  older : ∀ m ∈ n.nodes, ∀ c ∈ m.kind.children, c.id < m.id
  /-- The bound on the number. -/
  lt : n.id < bound
  /-- If the node is a name it is written so. -/
  spelled : n.Spelled source

variable {source : List Char} {bound bound' : Nat} {n t c : Node}

theorem spelled_of_isText (h : n.kind.isText = false) : n.Spelled source := by
  intro name hname
  rw [hname] at h
  cases h

theorem verbatim_of_isText (h : n.kind.isText = false) : n.Verbatim source := by
  unfold Verbatim
  split
  · rename_i hk
    rw [hk] at h
    cases h
  · rename_i hk
    rw [hk] at h
    cases h
  · trivial

theorem Sits.mono (h : n.Sits source bound) (hb : bound ≤ bound') : n.Sits source bound' :=
  ⟨h.fits, h.verbatim, h.older, Nat.lt_of_lt_of_le h.lt hb, h.spelled⟩

theorem Sits.of_children (hf : n.Fits source) (hs : n.Spelled source) (hv : n.Verbatim source)
    (hn : n.id < bound) (hc : ∀ c ∈ n.kind.children, c.Sits source n.id) :
    n.Sits source bound := by
  refine ⟨?_, ?_, ?_, hn, hs⟩
  · exact forall_nodes hf fun c hmem m hm => (hc c hmem).fits m hm
  · exact forall_nodes hv fun c hmem m hm => (hc c hmem).verbatim m hm
  · exact forall_nodes (fun c hmem => (hc c hmem).lt) fun c hmem m hm => (hc c hmem).older m hm

theorem Sits.child (h : n.Sits source bound) (he : n.kind.isExportSpecifier = false)
    (hc : c ∈ n.kind.children) : c.Sits source n.id := by
  refine ⟨?_, ?_, ?_, h.older n n.mem_nodes_self c hc, ?_⟩
  · exact fun m hm => h.fits m (mem_nodes_of_child hc hm)
  · exact fun m hm => h.verbatim m (mem_nodes_of_child hc hm)
  · exact fun m hm => h.older m (mem_nodes_of_child hc hm)
  · cases (h.fits n n.mem_nodes_self).spelled c hc with
    | inl hs => exact hs
    | inr hq =>
      rw [he] at hq
      exact absurd hq.1 (by decide)

/-! ## Reading again -/

/-- A node that has the number and the place of another one. -/
structure Recast (n t : Node) : Prop where
  /-- The span stays. -/
  span : t.span = n.span
  /-- So does everything about the place. -/
  sits : ∀ {source bound}, n.Sits source bound → t.Sits source bound

theorem Recast.refl (n : Node) : Recast n n := ⟨rfl, fun h => h⟩

theorem Recast.spans {ns ts : List Node} (h : List.Forall₂ Recast ns ts) :
    ts.map Node.span = ns.map Node.span := by
  induction h with
  | nil => rfl
  | cons h _ ih => rw [List.map_cons, List.map_cons, h.span, ih]

theorem Recast.exists_of_mem {ns ts : List Node} (h : List.Forall₂ Recast ns ts) (ht : t ∈ ts) :
    ∃ n ∈ ns, Recast n t := by
  induction h with
  | nil => cases ht
  | @cons n u ns ts h _ ih =>
    cases List.mem_cons.mp ht with
    | inl heq => exact ⟨n, List.mem_cons_self, heq ▸ h⟩
    | inr ht =>
      obtain ⟨m, hm, hmt⟩ := ih ht
      exact ⟨m, List.mem_cons_of_mem _ hm, hmt⟩

/-- A node of another kind whose children were read again. -/
theorem Recast.node {k : Kind Node} (hc : List.Forall₂ Recast n.kind.children k.children)
    (hs : k.isShorthand = n.kind.isShorthand) (he : n.kind.isExportSpecifier = false)
    (hi : k.isText = false) : Recast n (.mk n.id n.span k) := by
  refine ⟨rfl, ?_⟩
  intro source bound h
  have hfits := h.fits n n.mem_nodes_self
  have hchild : ∀ d ∈ k.children, d.Sits source n.id := by
    intro d hd
    obtain ⟨c, hmem, hcd⟩ := Recast.exists_of_mem hc hd
    exact hcd.sits (h.child he hmem)
  refine .of_children ⟨hfits.start, hfits.stop, hfits.le, ?_, ?_, ?_⟩ (spelled_of_isText hi)
    (verbatim_of_isText hi) h.lt hchild
  · intro d hd
    obtain ⟨c, hmem, hcd⟩ := Recast.exists_of_mem hc hd
    rw [hcd.span]
    exact hfits.inside c hmem
  · intro hplain
    show (k.children.map Node.span).Pairwise _
    rw [Recast.spans hc]
    exact hfits.apart (hs ▸ hplain)
  · exact fun d hd => .inl (hchild d hd).spelled

end Node

open Node

/-- The elements of an array that were read again, where holes stay. -/
theorem recast_holes {b : Bool} {es ms : List (Option Node)}
    (h : List.Forall₂ (fun e m => readHole b e = some m) es ms)
    (hr : ∀ n ∈ es.filterMap id, ∀ t, n.patternReading.element b = some t → Recast n t) :
    List.Forall₂ Recast (es.filterMap id) (ms.filterMap id) := by
  induction h with
  | nil => exact .nil
  | @cons e m es ms he _ ih =>
    cases e with
    | none =>
      obtain rfl := Option.some.inj he
      exact ih hr
    | some n =>
      obtain ⟨m, hm, rfl⟩ := Option.map_eq_some_iff.mp he
      exact .cons (hr n List.mem_cons_self m hm)
        (ih fun n hn => hr n (List.mem_cons_of_mem _ hn))

/-- The trees of a list that were read again. -/
theorem recast_list {read : Node → Option Node} {ns ts : List Node}
    (h : List.Forall₂ (fun n t => read n = some t) ns ts)
    (hr : ∀ n ∈ ns, ∀ t, read n = some t → Recast n t) : List.Forall₂ Recast ns ts := by
  induction h with
  | nil => exact .nil
  | cons h _ ih =>
    exact .cons (hr _ List.mem_cons_self _ h) (ih fun n hn => hr n (List.mem_cons_of_mem _ hn))

/-- What is read again as a target keeps its place, if what stands in it does. -/
theorem recast_target {n t : Node} {b : Bool}
    (ht : ∀ c ∈ n.kind.children, ∀ t, c.patternReading.target b = some t → Recast c t)
    (he : ∀ c ∈ n.kind.children, ∀ t, c.patternReading.element b = some t → Recast c t)
    (hm : ∀ c ∈ n.kind.children, ∀ t, c.patternReading.member b = some t → Recast c t)
    (h : n.patternReading.target b = some t) : Recast n t := by
  have hmay := mayBeTarget_of_target h
  obtain ⟨id, span, kind⟩ := n
  cases kind with
  | identifier name =>
    obtain rfl := Option.some.inj h
    exact .refl _
  | memberExpression object property computed optional =>
    obtain ⟨rfl, rfl⟩ := target_of_member rfl h
    exact .refl _
  | objectPattern | arrayPattern =>
    rw [target_pattern (.inl rfl)] at h
    obtain rfl := Option.some.inj h
    exact .refl _
  | restElement =>
    rw [target_pattern (.inr rfl)] at h
    obtain rfl := Option.some.inj h
    exact .refl _
  | assignmentPattern left right =>
    rw [target_default, Option.map_eq_some_iff] at h
    obtain ⟨l, hl, rfl⟩ := h
    exact .node (.cons (ht left List.mem_cons_self l hl) (.cons (.refl right) .nil)) rfl rfl rfl
  | assignmentExpression operator left right =>
    cases operator with
    | assign =>
      rw [target_assignment, Option.map_eq_some_iff] at h
      obtain ⟨l, hl, rfl⟩ := h
      exact .node (.cons (ht left List.mem_cons_self l hl) (.cons (.refl right) .nil)) rfl rfl rfl
    | _ => cases hmay
  | arrayExpression elements =>
    rw [target_array, Option.map_eq_some_iff] at h
    obtain ⟨es, hes, rfl⟩ := h
    exact .node (recast_holes (mapM_eq_some.mp hes) he) rfl rfl rfl
  | objectExpression properties =>
    rw [target_object, Option.map_eq_some_iff] at h
    obtain ⟨ps, hps, rfl⟩ := h
    exact .node (recast_list (mapM_eq_some.mp hps) hm) rfl rfl rfl
  | _ => cases hmay

/-- A node that is read again as a part of a pattern keeps its place. -/
theorem recast (n : Node) : ∀ b t, (n.patternReading.target b = some t → Recast n t) ∧
    (n.patternReading.element b = some t → Recast n t) ∧
    (n.patternReading.member b = some t → Recast n t) := by
  induction n using Node.induct with
  | h n ih =>
    intro b
    have htarget : ∀ t, n.patternReading.target b = some t → Recast n t := fun t =>
      recast_target (fun c hc t => (ih c hc b t).1) (fun c hc t => (ih c hc b t).2.1)
        fun c hc t => (ih c hc b t).2.2
    intro t
    refine ⟨htarget t, ?_, ?_⟩
    · intro h
      by_cases hs : ∃ a, n.kind = .spreadElement a
      · obtain ⟨a, ha⟩ := hs
        obtain ⟨id, span, kind⟩ := n
        obtain rfl : kind = .spreadElement a := ha
        rw [element_spread, Option.map_eq_some_iff] at h
        obtain ⟨u, hu, rfl⟩ := h
        exact .node (.cons ((ih a List.mem_cons_self b u).1 hu) .nil) rfl rfl rfl
      · exact htarget t (element_eq_target (fun a ha => hs ⟨a, ha⟩) ▸ h)
    · intro h
      obtain ⟨id, span, kind⟩ := n
      cases kind with
      | spreadElement a =>
        rw [member_spread, Option.map_eq_some_iff] at h
        obtain ⟨u, hu, rfl⟩ := h
        exact .node (.cons ((ih a List.mem_cons_self b u).1 hu) .nil) rfl rfl rfl
      | property key value kind computed shorthand method =>
        cases kind with
        | plain =>
          cases method with
          | false =>
            rw [member_property, Option.map_eq_some_iff] at h
            obtain ⟨v, hv, rfl⟩ := h
            have hvalue := (ih value (List.mem_cons_of_mem _ List.mem_cons_self) b v).1 hv
            exact .node (.cons (.refl key) (.cons hvalue .nil)) rfl rfl rfl
          | true => cases h
        | _ => cases h
      | _ => cases h

end EsModule.Syntax
