import EsModule.Proofs.Pairing.Echo

/-!
# The trees of two runs

The trees of the second run are those of the first one with other numbers and spans
(`Transfer.node`). What rules ask of a tree depends on neither: whether it is a name, whether it can
be assigned to, and what it is as a pattern (`Transfer.readsAlike`).
-/

namespace EsModule.Syntax

theorem mapM_map_comm {α β γ δ : Type} {g : α → β} {h : γ → δ} {r : α → Option γ}
    {r' : β → Option δ} {as : List α} (hr : ∀ a ∈ as, r' (g a) = (r a).map h) :
    (as.map g).mapM r' = (as.mapM r).map (List.map h) := by
  induction as with
  | nil => rfl
  | cons a as ih =>
    have ha := hr a List.mem_cons_self
    have has := ih fun b hb => hr b (List.mem_cons_of_mem _ hb)
    rw [List.map_cons, List.mapM_cons, List.mapM_cons, ha, has]
    cases r a with
    | none => rfl
    | some c => cases as.mapM r <;> rfl

namespace Transfer

variable (i : Transfer)

theorem node_mk (id : Nat) (span : Span) (kind : Kind Node) :
    i.node (.mk id span kind) = .mk (i.number id) (i.span span) (kind.map i.node) := by
  rw [node, Node.fold, Node.para_eq, Kind.map_map]
  rfl

@[simp] theorem node_kind (n : Node) : (i.node n).kind = n.kind.map i.node := by
  obtain ⟨id, span, kind⟩ := n
  rw [node_mk]
  rfl

@[simp] theorem node_span (n : Node) : (i.node n).span = i.span n.span := by
  obtain ⟨id, span, kind⟩ := n
  rw [node_mk]
  rfl

@[simp] theorem node_name? (n : Node) : (i.node n).name? = n.name? := by
  rw [Node.name?, Node.name?, node_kind]
  cases n.kind <;> rfl

@[simp] theorem node_isSimpleTarget (n : Node) :
    (i.node n).isSimpleTarget = n.isSimpleTarget := by
  rw [Node.isSimpleTarget, Node.isSimpleTarget, node_kind]
  cases n.kind <;> rfl

/-! ## Patterns -/

/-- A node that is made of what is read again is changed with it. -/
theorem map_mk_comm {α : Type} {h : α → α} {o : Option α} {kind kind' : α → Kind Node} {id : Nat}
    {span : Span} (hk : ∀ a, kind' (h a) = (kind a).map i.node) :
    (o.map h).map (fun a => Node.mk (i.number id) (i.span span) (kind' a)) =
      (o.map fun a => Node.mk id span (kind a)).map i.node := by
  cases o with
  | none => rfl
  | some a => exact congrArg some ((congrArg _ (hk a)).trans (i.node_mk id span _).symm)

/-- What a tree of the second run is as a pattern. -/
def ReadsAlike (n : Node) : Prop :=
  ∀ b, (i.node n).patternReading.target b = (n.patternReading.target b).map i.node ∧
    (i.node n).patternReading.element b = (n.patternReading.element b).map i.node ∧
    (i.node n).patternReading.member b = (n.patternReading.member b).map i.node

variable {i}

/-- The elements of an array are read alike. -/
theorem readHole_node {e : Option Node} (h : ∀ n, e = some n → i.ReadsAlike n) (b : Bool) :
    Node.readHole b (e.map i.node) = (Node.readHole b e).map (Option.map i.node) := by
  cases e with
  | none => rfl
  | some n =>
    show ((i.node n).patternReading.element b).map some = _
    rw [(h n rfl b).2.1, Node.readHole, Option.map_map, Option.map_map]
    rfl

theorem node_target {n : Node} (ih : ∀ c ∈ n.kind.children, i.ReadsAlike c) (b : Bool) :
    (i.node n).patternReading.target b = (n.patternReading.target b).map i.node := by
  obtain ⟨id, span, kind⟩ := n
  rw [node_mk]
  cases kind with
  | identifier name => exact congrArg some (i.node_mk id span (.identifier name)).symm
  | memberExpression object property computed optional =>
    cases b with
    | true => rfl
    | false =>
      exact congrArg some
        (i.node_mk id span (.memberExpression object property computed optional)).symm
  | arrayPattern | objectPattern =>
    rw [Node.target_pattern (.inl rfl), Node.target_pattern (.inl rfl), Option.map_some, node_mk]
  | restElement =>
    rw [Node.target_pattern (.inr rfl), Node.target_pattern (.inr rfl), Option.map_some, node_mk]
  | assignmentPattern left right =>
    have hleft := (ih left List.mem_cons_self b).1
    rw [Kind.map, Node.target_default, Node.target_default, hleft]
    exact i.map_mk_comm fun _ => rfl
  | assignmentExpression operator left right =>
    cases operator with
    | assign =>
      have hleft := (ih left List.mem_cons_self b).1
      rw [Kind.map, Node.target_assignment, Node.target_assignment, hleft]
      exact i.map_mk_comm fun _ => rfl
    | _ => rfl
  | arrayExpression elements =>
    have helements : ∀ e ∈ elements, Node.readHole b (e.map i.node) =
        (Node.readHole b e).map (Option.map i.node) := by
      intro e he
      refine readHole_node ?_ b
      intro n hn
      subst hn
      exact ih n (List.mem_filterMap.mpr ⟨_, he, rfl⟩)
    rw [Kind.map, Node.target_array, Node.target_array, mapM_map_comm helements]
    exact i.map_mk_comm fun _ => rfl
  | objectExpression properties =>
    have hproperties : ∀ p ∈ properties, (i.node p).patternReading.member b =
        (p.patternReading.member b).map i.node := fun p hp => (ih p hp b).2.2
    rw [Kind.map, Node.target_object, Node.target_object, mapM_map_comm hproperties]
    exact i.map_mk_comm fun _ => rfl
  | _ => rfl

theorem readsAlike (n : Node) : i.ReadsAlike n := by
  induction n using Node.induct with
  | h n ih =>
    intro b
    have htarget := node_target ih b
    refine ⟨htarget, ?_, ?_⟩
    · by_cases hs : ∃ a, n.kind = .spreadElement a
      · obtain ⟨a, ha⟩ := hs
        obtain ⟨id, span, kind⟩ := n
        obtain rfl : kind = .spreadElement a := ha
        rw [node_mk, Kind.map, Node.element_spread, Node.element_spread,
          (ih a List.mem_cons_self b).1]
        exact i.map_mk_comm fun _ => rfl
      · have hspread : ∀ a, (i.node n).kind ≠ .spreadElement a := by
          intro a ha
          rw [node_kind] at ha
          cases hk : n.kind <;> rw [hk] at ha <;> first | exact hs ⟨_, hk⟩ | cases ha
        rw [Node.element_eq_target hspread, Node.element_eq_target fun a ha => hs ⟨a, ha⟩]
        exact htarget
    · obtain ⟨id, span, kind⟩ := n
      rw [node_mk]
      cases kind with
      | spreadElement a =>
        rw [Kind.map, Node.member_spread, Node.member_spread, (ih a List.mem_cons_self b).1]
        exact i.map_mk_comm fun _ => rfl
      | property key value kind computed shorthand method =>
        cases kind with
        | plain =>
          cases method with
          | false =>
            have hvalue := (ih value (List.mem_cons_of_mem _ List.mem_cons_self) b).1
            rw [Kind.map, Node.member_property, Node.member_property, hvalue]
            exact i.map_mk_comm fun _ => rfl
          | true => rfl
        | _ => rfl
      | _ => rfl

variable (i)

@[simp] theorem node_toTarget? (n : Node) : (i.node n).toTarget? = n.toTarget?.map i.node :=
  (readsAlike n false).1

@[simp] theorem node_toParameter? (n : Node) :
    (i.node n).toParameter? = n.toParameter?.map i.node := (readsAlike n true).2.1

end Transfer

/-! ## New nodes -/

namespace Echoes

variable {i : Pairing} {l : Nat} {s : State} {γ δ : Type} {g : γ → δ} {k k' : Kind Node}

theorem nodeAt {m : Nat} {span span' : Span} (hk : k' = k.map i.node)
    (hs : span' = i.span span) (hl : l ≤ m) :
    Echoes i l (fun _ => m) s (Parser.nodeAt k span) (Parser.nodeAt k' span') i.node := by
  subst hk hs
  intro hleft ht c c' _
  refine ⟨?_, nofun⟩
  intro a s' hrun
  obtain ⟨rfl, rfl⟩ := Prod.mk.inj (Except.ok.inj hrun)
  refine ⟨i.counted ht, Nat.le_refl _, Nat.lt_of_lt_of_le hleft hl, ?_⟩
  intro hclear
  obtain ⟨hclear', hstate⟩ := i.of_counted ht hclear
  refine ⟨hclear', ?_⟩
  show _ = Except.ok (_, i.state s.counted)
  rw [hstate, Transfer.node_mk]
  rfl

/-- A new node up to the end of the token before. -/
theorem node {m start : Nat} (hk : k' = k.map i.node) (hl : l ≤ m) :
    Echoes i l (fun _ => m) s (Parser.node k start) (Parser.node k' (i.start start)) i.node :=
  .tracked fun ht => .get (.nodeAt hk (i.span_max ht start).symm hl)

variable {m : γ → Nat}

/-- A rule that goes on with a new node. -/
theorem made {start : Nat} {p : Node → Parser γ} {p' : Node → Parser δ} (hk : k' = k.map i.node)
    (h : ∀ n s', Echoes i l m s' (p n) (p' (i.node n)) g) :
    Echoes i l m s (Parser.node k start >>= p) (Parser.node k' (i.start start) >>= p') g :=
  .bind (.node hk (Nat.le_refl l)) h

theorem madeAt {span span' : Span} {p : Node → Parser γ} {p' : Node → Parser δ}
    (hk : k' = k.map i.node) (hs : span' = i.span span)
    (h : ∀ n s', Echoes i l m s' (p n) (p' (i.node n)) g) :
    Echoes i l m s (Parser.nodeAt k span >>= p) (Parser.nodeAt k' span' >>= p') g :=
  .bind (.nodeAt hk hs (Nat.le_refl l)) h

/-- A new node as an operand of its own. -/
theorem operand {m start : Nat} (hk : k' = k.map i.node) (hl : l ≤ m) :
    Echoes i l (fun _ => m) s (Parser.node k start >>= fun n => Pure.pure (Operand.mk n none))
      (Parser.node k' (i.start start) >>= fun n => Pure.pure (Operand.mk n none)) i.operand :=
  .made hk fun _ _ => .pure rfl hl

end Echoes

end EsModule.Syntax
