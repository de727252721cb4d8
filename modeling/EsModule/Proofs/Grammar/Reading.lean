import EsModule.Proofs.Grammar.Primary
import EsModule.Syntax.Pattern
import Mathlib.Data.List.Forall2

/-!
# Expressions read again

A tree that is read again as a pattern keeps the numbers of its nodes, and an expression becomes a
target. Where a default value was assigned, the target in front of it was read again before, once
for assigning, and is read a second time with the whole: it is settled by then and stays the same.
-/

namespace EsModule.Syntax

open EsModule.Text

theorem mapM_eq_some {α β : Type} {f : α → Option β} {as : List α} {bs : List β} :
    as.mapM f = some bs ↔ List.Forall₂ (fun a b => f a = some b) as bs := by
  induction as generalizing bs with
  | nil => simp [eq_comm]
  | cons a as ih =>
    simp only [List.mapM_cons, Option.bind_eq_bind, Option.bind_eq_some_iff, ih]
    constructor
    · rintro ⟨b, hb, bs, hbs, h⟩
      obtain rfl := Option.some.inj h
      exact .cons hb hbs
    · rintro (_ | ⟨hb, hbs⟩)
      exact ⟨_, hb, _, hbs, rfl⟩

namespace Node

theorem patternReading_eq (n : Node) : n.patternReading =
    PatternReading.ofKind n.id n.span (n.kind.map fun child => (child, child.patternReading)) :=
  para_eq _ n

/-- The elements of an array read again, where holes stay. -/
def readHole (binding : Bool) : Option Node → Option (Option Node)
  | none => some none
  | some n => (n.patternReading.element binding).map some

variable {b : Bool} {id : Nat} {span : Span} {n : Node}

theorem target_pattern (h : n.isPattern = true ∨ n.isRest = true) :
    n.patternReading.target b = some n := by
  obtain ⟨id, span, kind⟩ := n
  rw [patternReading_eq]
  have hwhole : (Kind.map (fun child : Node => (child, child.patternReading)) kind).map (·.1) =
      kind := by
    rw [Kind.map_map, Kind.map_id']
  cases kind with
  | arrayPattern | objectPattern | restElement => exact congrArg (fun k => some (mk id span k)) hwhole
  | _ => rcases h with h | h <;> cases h

theorem target_default (left right : Node) :
    (mk id span (.assignmentPattern left right)).patternReading.target b =
      (left.patternReading.target b).map fun l => mk id span (.assignmentPattern l right) := by
  rw [patternReading_eq, Option.map_eq_bind]
  rfl

theorem target_assignment (left right : Node) :
    (mk id span (.assignmentExpression .assign left right)).patternReading.target b =
      (left.patternReading.target b).map fun l => mk id span (.assignmentPattern l right) := by
  rw [patternReading_eq, Option.map_eq_bind]
  rfl

theorem target_array (elements : List (Option Node)) :
    (mk id span (.arrayExpression elements)).patternReading.target b =
      (elements.mapM (readHole b)).map fun es => mk id span (.arrayPattern es) := by
  rw [patternReading_eq, Option.map_eq_bind]
  simp only [PatternReading.ofKind, Kind.map, kind, Node.id, Node.span, List.mapM_map]
  congr 2
  funext e
  cases e <;> rfl

theorem target_object (properties : List Node) :
    (mk id span (.objectExpression properties)).patternReading.target b =
      (properties.mapM fun p : Node => p.patternReading.member b).map
        fun ps => mk id span (.objectPattern ps) := by
  rw [patternReading_eq, Option.map_eq_bind]
  simp only [PatternReading.ofKind, Kind.map, kind, Node.id, Node.span, List.mapM_map]
  rfl

theorem element_spread (argument : Node) :
    (mk id span (.spreadElement argument)).patternReading.element b =
      (argument.patternReading.target b).map fun a => mk id span (.restElement a) := by
  rw [patternReading_eq, Option.map_eq_bind]
  rfl

theorem member_spread (argument : Node) :
    (mk id span (.spreadElement argument)).patternReading.member b =
      (argument.patternReading.target b).map fun a => mk id span (.restElement a) := by
  rw [patternReading_eq, Option.map_eq_bind]
  rfl

theorem member_property (key value : Node) (computed shorthand : Bool) :
    (mk id span (.property key value .plain computed shorthand false)).patternReading.member b =
      (value.patternReading.target b).map
        fun v => mk id span (.property key v .plain computed shorthand false) := by
  rw [patternReading_eq, Option.map_eq_bind]
  rfl

/-- Whether a node has the form of something that can be a target. -/
def mayBeTarget (n : Node) : Bool :=
  match n.kind with
  | .identifier _ | .memberExpression .. | .objectPattern _ | .arrayPattern _ | .restElement _
  | .assignmentPattern .. | .assignmentExpression .assign .. | .arrayExpression _
  | .objectExpression _ => true
  | _ => false

theorem mayBeTarget_of_target {n t : Node} (h : n.patternReading.target b = some t) :
    n.mayBeTarget = true := by
  rw [patternReading_eq] at h
  obtain ⟨id, span, kind⟩ := n
  cases kind with
  | assignmentExpression operator left right => cases operator <;> first | rfl | cases h
  | _ => first | rfl | cases h

theorem element_eq_target {n : Node} (h : ∀ a, n.kind ≠ .spreadElement a) :
    n.patternReading.element b = n.patternReading.target b := by
  rw [patternReading_eq]
  obtain ⟨id, span, kind⟩ := n
  cases kind with
  | spreadElement a => exact absurd rfl (h a)
  | _ => rfl

end Node

/-! ## What reading again gives -/

theorem Derives.ne_spread {y : Bool} {n : Node} (h : Derives y .expression n) (a : Node) :
    n.kind ≠ .spreadElement a := by
  cases h with
  | identifier h | templateLiteral h => cases h; exact nofun
  | _ => exact nofun

theorem idsOf_node_congr {id : Nat} {span span' : Span} {k k' : Kind Node}
    (h : idsOf k.children = idsOf k'.children) : idsOf [.mk id span k] = idsOf [.mk id span' k'] := by
  rw [idsOf_singleton, idsOf_singleton]
  exact congrArg (id :: ·) h

theorem idsOf_pair_congr {a b c d : Node} (h : idsOf [a] = idsOf [c]) (h' : idsOf [b] = idsOf [d]) :
    idsOf [a, b] = idsOf [c, d] := by
  rw [idsOf_cons a, idsOf_cons c, h, h']

/-- What becomes of a node that is read again, whatever it is. -/
structure Settles (n : Node) : Prop where
  /-- An expression becomes a target. -/
  expression : ∀ {y b t}, Derives y .expression n → n.patternReading.target b = some t →
    Derives y (.target b) t ∧ idsOf [t] = idsOf [n]
  /-- An argument becomes an element. -/
  argument : ∀ {y b t}, Derives y .argument n → n.patternReading.element b = some t →
    Derives y (.element b) t ∧ idsOf [t] = idsOf [n]
  /-- A member of an object becomes one of a pattern. -/
  member : ∀ {y b t}, Derives y .objectMember n → n.patternReading.member b = some t →
    Derives y (.member b) t ∧ idsOf [t] = idsOf [n]
  /-- A target that was settled stays so. -/
  settled : ∀ {y b t}, Derives y (.settled false) n → n.patternReading.target b = some t →
    Derives y (.settled b) t ∧ idsOf [t] = idsOf [n]
  /-- So does a target. -/
  target : ∀ {y b t}, Derives y (.target false) n → n.patternReading.target b = some t →
    Derives y (.settled b) t ∧ idsOf [t] = idsOf [n]

section

variable {y b : Bool} {n t : Node}

theorem target_of_name (h : Derives y .name n) (ht : n.patternReading.target b = some t) :
    t = n := by
  cases h
  exact (Option.some.inj ht).symm

theorem target_of_member (hm : n.isMember = true) (ht : n.patternReading.target b = some t) :
    b = false ∧ t = n := by
  obtain ⟨id, span, kind⟩ := n
  cases kind with
  | memberExpression =>
    cases b with
    | false => exact ⟨rfl, (Option.some.inj ht).symm⟩
    | true => cases ht
  | _ => cases hm

theorem target_of_pattern (hp : n.isPattern = true) (ht : n.patternReading.target b = some t) :
    t = n := by
  rw [Node.target_pattern (.inl hp)] at ht
  exact (Option.some.inj ht).symm

/-- A member that is written as a name alone has that name for its target. -/
theorem target_of_shorthand {name : String} (h : Derives y (.shorthand name) n)
    (ht : n.patternReading.target b = some t) : t = n := by
  cases h with
  | shorthand => exact (Option.some.inj ht).symm
  | shorthandDefault =>
    rw [Node.target_default] at ht
    exact (Option.some.inj ht).symm

theorem readHoles {es ms : List (Option Node)} {P : Node → Prop}
    (h : List.Forall₂ (fun e m => Node.readHole b e = some m) es ms)
    (hp : ∀ n m, some n ∈ es → n.patternReading.element b = some m → P m ∧ idsOf [m] = idsOf [n]) :
    (∀ e ∈ ms, ∀ n, e = some n → P n) ∧ idsOf (ms.filterMap id) = idsOf (es.filterMap id) := by
  induction h with
  | nil => exact ⟨nofun, rfl⟩
  | @cons e m es ms he _ ih =>
    obtain ⟨ihp, ihids⟩ := ih fun n m hn => hp n m (List.mem_cons_of_mem _ hn)
    cases e with
    | none =>
      obtain rfl := Option.some.inj he
      exact ⟨List.forall_mem_cons.mpr ⟨nofun, ihp⟩, ihids⟩
    | some n =>
      obtain ⟨m, hm, rfl⟩ := Option.map_eq_some_iff.mp he
      obtain ⟨hpm, hids⟩ := hp n m List.mem_cons_self hm
      refine ⟨List.forall_mem_cons.mpr ⟨?_, ihp⟩, ?_⟩
      · rintro n ⟨⟩
        exact hpm
      · show idsOf (m :: ms.filterMap id) = idsOf (n :: es.filterMap id)
        rw [idsOf_cons, hids, ihids, ← idsOf_cons]

theorem readList {ns ms : List Node} {read : Node → Option Node} {P : Node → Prop}
    (h : List.Forall₂ (fun n m => read n = some m) ns ms)
    (hp : ∀ n m, n ∈ ns → read n = some m → P m ∧ idsOf [m] = idsOf [n]) :
    (∀ m ∈ ms, P m) ∧ idsOf ms = idsOf ns := by
  induction h with
  | nil => exact ⟨nofun, rfl⟩
  | @cons n m ns ms hn _ ih =>
    obtain ⟨ihp, ihids⟩ := ih fun n m hn => hp n m (List.mem_cons_of_mem _ hn)
    obtain ⟨hpm, hids⟩ := hp n m List.mem_cons_self hn
    refine ⟨List.forall_mem_cons.mpr ⟨hpm, ihp⟩, ?_⟩
    rw [idsOf_cons, hids, ihids, ← idsOf_cons]

section

variable (ih : ∀ c ∈ n.kind.children, Settles c)
include ih

theorem Derives.target_of_expression (h : Derives y .expression n)
    (ht : n.patternReading.target b = some t) : Derives y (.target b) t ∧ idsOf [t] = idsOf [n] := by
  have hmay := Node.mayBeTarget_of_target ht
  cases h with
  | identifier h =>
    obtain rfl := target_of_name h ht
    exact ⟨.targetName h, rfl⟩
  | memberExpression ho hp =>
    obtain ⟨rfl, rfl⟩ := target_of_member rfl ht
    exact ⟨.targetMember (.memberExpression ho hp) rfl, rfl⟩
  | assignment hl hr =>
    rw [Node.target_assignment, Option.map_eq_some_iff] at ht
    obtain ⟨l, hl', rfl⟩ := ht
    obtain ⟨hd, hids⟩ := (ih _ List.mem_cons_self).target hl hl'
    exact ⟨.targetDefault hd hr, idsOf_node_congr (idsOf_pair_congr hids rfl)⟩
  | @compoundAssignment _ _ _ operator _ _ ho =>
    cases operator with
    | assign => exact absurd rfl ho
    | _ => cases hmay
  | arrayExpression h =>
    rw [Node.target_array, Option.map_eq_some_iff] at ht
    obtain ⟨es, hes, rfl⟩ := ht
    have hread := readHoles (mapM_eq_some.mp hes) fun n m hn hm =>
      (ih n (List.mem_filterMap.mpr ⟨_, hn, rfl⟩)).argument (h _ hn n rfl) hm
    exact ⟨.targetArray hread.1, idsOf_node_congr hread.2⟩
  | objectExpression h =>
    rw [Node.target_object, Option.map_eq_some_iff] at ht
    obtain ⟨ps, hps, rfl⟩ := ht
    have hread := readList (mapM_eq_some.mp hps) fun n m hn hm => (ih n hn).member (h n hn) hm
    exact ⟨.targetObject hread.1, idsOf_node_congr hread.2⟩
  | templateLiteral h =>
    cases h
    cases hmay
  | _ => cases hmay

theorem Derives.element_of_argument (h : Derives y .argument n)
    (ht : n.patternReading.element b = some t) : Derives y (.element b) t ∧ idsOf [t] = idsOf [n] := by
  cases h with
  | spreadElement h =>
    rw [Node.element_spread, Option.map_eq_some_iff] at ht
    obtain ⟨a, ha, rfl⟩ := ht
    obtain ⟨hd, hids⟩ := (ih _ List.mem_cons_self).expression h ha
    exact ⟨.elementRest hd, idsOf_node_congr hids⟩
  | plainArgument h =>
    rw [Node.element_eq_target h.ne_spread] at ht
    obtain ⟨hd, hids⟩ := h.target_of_expression ih ht
    exact ⟨.elementTarget hd, hids⟩

theorem Derives.member_of_objectMember (h : Derives y .objectMember n)
    (ht : n.patternReading.member b = some t) : Derives y (.member b) t ∧ idsOf [t] = idsOf [n] := by
  cases h with
  | spreadMember h =>
    rw [Node.member_spread, Option.map_eq_some_iff] at ht
    obtain ⟨a, ha, rfl⟩ := ht
    obtain ⟨hd, hids⟩ := (ih _ List.mem_cons_self).expression h ha
    exact ⟨.memberRest hd, idsOf_node_congr hids⟩
  | @methodMember _ _ _ _ _ kind _ method hm =>
    cases kind with
    | plain =>
      obtain rfl : method = true := hm
      cases ht
    | _ => cases ht
  | valueMember hk hv =>
    rw [Node.member_property, Option.map_eq_some_iff] at ht
    obtain ⟨v, hv', rfl⟩ := ht
    obtain ⟨hd, hids⟩ := (ih _ (List.mem_cons_of_mem _ List.mem_cons_self)).expression hv hv'
    exact ⟨.memberTarget hk hd, idsOf_node_congr (idsOf_pair_congr rfl hids)⟩
  | shorthandMember hn hv =>
    rw [Node.member_property, Option.map_eq_some_iff] at ht
    obtain ⟨v, hv', rfl⟩ := ht
    obtain rfl := target_of_shorthand hv hv'
    exact ⟨.memberShorthand hn hv, rfl⟩
  | replacedMember hn hv =>
    rw [Node.member_property, Option.map_eq_some_iff] at ht
    obtain ⟨v, hv', rfl⟩ := ht
    obtain ⟨hd, hids⟩ := (ih _ (List.mem_cons_of_mem _ List.mem_cons_self)).expression hv hv'
    exact ⟨.memberReplaced hn hd, idsOf_node_congr (idsOf_pair_congr rfl hids)⟩

theorem Derives.settled_again (h : Derives y (.settled false) n)
    (ht : n.patternReading.target b = some t) : Derives y (.settled b) t ∧ idsOf [t] = idsOf [n] := by
  cases h with
  | settledName h =>
    obtain rfl := target_of_name h ht
    exact ⟨.settledName h, rfl⟩
  | settledMember h hm =>
    obtain ⟨rfl, rfl⟩ := target_of_member hm ht
    exact ⟨.settledMember h hm, rfl⟩
  | settledPattern h hp =>
    obtain rfl := target_of_pattern hp ht
    exact ⟨.settledPattern h hp, rfl⟩
  | settledDefault hl hr =>
    rw [Node.target_default, Option.map_eq_some_iff] at ht
    obtain ⟨l, hl', rfl⟩ := ht
    obtain ⟨hd, hids⟩ := (ih _ List.mem_cons_self).settled hl hl'
    exact ⟨.settledDefault hd hr, idsOf_node_congr (idsOf_pair_congr hids rfl)⟩

theorem Derives.settled_of_target (h : Derives y (.target false) n)
    (ht : n.patternReading.target b = some t) : Derives y (.settled b) t ∧ idsOf [t] = idsOf [n] := by
  cases h with
  | targetName h => exact Derives.settled_again ih (.settledName h) ht
  | targetMember h hm => exact Derives.settled_again ih (.settledMember h hm) ht
  | targetArray h => exact Derives.settled_again ih (.settledPattern (.targetArray h) rfl) ht
  | targetObject h => exact Derives.settled_again ih (.settledPattern (.targetObject h) rfl) ht
  | targetDefault hl hr => exact Derives.settled_again ih (.settledDefault hl hr) ht

theorem Settles.of_children : Settles n where
  expression h ht := h.target_of_expression ih ht
  argument h ht := h.element_of_argument ih ht
  member h ht := h.member_of_objectMember ih ht
  settled h ht := h.settled_again ih ht
  target h ht := h.settled_of_target ih ht

end

theorem settles (n : Node) : Settles n := by
  induction n using Node.induct with
  | h n ih => exact .of_children ih

/-- Whether an operand is a call, so that its items are the arguments of `async`. -/
def Node.isCall (n : Node) : Bool :=
  match n.kind with
  | .callExpression .. => true
  | _ => false

theorem Derives.isRest_of_target {y b : Bool} {n : Node} (h : Derives y (.target b) n) :
    n.isRest = false := by
  cases h with
  | targetName h => exact (Derives.boundName h).isRest_of_bound
  | targetMember h => exact h.isRest_of_expression
  | _ => rfl

/-- An item in parentheses becomes a parameter, which is a rest only if the item is one. -/
theorem IsItem.parameter (h : IsItem y n) (ht : n.toParameter? = some t) :
    Derives y .arrowParameter t ∧ t.isRest = n.isRest ∧ idsOf [t] = idsOf [n] := by
  rcases h with h | ⟨id, span, argument, rfl, ha⟩
  · rw [Node.toParameter?, Node.element_eq_target h.ne_spread] at ht
    obtain ⟨hd, hids⟩ := (settles n).expression h ht
    exact ⟨.arrowTarget hd, by rw [hd.isRest_of_target, h.isRest_of_expression], hids⟩
  · have hne : ∀ a, (Node.mk id span (.restElement argument)).kind ≠ .spreadElement a := by
      intro a ha
      cases ha
    rw [Node.toParameter?, Node.element_eq_target hne, Node.target_pattern (.inr rfl)] at ht
    obtain rfl := Option.some.inj ht
    exact ⟨.arrowRest ha, rfl, rfl⟩

theorem RestLast.of_forall₂ {ns ms : List Node} (h : List.Forall₂ (fun n m => m.isRest = n.isRest) ns ms)
    (hr : RestLast ns) : RestLast ms := by
  induction h with
  | nil => exact hr
  | @cons n m ns ms hd htail ih =>
    cases htail with
    | nil =>
      intro k hk
      cases hk
    | @cons n' m' ns ms hd' htail =>
      have hih := ih fun k hk => hr k (List.mem_cons_of_mem _ hk)
      intro k hk
      rw [List.dropLast_cons_cons, List.mem_cons] at hk
      rcases hk with rfl | hk
      · rw [hd]
        exact hr n List.mem_cons_self
      · exact hih k hk

/-- The items of an operand become the parameters of an arrow function. -/
theorem Operand.Items.parameters {items params : List Node} (h : Operand.Items y n items)
    (ht : items.mapM (·.toParameter?) = some params) :
    (∀ p ∈ params, Derives y (if n.isCall then .element true else .arrowParameter) p) ∧
      (n.isCall = false → RestLast params) ∧ (idsOf params).Sublist (idsOf [n]) := by
  have hread := mapM_eq_some.mp ht
  cases h with
  | @call callee _ hk ha =>
    have hcall : n.isCall = true := by rw [Node.isCall, hk]
    obtain ⟨hd, hids⟩ := readList (P := Derives y (.element true)) hread
      fun m t hm ht => (settles m).argument (ha m hm) ht
    refine ⟨?_, fun hno => absurd hcall (by rw [hno]; exact nofun), ?_⟩
    · rw [hcall]
      exact hd
    · rw [hids, idsOf_singleton, hk]
      exact (idsOf_sublist (List.sublist_append_right [callee] items)).cons _
  | list hi hr hn =>
    obtain ⟨hd, hids⟩ := readList (P := Derives y .arrowParameter) hread
      fun m t hm ht => ⟨((hi m hm).parameter ht).1, ((hi m hm).parameter ht).2.2⟩
    have hcall : n.isCall = false := by
      rcases hn with rfl | hn
      · -- a call is never a parameter
        rw [← Bool.not_eq_true]
        intro hcall
        obtain ⟨id, span, kind⟩ := n
        cases kind with
        | callExpression => cases ht
        | _ => cases hcall
      · rw [Node.isCall, hn]
    have hrests := (List.forall₂_and_left _ _).mpr ⟨hi, hread⟩
    refine ⟨?_, fun _ => .of_forall₂ (hrests.imp fun _ _ h => (h.1.parameter h.2).2.1) hr, ?_⟩
    · rw [hcall]
      exact hd
    · rw [hids]
      rcases hn with rfl | hn
      · exact List.Sublist.refl _
      · rw [idsOf_singleton, hn]
        exact List.sublist_cons_self _ _

end

end EsModule.Syntax
