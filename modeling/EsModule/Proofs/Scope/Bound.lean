import EsModule.Proofs.Grammar.Inside
import EsModule.Proofs.Scope.Steps
import Mathlib.Logic.Relation

/-!
# Names that are declared are not used

A target leads to the names that it binds through patterns alone, so from a name upwards there is
one way to the node that declares it or writes it. A node that declares names is none that writes
them, and the nodes around a declared name do not read it: `declared_not_used`.
-/

namespace EsModule.Syntax

/-! ## What a node binds -/

namespace Node

/-- What a node binds. -/
def bound (n : Node) : Bound := n.para Bound.ofKind

theorem bound_eq (n : Node) :
    n.bound = Bound.ofKind n.id n.span (n.kind.map fun c => (c, c.bound)) :=
  para_eq Bound.ofKind n

/-- The children through which a target leads to the names that it binds. -/
def passesOn (n : Node) : List Node :=
  match n.kind with
  | .arrayPattern elements => elements.filterMap fun e => e
  | .objectPattern properties => properties
  | .restElement argument => [argument]
  | .assignmentPattern left _ => [left]
  | .property _ value _ _ _ _ => [value]
  | _ => []

theorem passesOn_sublist (n : Node) : n.passesOn.Sublist n.kind.children := by
  unfold passesOn
  split <;> simp_all [Kind.children]

/-- Whether a target leads to a node through patterns alone. -/
def Leads : Node → Node → Prop := Relation.ReflTransGen fun n c => c ∈ n.passesOn

theorem Leads.here {n : Node} : n.Leads n := .refl

theorem Leads.from {n c i : Node} (hc : c ∈ n.passesOn) (h : c.Leads i) : n.Leads i :=
  Relation.ReflTransGen.head hc h

theorem Leads.mem_nodes {root n i : Node} (h : n.Leads i) (hn : n ∈ root.nodes) :
    i ∈ root.nodes := by
  induction h with
  | refl => exact hn
  | tail _ hc ih => exact mem_nodes_below ih ((passesOn_sublist _).subset hc)

/-- Two targets from which a name is reached are the same if both are the ends of the way up. -/
theorem Leads.eq_of_top {root a b i : Node} (hd : root.Distinct) (ha : a ∈ root.nodes)
    (hb : b ∈ root.nodes) (hta : ∀ p ∈ root.nodes, a ∉ p.passesOn)
    (htb : ∀ p ∈ root.nodes, b ∉ p.passesOn) (h : a.Leads i) (h' : b.Leads i) : a = b := by
  induction h with
  | refl =>
    cases Relation.ReflTransGen.cases_tail h' with
    | inl h => exact h
    | inr h =>
      obtain ⟨p, hp, hap⟩ := h
      exact absurd hap (hta p (Leads.mem_nodes hp hb))
  | tail hj hij ih =>
    rename_i j i
    cases Relation.ReflTransGen.cases_tail h' with
    | inl h =>
      subst h
      exact absurd hij (htb j (Leads.mem_nodes hj ha))
    | inr h =>
      obtain ⟨k, hk, hik⟩ := h
      have hjk := hd.parent_unique (Leads.mem_nodes hj ha) (Leads.mem_nodes hk hb)
        ((passesOn_sublist j).subset hij) ((passesOn_sublist k).subset hik)
      subst hjk
      exact ih hk

end Node

/-- Whether what stands in a place is a target, or a member of one. -/
def Nonterminal.binds : Nonterminal → Bool
  | .name | .shorthand _ | .bound | .boundElement | .parameter | .boundMember | .target _
  | .element _ | .member _ | .settled _ | .arrowParameter => true
  | _ => false

/-- What a node binds as a target or as a member of one. -/
def Bound.names (b : Bound) : List Node := b.target ++ b.member

/-- Whether a node declares names as it stands. -/
def Node.isDeclaring (n : Node) : Bool :=
  match n.kind with
  | .variableDeclaration .. | .variableDeclarator .. | .functionDeclaration _
  | .classDeclaration _ => true
  | _ => false

theorem mem_elim_map {α β : Type} {f : α → List β} {e : Option α} {b : β} :
    b ∈ (e.elim [] f) ↔ ∃ a, e = some a ∧ b ∈ f a := by
  cases e <;> simp

/-- What is no declaration binds itself, or what the nodes bind that it passes on to. -/
theorem Node.mem_names {n i : Node} (hd : n.isDeclaring = false) (hi : i ∈ n.bound.names) :
    i = n ∨ ∃ c ∈ n.passesOn, i ∈ c.bound.names := by
  rw [bound_eq] at hi
  obtain ⟨id, span, kind⟩ := n
  cases kind
  all_goals first | cases hd; done | skip
  all_goals simp only [Bound.names, Bound.ofKind, Kind.map, Node.kind, Node.id, Node.span,
    passesOn, List.mem_append, List.mem_singleton, List.not_mem_nil, or_self, false_or,
    List.mem_flatMap, List.mem_map, List.mem_filterMap, exists_exists_and_eq_and, exists_eq_left,
    exists_eq_right, mem_elim_map] at hi ⊢
  all_goals grind [Option.map_eq_some_iff]

theorem Node.passesOn_of_isMember {n : Node} (h : n.isMember = true) : n.passesOn = [] := by
  unfold isMember at h
  unfold passesOn
  split at h
  · rename_i hk
    rw [hk]
  · cases h

theorem Node.isDeclaring_of_isMember {n : Node} (h : n.isMember = true) :
    n.isDeclaring = false := by
  unfold isMember at h
  unfold isDeclaring
  split at h
  · rename_i hk
    rw [hk]
  · cases h

theorem Derives.isDeclaring {y : Bool} {nt : Nonterminal} {n : Node} (h : Derives y nt n) :
    nt.binds = true → n.isDeclaring = false := by
  induction h
  all_goals intro hnt
  all_goals first | rfl | (cases hnt; done) | (rename_i ih; exact ih rfl) | skip
  case targetMember hm _ => exact Node.isDeclaring_of_isMember hm
  case settledMember hm _ => exact Node.isDeclaring_of_isMember hm

/-- A target passes on to targets. -/
theorem Derives.binds {y : Bool} {nt : Nonterminal} {n : Node} (h : Derives y nt n) :
    nt.binds = true → ∀ c ∈ n.passesOn, ∃ y nt, Derives y nt c ∧ nt.binds = true := by
  induction h
  all_goals intro hnt
  all_goals first | (cases hnt; done) | (rename_i ih; exact ih rfl) | skip
  case targetMember hm _ => simp [Node.passesOn_of_isMember hm]
  case settledMember hm _ => simp [Node.passesOn_of_isMember hm]
  all_goals
    simp only [Node.passesOn, Node.kind, List.mem_filterMap, List.mem_singleton,
      List.not_mem_nil, exists_eq_right, forall_eq, false_imp_iff, implies_true]
  case shorthandDefault y _ _ _ _ name _ _ _ => exact ⟨y, .shorthand name, .shorthand, rfl⟩
  all_goals grind [Nonterminal.binds]

/-- A target leads to the names that it binds. -/
theorem Derives.leads {y : Bool} {nt : Nonterminal} {n : Node} (h : Derives y nt n)
    (hnt : nt.binds = true) : ∀ i ∈ n.bound.names, n.Leads i := by
  induction n using Node.induct generalizing y nt with
  | h n ih =>
    intro i hi
    rcases Node.mem_names (h.isDeclaring hnt) hi with rfl | ⟨c, hc, hi⟩
    · exact .here
    · obtain ⟨y', nt', hc', hnt'⟩ := h.binds hnt c hc
      exact .from hc (ih c (n.passesOn_sublist.subset hc) hc' hnt' i hi)

theorem Derives.leads_boundIdentifiers {y : Bool} {nt : Nonterminal} {n : Node}
    (h : Derives y nt n) (hnt : nt.binds = true) {i : Node} (hi : i ∈ n.boundIdentifiers) :
    n.Leads i :=
  h.leads hnt i (List.mem_append_left _ hi)

end EsModule.Syntax

namespace EsModule.Scope

open EsModule.Syntax

/-! ## The ends of the way up -/

/-- The targets in which a node declares names. -/
def declaredTargets (n : Node) : List Node :=
  match n.kind with
  | .catchClause param _ => param.toList
  | .variableDeclarator target _ => [target]
  | .functionDeclaration f | .functionExpression f => f.params ++ f.name.toList
  | .arrowFunction params _ _ _ => params
  | .classDeclaration c | .classExpression c => c.name.toList
  | _ => []

/-- The nodes whose targets a node declares: its declarators or the node itself. -/
def declarers (n : Node) : List Node :=
  match n.kind with
  | .variableDeclaration _ declarators => declarators
  | _ => [n]

/-- The identifiers whose names a node declares, if it is no import. -/
def declaredIdentifiers (n : Node) : List Node :=
  (declarers n).flatMap fun d => (declaredTargets d).flatMap (·.boundIdentifiers)

/-- The targets to which a node writes. -/
def writtenTargets (n : Node) : List Node :=
  match n.kind with
  | .updateExpression _ _ argument | .unaryExpression .delete argument => identifierOnly argument
  | .assignmentExpression _ left _ => [left]
  | .forInStatement left _ _ | .forOfStatement left _ _ _ =>
    if isVariableDeclaration left then [] else [left]
  | _ => []

theorem declaredTargets_subset (n : Node) : declaredTargets n ⊆ n.kind.children := by
  unfold declaredTargets
  split <;> simp_all [Kind.children, Function.children, Class.children]

theorem writtenTargets_subset (n : Node) : writtenTargets n ⊆ n.kind.children := by
  unfold writtenTargets identifierOnly
  split <;> try split
  all_goals simp_all [Kind.children]

theorem passesOn_of_mem_declaredTargets {n top : Node} (h : top ∈ declaredTargets n) :
    n.passesOn = [] ∧ writtenTargets n = [] ∧ n.isObject = false := by
  unfold declaredTargets at h
  unfold Node.passesOn writtenTargets Node.isObject
  split at h <;> simp_all

theorem passesOn_of_mem_writtenTargets {n top : Node} (h : top ∈ writtenTargets n) :
    n.passesOn = [] := by
  unfold writtenTargets at h
  unfold Node.passesOn
  split at h <;> simp_all

theorem boundIdentifiers_of_name? {n : Node} (h : n.name?.isSome = true) :
    n.boundIdentifiers = [n] := by
  unfold Node.name? at h
  split at h
  · obtain ⟨id, span, kind⟩ := n
    rename_i hk
    obtain rfl : kind = _ := hk
    rfl
  · cases h

theorem binds_declaredTargets {y : Bool} {nt : Nonterminal} {n : Node} (h : Derives y nt n) :
    ∀ top ∈ declaredTargets n, ∃ y nt, Derives y nt top ∧ nt.binds = true := by
  induction h
  all_goals try assumption
  all_goals
    simp only [declaredTargets, Node.kind, List.mem_append, List.mem_singleton, Option.mem_toList,
      List.not_mem_nil, false_imp_iff, implies_true, forall_eq]
  all_goals grind [Nonterminal.binds]

theorem mem_identifierOnly {n i : Node} : i ∈ identifierOnly n ↔ i = n ∧ n.name?.isSome = true := by
  unfold identifierOnly
  split <;> simp_all

theorem leads_of_name? {n i : Node} (h : n.name?.isSome = true) (hi : i ∈ n.boundIdentifiers) :
    n.Leads i := by
  rw [boundIdentifiers_of_name? h, List.mem_singleton] at hi
  subst hi
  exact .here

theorem leads_of_isSimpleTarget {n i : Node} (h : n.isSimpleTarget = true)
    (hi : i ∈ n.boundIdentifiers) : n.Leads i := by
  obtain ⟨id, span, kind⟩ := n
  unfold Node.isSimpleTarget at h
  split at h
  · rename_i hk
    exact leads_of_name? (by rw [Node.name?, hk]; rfl) hi
  · rename_i hk
    obtain rfl : kind = _ := hk
    cases hi
  · cases h

theorem leads_of_loopTarget {y : Bool} {n i : Node} (h : Derives y .loopTarget n)
    (hv : isVariableDeclaration n = false) (hi : i ∈ n.boundIdentifiers) : n.Leads i := by
  cases h with
  | variablesTarget h =>
    cases h
    cases hv
  | assignedTarget h => exact h.leads_boundIdentifiers rfl hi

theorem leads_writtenTargets {y : Bool} {nt : Nonterminal} {n : Node} (h : Derives y nt n) :
    ∀ top ∈ writtenTargets n, ∀ i ∈ top.boundIdentifiers, top.Leads i := by
  induction h
  all_goals try assumption
  case unaryExpression operator argument _ _ =>
    cases operator <;> simp only [writtenTargets, Node.kind, mem_identifierOnly, List.not_mem_nil,
      false_imp_iff, implies_true]
    rintro _ ⟨rfl, hname⟩ i hi
    exact leads_of_name? hname hi
  all_goals
    simp only [writtenTargets, Node.kind, List.mem_singleton, List.not_mem_nil, false_imp_iff,
      implies_true, forall_eq, mem_identifierOnly]
  case updateExpression hs _ => exact fun _ h i hi => h.1 ▸ leads_of_isSimpleTarget hs (h.1 ▸ hi)
  case assignment hl _ _ _ => exact fun i hi => hl.leads_boundIdentifiers rfl hi
  case compoundAssignment hs _ _ _ => exact fun i hi => leads_of_isSimpleTarget hs hi
  case forInStatement hl _ _ _ _ _ =>
    split
    · simp
    · rename_i hv
      simpa using fun i hi => leads_of_loopTarget hl (by simpa using hv) hi
  case forOfStatement hl _ _ _ _ _ =>
    split
    · simp
    · rename_i hv
      simpa using fun i hi => leads_of_loopTarget hl (by simpa using hv) hi

theorem mem_writes {n i : Node} :
    i ∈ writes n ↔ ∃ top ∈ writtenTargets n, i ∈ top.boundIdentifiers := by
  have honly : ∀ a : Node, i ∈ identifierOnly a ↔
      ∃ top ∈ identifierOnly a, i ∈ top.boundIdentifiers := by
    intro a
    simp only [mem_identifierOnly]
    constructor
    · rintro ⟨rfl, h⟩
      exact ⟨i, ⟨rfl, h⟩, by rw [boundIdentifiers_of_name? h]; exact List.mem_singleton_self i⟩
    · rintro ⟨top, ⟨rfl, h⟩, hi⟩
      rw [boundIdentifiers_of_name? h, List.mem_singleton] at hi
      subst hi
      exact ⟨rfl, h⟩
  have hloop : ∀ left : Node,
      (i ∈ if isVariableDeclaration left then [] else left.boundIdentifiers) ↔
        ∃ top ∈ (if isVariableDeclaration left then [] else [left] : List Node),
          i ∈ top.boundIdentifiers := by
    intro left
    split <;> simp
  unfold writes writtenTargets
  generalize n.kind = kind
  cases kind
  case updateExpression => exact honly _
  case unaryExpression operator _ => cases operator <;> first | exact honly _ | simp
  case forInStatement => exact hloop _
  case forOfStatement => exact hloop _
  all_goals simp

/-! ## Declared names are not used -/

section

variable {root : Node} {items : List Node}

theorem declaredTargets_of_other {n : Node}
    (h : n.kind = .program items ∨ n.name?.isSome = true ∨ n.isRemoved = true) :
    declaredTargets n = [] ∧ writtenTargets n = [] := by
  unfold declaredTargets writtenTargets
  rcases h with h | h | h
  · rw [h]
    exact ⟨rfl, rfl⟩
  · unfold Node.name? at h
    split at h
    · rename_i hk
      rw [hk]
      exact ⟨rfl, rfl⟩
    · cases h
  · rw [n.kind_of_isRemoved h]
    exact ⟨rfl, rfl⟩

/-- A declared target leads to what it binds. -/
theorem leads_declaredTargets (h : ModuleTree root items) {n : Node} (hn : n ∈ root.nodes) :
    ∀ top ∈ declaredTargets n, ∀ i ∈ top.boundIdentifiers, top.Leads i := by
  refine h.of_derives (P := fun n => ∀ top ∈ declaredTargets n, ∀ i ∈ top.boundIdentifiers,
    top.Leads i) (fun y nt n hd top htop i hi => ?_) (fun n hn => ?_) hn
  · obtain ⟨_, _, htop, hnt⟩ := binds_declaredTargets hd top htop
    exact htop.leads_boundIdentifiers hnt hi
  · rw [(declaredTargets_of_other hn).1]
    nofun

theorem exists_declarer (h : ModuleTree root items) {n i : Node} (hn : n ∈ root.nodes)
    (hi : i ∈ declaredIdentifiers n) :
    ∃ p ∈ root.nodes, ∃ top ∈ declaredTargets p, top.Leads i := by
  obtain ⟨p, hp, hi⟩ := List.mem_flatMap.mp hi
  obtain ⟨top, htop, hi⟩ := List.mem_flatMap.mp hi
  have hpn : p ∈ root.nodes := by
    unfold declarers at hp
    split at hp
    · rename_i hk
      exact Node.mem_nodes_below hn (by rw [hk]; exact hp)
    · rw [List.mem_singleton] at hp
      subst hp
      exact hn
  exact ⟨p, hpn, top, htop, leads_declaredTargets h hpn top htop i hi⟩

theorem exists_writer (h : ModuleTree root items) {n i : Node} (hn : n ∈ root.nodes)
    (hi : i ∈ writes n) : ∃ top ∈ writtenTargets n, top.Leads i := by
  obtain ⟨top, htop, hi⟩ := mem_writes.mp hi
  refine ⟨top, htop, ?_⟩
  refine h.of_derives (P := fun p => ∀ top ∈ writtenTargets p, ∀ i ∈ top.boundIdentifiers,
    top.Leads i) (fun y nt n hd => leads_writtenTargets hd) (fun n hn => ?_) hn top htop i hi
  rw [(declaredTargets_of_other hn).2]
  nofun

/-- The end of the way up from a name. -/
theorem not_passesOn (h : root.Distinct) {p top : Node} (hp : p ∈ root.nodes)
    (htop : top ∈ p.kind.children) (hpass : p.passesOn = []) :
    ∀ q ∈ root.nodes, top ∉ q.passesOn := by
  intro q hq hmem
  have hqp := h.parent_unique hq hp ((q.passesOn_sublist).subset hmem) htop
  subst hqp
  rw [hpass] at hmem
  cases hmem

theorem declared_not_written (h : ModuleTree root items) {n m i : Node} (hn : n ∈ root.nodes)
    (hm : m ∈ root.nodes) (hi : i ∈ declaredIdentifiers n) : i ∉ writes m := by
  intro hw
  obtain ⟨p, hp, top, htop, hleads⟩ := exists_declarer h hn hi
  obtain ⟨top', htop', hleads'⟩ := exists_writer h hm hw
  obtain ⟨hpass, hwrites, -⟩ := passesOn_of_mem_declaredTargets htop
  have hchild := declaredTargets_subset p htop
  have hchild' := writtenTargets_subset m htop'
  have hsame := Node.Leads.eq_of_top h.distinct (Node.mem_nodes_below hp hchild)
    (Node.mem_nodes_below hm hchild') (not_passesOn h.distinct hp hchild hpass)
    (not_passesOn h.distinct hm hchild' (passesOn_of_mem_writtenTargets htop')) hleads hleads'
  subst hsame
  have hpm := h.distinct.parent_unique hp hm hchild hchild'
  subst hpm
  rw [hwrites] at htop'
  cases htop'

theorem same_eq_false {a b : Node} : same a b = false ↔ a.id ≠ b.id := by
  unfold same
  rw [beq_eq_false_iff_ne]

theorem any_same_eq_false {o : Option Node} {a : Node} (h : ∀ b, o = some b → b.id ≠ a.id) :
    o.any (same · a) = false := by
  cases o with
  | none => rfl
  | some b => exact same_eq_false.mpr (h b rfl)

/-- A node does not read the names that it declares. -/
theorem isReferenced_declaredTarget {p top : Node} {g : Option Node}
    (hids : (p.kind.children.map Node.id).Nodup) (htop : top ∈ declaredTargets p) :
    isReferenced top p g = false := by
  unfold declaredTargets at htop
  unfold isReferenced
  generalize p.kind = kind at htop hids
  cases kind
  all_goals
    simp only [List.not_mem_nil, List.mem_singleton, Option.mem_toList] at htop
  all_goals simp only [Kind.children, Class.children] at hids ⊢
  case variableDeclarator => exact any_same_eq_false (by grind)
  case classDeclaration => exact any_same_eq_false (by grind)
  case classExpression => exact any_same_eq_false (by grind)
  case arrowFunction => exact same_eq_false.mpr (by grind)

/-- A pattern does not read the names through which it leads. -/
theorem isReferenced_passesOn {p i : Node} {g : Option Node}
    (hids : (p.kind.children.map Node.id).Nodup) (hi : i ∈ p.passesOn)
    (hg : p.isProperty = true → ∃ g' properties, g = some g' ∧ g'.kind = .objectPattern properties) :
    isReferenced i p g = false := by
  unfold Node.passesOn at hi
  unfold isReferenced
  unfold Node.isProperty at hg
  generalize p.kind = kind at hi hids hg
  cases kind
  all_goals
    simp only [List.not_mem_nil, List.mem_singleton] at hi
  all_goals simp only [Kind.children] at hids ⊢
  case property =>
    obtain ⟨g', properties, rfl, hg'⟩ := hg rfl
    rw [if_neg (by rw [Bool.not_eq_true, same_eq_false]; grind), Option.map_some, hg']
  case assignmentPattern => exact same_eq_false.mpr (by grind)

/-- The node around a declared name does not read it. -/
theorem declared_not_read (h : ModuleTree root items) {n i p : Node} {g : Option Node}
    (hn : n ∈ root.nodes) (hi : i ∈ declaredIdentifiers n) (hp : p ∈ root.nodes)
    (hip : i ∈ p.kind.children) (hg : ∀ g' ∈ root.nodes, p ∈ g'.kind.children → g = some g') :
    isReferenced i p g = false := by
  obtain ⟨d, hd, top, htop, hleads⟩ := exists_declarer h hn hi
  have hids := (h.distinct.node hp).nodup_children
  obtain ⟨-, -, hobject⟩ := passesOn_of_mem_declaredTargets htop
  have hchild := declaredTargets_subset d htop
  rcases Relation.ReflTransGen.cases_tail hleads with rfl | ⟨j, hj, hij⟩
  · have hpd := h.distinct.parent_unique hp hd hip hchild
    subst hpd
    exact isReferenced_declaredTarget hids htop
  · have hjn := Node.Leads.mem_nodes hj (Node.mem_nodes_below hd hchild)
    have hpj := h.distinct.parent_unique hp hjn hip (j.passesOn_sublist.subset hij)
    subst hpj
    -- a member of an object pattern, since the way up goes on through the object around it
    refine isReferenced_passesOn hids hij fun hproperty => ?_
    have hobjects : ∀ q ∈ root.nodes, p ∈ q.kind.children → q.isObject = true := by
      intro q hq hpq
      rcases h.inside hq hpq with ⟨rfl, hitem⟩ | hinside
      · rw [Derives.isProperty (h.items p hitem) rfl] at hproperty
        cases hproperty
      · exact hinside.isObject hproperty
    rcases Relation.ReflTransGen.cases_tail hj with rfl | ⟨k, hk, hpk⟩
    · rw [hobjects d hd hchild] at hobject
      cases hobject
    · have hkn := Node.Leads.mem_nodes hk (Node.mem_nodes_below hd hchild)
      have hpk' := k.passesOn_sublist.subset hpk
      refine ⟨k, ?_⟩
      have hobject := hobjects k hkn hpk'
      unfold Node.isObject at hobject
      unfold Node.passesOn at hpk
      split at hobject
      · rename_i hk
        rw [hk] at hpk
        cases hpk
      · rename_i properties hk
        exact ⟨properties, hg k hkn hpk', hk⟩
      · cases hobject
/-- The uses of a node are the node itself where it is read, and what it writes. -/
theorem mem_usesOf {n : Node} {here : Surroundings} {u : Use} : u ∈ usesOf n here ↔
    (∃ name p, n.name? = some name ∧ here.parent = some p ∧ isRead n p here.grandparent = true ∧
      u = ⟨n.id, name, .read, here.chain, here.params⟩) ∨
    ∃ i ∈ writes n, ∃ name, i.name? = some name ∧
      u = ⟨i.id, name, .write, here.chain, here.params⟩ := by
  unfold usesOf
  simp only [List.mem_append, List.mem_filterMap, Option.map_eq_some_iff]
  constructor
  · rintro (h | ⟨i, hi, name, hname, rfl⟩)
    · split at h
      · rename_i hread
        rw [Option.mem_toList, Option.map_eq_some_iff] at h
        obtain ⟨name, hname, rfl⟩ := h
        rw [Option.any_eq_true] at hread
        obtain ⟨p, hp, hread⟩ := hread
        exact .inl ⟨name, p, hname, hp, hread, rfl⟩
      · cases h
    · exact .inr ⟨i, hi, name, hname, rfl⟩
  · rintro (⟨name, p, hname, hp, hread, rfl⟩ | ⟨i, hi, name, hname, rfl⟩)
    · left
      rw [hp, Option.any_some, hread, if_pos rfl, hname]
      exact List.mem_singleton_self _
    · exact .inr ⟨i, hi, name, hname, rfl⟩

theorem isReferenced_of_isRead {n p : Node} {g : Option Node} (h : isRead n p g = true) :
    isReferenced n p g = true := by
  unfold isRead at h
  split at h
  · cases h
  · exact h
  · cases h

/-- The identifiers whose names are declared are used nowhere. -/
theorem declared_not_used (h : ModuleTree root items) {n i : Node} (hn : n ∈ root.nodes)
    (hi : i ∈ declaredIdentifiers n) {next : Nat} {e : Step}
    (he : e ∈ root.steps ⟨none, none, [0], []⟩ next) : ∀ u ∈ e.uses, u.node ≠ i.id := by
  intro u hu hid
  obtain ⟨m, hm, there, next', rfl, hstands⟩ := exists_of_mem_steps he
  obtain ⟨d, hd, top, htop, hleads⟩ := exists_declarer h hn hi
  have hin : i ∈ root.nodes :=
    Node.Leads.mem_nodes hleads (Node.mem_nodes_below hd (declaredTargets_subset d htop))
  rcases mem_usesOf.mp hu with ⟨name, p, -, hp, hread, rfl⟩ | ⟨w, hw, name, -, rfl⟩
  · obtain rfl := h.distinct.eq_of_id hm hin hid
    have hfalse : isReferenced m p there.grandparent = false := by
      cases hstands with
      | root hm hp' => cases hp'.symm.trans hp
      | child hm hp' hg =>
        obtain rfl := Option.some.inj (hp'.symm.trans hp)
        refine declared_not_read h hn hi root.mem_nodes_self hm fun g' hg' hpg => ?_
        exact absurd hpg (Node.root_not_child hg')
      | below hg hpg hm hp' hgp =>
        obtain rfl := Option.some.inj (hp'.symm.trans hp)
        refine declared_not_read h hn hi (Node.mem_nodes_below hg hpg) hm fun g' hg' hpg' => ?_
        rw [hgp, h.distinct.parent_unique hg hg' hpg hpg']
    have hread' := isReferenced_of_isRead hread
    dsimp only at hread'
    rw [hfalse] at hread'
    cases hread'
  · obtain ⟨top', htop', hleads'⟩ := exists_writer h hm hw
    have hwn : w ∈ root.nodes := Node.Leads.mem_nodes hleads'
      (Node.mem_nodes_below hm (writtenTargets_subset m htop'))
    obtain rfl := h.distinct.eq_of_id hwn hin hid
    exact declared_not_written h hn hm hi hw

end

end EsModule.Scope
