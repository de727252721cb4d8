import EsModule.Proofs.Grammar.Item
import EsModule.Proofs.Tree.Fresh

/-!
# Below the items

The tree of a module is one program whose items stand where items may stand. What stands below an
item stands in some other place of the grammar, or is a bare name, or was taken out: so imports and
exports are found at the top only, and the members of objects only in objects.
-/

namespace EsModule.Syntax

namespace Node

/-- Whether a node is a member of an object or of an object pattern. -/
def isProperty (n : Node) : Bool :=
  match n.kind with
  | .property .. => true
  | _ => false

/-- Whether a node is an object or an object pattern. -/
def isObject (n : Node) : Bool :=
  match n.kind with
  | .objectExpression _ | .objectPattern _ => true
  | _ => false

/-- Whether a node can only be an item of a module, or the module itself. -/
def isTop (n : Node) : Bool :=
  match n.kind with
  | .program _ | .importDeclaration .. | .exportNamedDeclaration .. | .exportAllDeclaration ..
  | .exportDefaultDeclaration _ => true
  | _ => false

/-- Whether a node is one name of an import or an export. -/
def isSpecifier (n : Node) : Bool :=
  match n.kind with
  | .importSpecifier .. | .importDefaultSpecifier _ | .importNamespaceSpecifier _
  | .exportSpecifier .. => true
  | _ => false

end Node

/-- Whether what stands in a place is one name of an import or an export. -/
def Nonterminal.isSpecifier : Nonterminal → Bool
  | .importSpecifier | .exportSpecifier _ => true
  | _ => false

/-- Whether what stands in a place is a member of an object. -/
def Nonterminal.isMember : Nonterminal → Bool
  | .objectMember | .boundMember | .member _ => true
  | _ => false

/-- Where a node may stand below another one. -/
inductive Inside (above : Node) : Node → Prop where
  | derived {y nt n} (h : Derives y nt n) (hitem : nt ≠ .item)
      (hmember : nt.isMember = false ∨ above.isObject = true)
      (hspecifier : nt.isSpecifier = false ∨ above.isTop = true) : Inside above n
  | name {id span name} : Inside above (.mk id span (.identifier name))
  | removed {n} (h : n.isRemoved = true) : Inside above n

theorem Derives.inside {y : Bool} {nt : Nonterminal} {n : Node} (h : Derives y nt n) :
    ∀ c ∈ n.kind.children, Inside n c := by
  induction h
  all_goals try assumption
  all_goals
    simp only [Node.kind, Kind.children, Function.children, Class.children, List.mem_append,
      List.mem_cons, List.not_mem_nil, Option.mem_toList, or_false, List.mem_filterMap,
      id, exists_eq_right]
    intro c hc
    -- nothing here is arithmetic, and looking for its instances is slow
    grind -ring -linarith -lia -ac [Inside, Nonterminal.isMember, Nonterminal.isSpecifier,
      Node.isObject, Node.isTop, Node.kind]

theorem Node.kind_of_isRemoved {n : Node} (h : n.isRemoved = true) : n.kind = .removed := by
  unfold isRemoved at h
  split at h
  · assumption
  · cases h

theorem Inside.children {above n : Node} (h : Inside above n) :
    ∀ c ∈ n.kind.children, Inside n c := by
  cases h with
  | derived h => exact h.inside
  | name => exact fun c hc => absurd hc (by simp [Node.kind, Kind.children])
  | removed h => exact fun c hc => absurd hc (by simp [n.kind_of_isRemoved h, Kind.children])

theorem Derives.isTop {y : Bool} {nt : Nonterminal} {n : Node} (h : Derives y nt n) :
    nt ≠ .item → n.isTop = false := by
  induction h <;> first | exact fun _ => rfl | exact fun h => absurd rfl h | simp_all

theorem Inside.isTop {above n : Node} (h : Inside above n) : n.isTop = false := by
  cases h with
  | derived h hitem => exact h.isTop hitem
  | name => rfl
  | removed h => rw [Node.isTop, n.kind_of_isRemoved h]

theorem Derives.isProperty {y : Bool} {nt : Nonterminal} {n : Node} (h : Derives y nt n) :
    nt.isMember = false → n.isProperty = false := by
  induction h <;> first | exact fun _ => rfl | simp_all [Nonterminal.isMember]

/-- A member of an object stands in an object. -/
theorem Inside.isObject {above n : Node} (h : Inside above n) (hn : n.isProperty = true) :
    above.isObject = true := by
  cases h with
  | derived h hitem hmember =>
    refine hmember.resolve_left fun hm => ?_
    rw [h.isProperty hm] at hn
    cases hn
  | name => cases hn
  | removed h =>
    rw [Node.isProperty, n.kind_of_isRemoved h] at hn
    cases hn

theorem Derives.isSpecifier {y : Bool} {nt : Nonterminal} {n : Node} (h : Derives y nt n) :
    nt.isSpecifier = false → n.isSpecifier = false := by
  induction h <;> first | exact fun _ => rfl | simp_all [Nonterminal.isSpecifier]

/-- One name of an import or an export stands in an import or an export. -/
theorem Inside.isTop_above {above n : Node} (h : Inside above n) (hn : n.isSpecifier = true) :
    above.isTop = true := by
  cases h with
  | derived h hitem hmember hspecifier =>
    refine hspecifier.resolve_left fun hs => ?_
    rw [h.isSpecifier hs] at hn
    cases hn
  | name => cases hn
  | removed h =>
    rw [Node.isSpecifier, n.kind_of_isRemoved h] at hn
    cases hn

/-- Nothing of an import or an export stands below what is none. -/
theorem Inside.plain {above n : Node} (h : Inside above n) (hn : n.isSpecifier = false) :
    ∀ m ∈ n.nodes, m.isTop = false ∧ m.isSpecifier = false := by
  induction n using Node.induct generalizing above with
  | h n ih =>
    refine Node.forall_nodes ⟨h.isTop, hn⟩ fun c hc => ih c hc (h.children c hc) ?_
    by_contra hspecifier
    have htop := (h.children c hc).isTop_above (by simpa using hspecifier)
    rw [h.isTop] at htop
    cases htop

/-- What an item exports is none of the names that it lists. -/
theorem Derives.isSpecifier_exported {y : Bool} {item d : Node} (h : Derives y .item item)
    (hk : (∃ specifiers source, item.kind = .exportNamedDeclaration (some d) specifiers source) ∨
      item.kind = .exportDefaultDeclaration d) : d.isSpecifier = false := by
  have hstatement : ∀ {n}, Derives y .statement n → n.isTop = false := fun h => h.isTop nofun
  cases h with
  | exportVariables h | exportDeclaration h | exportDefaultDeclaration h | exportDefaultValue h =>
    obtain ⟨_, _, hk⟩ | hk := hk <;> cases hk
    exact h.isSpecifier rfl
  | statementItem h =>
    have htop := hstatement h
    unfold Node.isTop at htop
    obtain ⟨_, _, hk⟩ | hk := hk <;> rw [hk] at htop <;> cases htop
  | importItem | exportList | exportAll => obtain ⟨_, _, hk⟩ | hk := hk <;> cases hk

theorem inside_nodes {n : Node} (h : ∀ c ∈ n.kind.children, Inside n c) :
    ∀ p ∈ n.nodes, ∀ c ∈ p.kind.children, Inside p c := by
  induction n using Node.induct with
  | h n ih =>
    intro p hp
    rw [Node.nodes_eq, List.mem_cons, List.mem_flatMap] at hp
    rcases hp with rfl | ⟨c, hc, hp⟩
    · exact h
    · exact ih c hc (h c hc).children p hp

/-! ## The tree of a module -/

/-- Whether a tree is that of a module with some items. -/
structure ModuleTree (root : Node) (items : List Node) : Prop where
  /-- The root is a program. -/
  kind : root.kind = .program items
  /-- Its items stand where items may stand. -/
  items : ∀ n ∈ items, Derives false .item n
  /-- The nodes have different numbers. -/
  distinct : root.Distinct

theorem ModuleTree.of_parseTree {source : List Char} {root : Node}
    (h : parseTree source = .ok root) : ∃ items, ModuleTree root items := by
  obtain ⟨span, items, rfl, hitems, hids⟩ := parseTree_sound h
  exact ⟨items, rfl, hitems, hids⟩

namespace ModuleTree

variable {root : Node} {items : List Node}

theorem mem_nodes_item (h : ModuleTree root items) {n : Node} (hn : n ∈ items) :
    n ∈ root.nodes := by
  refine Node.mem_nodes_below root.mem_nodes_self ?_
  rw [h.kind]
  exact hn

/-- What stands below a node of a module is an item of the module, or stands where it may stand
below an item. -/
theorem inside (h : ModuleTree root items) {p c : Node} (hp : p ∈ root.nodes)
    (hc : c ∈ p.kind.children) : p = root ∧ c ∈ items ∨ Inside p c := by
  rw [Node.nodes_eq, List.mem_cons, List.mem_flatMap, h.kind] at hp
  rcases hp with rfl | ⟨n, hn, hp⟩
  · rw [h.kind] at hc
    exact .inl ⟨rfl, hc⟩
  · exact .inr (inside_nodes (h.items n hn).inside p hp c hc)

/-- Every node but the root is derived, or is a bare name, or was taken out. -/
theorem derives (h : ModuleTree root items) {n : Node} (hn : n ∈ root.nodes) :
    n = root ∨ (∃ y nt, Derives y nt n) ∨ n.name?.isSome = true ∨ n.isRemoved = true := by
  rcases Node.eq_root_or_child hn with rfl | ⟨p, hp, hc⟩
  · exact .inl rfl
  · refine .inr ?_
    rcases h.inside hp hc with ⟨-, hitem⟩ | hinside
    · exact .inl ⟨_, _, h.items n hitem⟩
    · cases hinside with
      | derived h => exact .inl ⟨_, _, h⟩
      | name => exact .inr (.inl rfl)
      | removed h => exact .inr (.inr h)

/-- What holds of derived nodes and of what need not be derived holds of all nodes. -/
theorem of_derives {P : Node → Prop} (h : ModuleTree root items)
    (hderives : ∀ y nt n, Derives y nt n → P n)
    (hother : ∀ n : Node, n.kind = .program items ∨ n.name?.isSome = true ∨ n.isRemoved = true →
      P n) {n : Node} (hn : n ∈ root.nodes) : P n := by
  rcases h.derives hn with rfl | ⟨y, nt, h⟩ | hother'
  · exact hother _ (.inl h.kind)
  · exact hderives y nt n h
  · exact hother n (.inr hother')

end ModuleTree

end EsModule.Syntax
