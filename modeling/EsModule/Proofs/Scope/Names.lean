import EsModule.Proofs.Scope.Bound
import EsModule.Proofs.Scope.Embedding

/-!
# The names of a node

What a node binds, declares and writes is told by the identifiers in some places below it. If these
are replaced by others with the same names, or are no names any longer, the node declares the same
names and writes those that are left: `Reshaped.declarations` and `Reshaped.writes`.
-/

namespace EsModule.Scope

open EsModule.Syntax

/-- The identifiers among some nodes, with their names. -/
def named (ns : List Node) : List (Nat × String) :=
  ns.filterMap fun n => n.name?.map fun x => (n.id, x)

theorem named_flatMap {α : Type} (as : List α) (f : α → List Node) :
    named (as.flatMap f) = as.flatMap fun a => named (f a) :=
  List.filterMap_flatMap

theorem mem_named {ns : List Node} {i : Nat} {x : String} :
    (i, x) ∈ named ns ↔ ∃ n ∈ ns, n.id = i ∧ n.name? = some x := by
  simp only [named, List.mem_filterMap, Option.map_eq_some_iff, Prod.mk.injEq]
  grind

theorem flatMap_congr_filter {α β : Type} {as : List α} {f g : α → List β} {test : β → Bool}
    (h : ∀ a ∈ as, f a = (g a).filter test) :
    as.flatMap f = (as.flatMap g).filter test := by
  induction as with
  | nil => rfl
  | cons a as ih =>
    rw [List.flatMap_cons, List.flatMap_cons, List.filter_append, h a List.mem_cons_self,
      ih fun b hb => h b (List.mem_cons_of_mem _ hb)]

/-- What stands in one of two lists that match has a match in the other. -/
theorem exists_match {α β : Type} {R : α → β → Prop} {as : List α} {bs : List β}
    (h : List.Forall₂ R as bs) {a : α} (ha : a ∈ as) : ∃ b ∈ bs, R a b := by
  induction h with
  | nil => cases ha
  | cons hab _ ih =>
    rcases List.mem_cons.mp ha with rfl | ha
    · exact ⟨_, List.mem_cons_self, hab⟩
    · obtain ⟨b, hb, hR⟩ := ih ha
      exact ⟨b, List.mem_cons_of_mem _ hb, hR⟩

/-- Whether the names of some nodes are those of others, without some of them. -/
def Thinned (gone : Nat → Bool) (ns ms : List Node) : Prop :=
  named ms = (named ns).filter fun q => !gone q.1

namespace Thinned

variable {gone : Nat → Bool}

theorem nil : Thinned gone [] [] := rfl

theorem flatMap {as : List Node} {f : Node → Node} {g : Node → List Node}
    (h : ∀ a ∈ as, Thinned gone (g a) (g (f a))) :
    Thinned gone (as.flatMap g) ((as.map f).flatMap g) := by
  unfold Thinned
  rw [List.flatMap_map, named_flatMap, named_flatMap]
  exact flatMap_congr_filter h

end Thinned

section

variable {gone : Nat → Bool}

/-- What a node binds as a target, by what its children bind. -/
def targetsOf (n : Node) : List Node :=
  match n.kind with
  | .identifier _ => [n]
  | .objectPattern members => members.flatMap (·.bound.member)
  | .arrayPattern elements => elements.flatMap fun e => e.elim [] (·.bound.target)
  | .restElement argument => argument.bound.target
  | .assignmentPattern left _ => left.bound.target
  | .variableDeclaration _ declarators => declarators.flatMap (·.bound.target)
  | .variableDeclarator target _ => target.bound.target
  | .functionDeclaration f => f.name.toList
  | .classDeclaration c => c.name.toList
  | _ => []

theorem target_eq (n : Node) : n.bound.target = targetsOf n := by
  rw [Node.bound_eq]
  obtain ⟨id, span, kind⟩ := n
  cases kind <;> simp [Bound.ofKind, Kind.map, targetsOf, Node.kind, Node.id, Node.span,
    List.flatMap_map, Function.map, Class.map, Function.comp_def]

theorem member_eq (n : Node) : n.bound.member =
    match n.kind with
    | .property _ value _ _ _ _ => value.bound.target
    | _ => n.bound.target := by
  rw [Node.bound_eq]
  obtain ⟨id, span, kind⟩ := n
  cases kind <;> rfl

theorem name?_of_targetsOf {n : Node} (h : n.name?.isSome = true) :
    n.bound.target = [n] ∧ n.bound.member = [n] := by
  have htarget : n.bound.target = [n] := boundIdentifiers_of_name? h
  refine ⟨htarget, ?_⟩
  rw [member_eq]
  unfold Node.name? at h
  split at h
  · rename_i hk
    rw [hk]
    exact htarget
  · cases h

theorem Thinned.holes {elements : List (Option Node)} {f : Node → Node}
    (h : ∀ n, some n ∈ elements → Thinned gone n.bound.target (f n).bound.target) :
    Thinned gone (elements.flatMap fun e => e.elim [] (·.bound.target))
      ((elements.map (·.map f)).flatMap fun e => e.elim [] (·.bound.target)) := by
  unfold Thinned
  rw [List.flatMap_map, named_flatMap, named_flatMap]
  refine flatMap_congr_filter fun e he => ?_
  cases e with
  | none => rfl
  | some n => exact h n he

theorem Thinned.option {o : Option Node} {f : Node → Node}
    (h : ∀ n, o = some n → Thinned gone [n] [f n]) :
    Thinned gone o.toList (o.map f).toList := by
  cases o with
  | none => rfl
  | some n => exact h n rfl

/-- A declaration binds what its children are or bind. -/
theorem exists_of_isDeclaring {n i : Node} (hd : n.isDeclaring = true) (hi : i ∈ n.bound.names) :
    ∃ c ∈ n.kind.children, i = c ∨ i ∈ c.bound.target := by
  rw [Bound.names, member_eq, target_eq] at hi
  unfold targetsOf at hi
  unfold Node.isDeclaring at hd
  generalize n.kind = kind at hd hi
  cases kind
  case variableDeclaration ds =>
    simp only [List.mem_append, or_self, List.mem_flatMap] at hi
    obtain ⟨d, hd, hi⟩ := hi
    exact ⟨d, hd, .inr hi⟩
  case variableDeclarator target init =>
    simp only [List.mem_append, or_self] at hi
    exact ⟨target, List.mem_cons_self, .inr hi⟩
  case functionDeclaration f =>
    simp only [List.mem_append, or_self, Option.mem_toList] at hi
    exact ⟨i, by simp [Kind.children, Function.children, Option.mem_def.mp hi], .inl rfl⟩
  case classDeclaration c =>
    simp only [List.mem_append, or_self, Option.mem_toList] at hi
    exact ⟨i, by simp [Kind.children, Class.children, Option.mem_def.mp hi], .inl rfl⟩
  all_goals cases hd

/-- What a node binds are nodes of its tree. -/
theorem mem_nodes_of_mem_names {n i : Node} (h : i ∈ n.bound.names) : i ∈ n.nodes := by
  induction n using Node.induct with
  | h n ih =>
    have hbelow : ∀ c ∈ n.kind.children, i ∈ c.bound.names → i ∈ n.nodes := fun c hc hi =>
      Node.mem_nodes_of_child hc (ih c hc hi)
    by_cases hd : n.isDeclaring = true
    · obtain ⟨c, hc, hi⟩ := exists_of_isDeclaring hd h
      rcases hi with rfl | hi
      · exact Node.mem_nodes_of_child hc i.mem_nodes_self
      · exact hbelow c hc (List.mem_append_left _ hi)
    · rcases Node.mem_names (by simpa using hd) h with rfl | ⟨c, hc, hi⟩
      · exact i.mem_nodes_self
      · exact hbelow c (n.passesOn_sublist.subset hc) hi

theorem mem_nodes_of_mem_boundIdentifiers {n i : Node} (h : i ∈ n.boundIdentifiers) : i ∈ n.nodes :=
  mem_nodes_of_mem_names (List.mem_append_left _ h)

/-- Names are used by the identifiers that spell them. -/
theorem exists_node_of_use {n : Node} {here : Surroundings} {next : Nat} {e : Step} {u : Use}
    (he : e ∈ n.steps here next) (hu : u ∈ e.uses) :
    ∃ i ∈ n.nodes, i.id = u.node ∧ i.name? = some u.name := by
  obtain ⟨m, hm, there, next', rfl, -⟩ := exists_of_mem_steps he
  rcases mem_usesOf.mp hu with ⟨name, p, hname, -, -, rfl⟩ | ⟨i, hi, name, hname, rfl⟩
  · exact ⟨m, hm, rfl, hname⟩
  · obtain ⟨top, htop, hi⟩ := mem_writes.mp hi
    have hin := Node.mem_nodes_below hm (writtenTargets_subset m htop)
    exact ⟨i, Node.mem_nodes_trans (mem_nodes_of_mem_boundIdentifiers hi) hin, rfl, hname⟩

/-! ## Declarations -/

variable {w : Embedding}

theorem declareAll_eq (place : Place) (kind : BindingKind) (n : Node) (ns : List Node) :
    declareAll place kind n ns = (named ns).map fun q => ⟨place, kind, q.2, n.id⟩ := by
  simp [declareAll, named, List.map_filterMap, Function.comp_def]

theorem paramNames_eq (params : List Node) : paramNames params =
    (named (params.flatMap (·.boundIdentifiers))).map fun q => ⟨.innermost, .param, q.2, q.1⟩ := by
  simp [paramNames, named, List.map_filterMap, Function.comp_def]

/-- Whether some names are those of identifiers that stay where they are. -/
def Kept (w : Embedding) (ns : List Node) : Prop :=
  ∀ i ∈ ns, i.name?.isSome = true → w.gone i.id = false ∧ w.moved i.id = i.id

theorem Thinned.named_eq {ns ms : List Node} (h : Thinned w.gone ns ms) (hk : Kept w ns) :
    named ms = named ns := by
  rw [h, List.filter_eq_self]
  rintro ⟨i, x⟩ hq
  obtain ⟨n, hn, rfl, hx⟩ := mem_named.mp hq
  simp [(hk n hn (by rw [hx]; rfl)).1]

theorem Thinned.declareAll {ns ms : List Node} (h : Thinned w.gone ns ms) (hk : Kept w ns)
    {n n' : Node} (hid : n'.id = w.moved n.id) (place : Place) (kind : BindingKind) :
    declareAll place kind n' ms = (declareAll place kind n ns).map w.declaration := by
  rw [declareAll_eq, declareAll_eq, h.named_eq hk, List.map_map, hid]
  rfl

theorem Thinned.paramNames {params params' : List Node}
    (h : Thinned w.gone (params.flatMap (·.boundIdentifiers))
      (params'.flatMap (·.boundIdentifiers)))
    (hk : Kept w (params.flatMap (·.boundIdentifiers))) :
    paramNames params' = (paramNames params).map w.declaration := by
  rw [paramNames_eq, paramNames_eq, h.named_eq hk, List.map_map]
  refine List.map_congr_left ?_
  rintro ⟨i, x⟩ hq
  obtain ⟨n, hn, rfl, hx⟩ := mem_named.mp hq
  simp [Embedding.declaration, (hk n hn (by rw [hx]; rfl)).2]

/-- Whether a node stands for another one, with the same names but the uses of imported ones. -/
structure Renamed (w : Embedding) (n n' : Node) : Prop where
  /-- It has the number of the other one, -/
  id : n'.id = n.id
  /-- which stays where it is. -/
  stay : w.moved n.id = n.id
  /-- If the other one is a name that is kept, it is that name. -/
  self : Thinned w.gone [n] [n']
  /-- It binds the same names. -/
  bound : Thinned w.gone n.boundIdentifiers n'.boundIdentifiers
  /-- It declares variables if the other one does. -/
  declaresVariables : isVariableDeclaration n' = isVariableDeclaration n

/-- Whether a node has the kind of another one over children that stand for those of the other. -/
structure Reshaped (w : Embedding) (f : Node → Node) (n n' : Node) : Prop where
  /-- The kind. -/
  kind : n'.kind = n.kind.map f
  /-- The number is that which the other one has in the embedding. -/
  id : n'.id = w.moved n.id
  /-- The children. -/
  children : ∀ c ∈ n.kind.children, Renamed w c (f c)

theorem kept_name {c : Node} (h : Kept w c.boundIdentifiers) : Kept w [c] := by
  intro i hi hname
  obtain rfl := List.mem_singleton.mp hi
  exact h i (by rw [boundIdentifiers_of_name? hname]; exact List.mem_singleton_self i) hname

theorem named_identifierOnly (n : Node) : named (identifierOnly n) = named [n] := by
  unfold identifierOnly
  split
  · rfl
  · rename_i h
    simp [named, Option.not_isSome_iff_eq_none.mp h]

namespace Reshaped

variable {f : Node → Node} {n n' : Node}

theorem paramNames (h : Reshaped w f n n') (ps : List Node) (hps : ∀ p ∈ ps, p ∈ n.kind.children)
    (hk : ∀ p ∈ ps, Kept w p.boundIdentifiers) :
    paramNames (ps.map f) = (paramNames ps).map w.declaration := by
  refine Thinned.paramNames (.flatMap (g := (·.boundIdentifiers)) fun p hp =>
    (h.children p (hps p hp)).bound) fun i hi => ?_
  obtain ⟨p, hp, hi⟩ := List.mem_flatMap.mp hi
  exact hk p hp i hi

theorem ownName (h : Reshaped w f n n') (name : Option Node)
    (hname : ∀ a, name = some a → a ∈ n.kind.children)
    (hk : ∀ a, name = some a → Kept w a.boundIdentifiers) (place : Place) (kind : BindingKind) :
    declareAll place kind n' (name.map f).toList =
      (declareAll place kind n name.toList).map w.declaration := by
  refine Thinned.declareAll (.option fun a ha => (h.children a (hname a ha)).self) ?_ h.id place
    kind
  intro a ha
  exact kept_name (hk a (Option.mem_toList.mp ha)) a (List.mem_singleton_self a)

theorem functionNames (h : Reshaped w f n n') (g : Function Node)
    (hchildren : g.params ++ g.name.toList ⊆ n.kind.children)
    (hk : ∀ c ∈ g.params ++ g.name.toList, Kept w c.boundIdentifiers) (place : Place)
    (kind : BindingKind) :
    Scope.paramNames (g.params.map f) ++ declareAll place kind n' (g.name.map f).toList =
      (Scope.paramNames g.params ++ declareAll place kind n g.name.toList).map w.declaration := by
  have hparams := h.paramNames g.params (fun p hp => hchildren (List.mem_append_left _ hp))
    fun p hp => hk p (List.mem_append_left _ hp)
  have hname := h.ownName g.name
    (fun a ha => hchildren (List.mem_append_right _ (Option.mem_toList.mpr ha)))
    (fun a ha => hk a (List.mem_append_right _ (Option.mem_toList.mpr ha))) place kind
  rw [List.map_append, hparams, hname]

/-- A node whose children were rewritten declares the same names. -/
theorem declarations (h : Reshaped w f n n') (htop : n.isTop = false)
    (hk : Kept w (declaredIdentifiers n))
    (hd : ∀ kind ds, n.kind = .variableDeclaration kind ds → ∀ d ∈ ds, Kept w d.boundIdentifiers) :
    declarations n' = (declarations n).map w.declaration := by
  have hkept : ∀ top ∈ declaredTargets n, declarers n = [n] → Kept w top.boundIdentifiers := by
    intro top htop hdeclarers i hi
    refine hk i ?_
    rw [declaredIdentifiers, hdeclarers, List.flatMap_singleton]
    exact List.mem_flatMap.mpr ⟨top, htop, hi⟩
  have hparams := h.paramNames
  have hname := h.ownName
  have hfunction := h.functionNames
  have hparts : ∀ g : Function Node, g.params ++ g.name.toList ⊆ g.children := by
    intro g c hc
    simp only [Function.children, List.mem_append] at hc ⊢
    exact .inl hc.symm
  obtain ⟨id', span', kind'⟩ := n'
  obtain ⟨id, span, kind⟩ := n
  obtain ⟨rfl, hid, hchildren⟩ := h
  cases kind
  case importDeclaration => cases htop
  case catchClause param body =>
    cases param with
    | none => rfl
    | some param =>
      exact Thinned.declareAll (hchildren param List.mem_cons_self).bound
        (hkept param (List.mem_singleton_self param) rfl) hid _ _
  case variableDeclaration kind ds =>
    change (ds.map f).flatMap _ = (ds.flatMap _).map w.declaration
    rw [List.flatMap_map, List.map_flatMap]
    refine List.flatMap_congr fun d hmem => ?_
    have hrenamed := hchildren d hmem
    exact hrenamed.bound.declareAll (hd kind ds rfl d hmem)
      (hrenamed.id.trans hrenamed.stay.symm) _ _
  case arrowFunction params body isExpression isAsync =>
    exact hparams params (fun p hp => List.mem_append_left _ hp) fun p hp => hkept p hp rfl
  case functionDeclaration g => exact hfunction g (hparts g) (fun c hc => hkept c hc rfl) _ _
  case functionExpression g => exact hfunction g (hparts g) (fun c hc => hkept c hc rfl) _ _
  case classDeclaration c =>
    exact hname c.name (fun a ha => List.mem_append_left _ (List.mem_append_left _
      (Option.mem_toList.mpr ha))) (fun a ha => hkept a (Option.mem_toList.mpr ha) rfl) _ _
  case classExpression c =>
    exact hname c.name (fun a ha => List.mem_append_left _ (List.mem_append_left _
      (Option.mem_toList.mpr ha))) (fun a ha => hkept a (Option.mem_toList.mpr ha) rfl) _ _
  all_goals rfl

/-- A node whose children were rewritten writes the same names, but for the imported ones. -/
theorem writes (h : Reshaped w f n n') : Thinned w.gone (writes n) (writes n') := by
  have hloop : ∀ left ∈ n.kind.children, Thinned w.gone
      (if isVariableDeclaration left then [] else left.boundIdentifiers)
      (if isVariableDeclaration (f left) then [] else (f left).boundIdentifiers) := by
    intro left hleft
    have hrenamed := h.children left hleft
    rw [hrenamed.declaresVariables]
    split
    · exact .nil
    · exact hrenamed.bound
  have honly : ∀ a ∈ n.kind.children, Thinned w.gone (identifierOnly a) (identifierOnly (f a)) := by
    intro a ha
    unfold Thinned
    rw [named_identifierOnly, named_identifierOnly]
    exact (h.children a ha).self
  obtain ⟨id', span', kind'⟩ := n'
  obtain ⟨id, span, kind⟩ := n
  obtain ⟨rfl, hid, hchildren⟩ := h
  cases kind
  case updateExpression => exact honly _ List.mem_cons_self
  case unaryExpression operator argument =>
    cases operator
    case delete => exact honly _ List.mem_cons_self
    all_goals exact .nil
  case assignmentExpression => exact (hchildren _ List.mem_cons_self).bound
  case forInStatement => exact hloop _ List.mem_cons_self
  case forOfStatement => exact hloop _ List.mem_cons_self
  all_goals exact .nil

end Reshaped

end

end EsModule.Scope
