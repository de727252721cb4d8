import EsModule.Proofs.Compile.Apply

/-!
# The tree without imports and exports

The nodes of the settled items have different numbers, since every number comes from the item, from
a form that one of its nodes takes, or from those given out for the item. So the table in which all
patches were made gives back a tree, and that is the program of the settled items (`Fits.apply_eq`).
-/

namespace EsModule.Compile

open EsModule.Syntax

variable {forms : List Form} {root : Node} {low high : Nat}

namespace Fits

/-! ## Numbers of the settled items -/

/-- Where a number below a settled item comes from. -/
inductive Origin (forms : List Form) (item : Node) (s i : Nat) : Prop where
  | old (h : i ∈ idsOf [item])
  | form {j} (hj : j ∈ idsOf [item]) (h : i ∈ idsOf (newsAt forms j))
  | given (hs : s ≤ i) (hlt : i < s + spent item)

theorem lt_of_mem_idsOf_all (h : Fits forms root low high) {ns : List Node}
    (hns : ∀ n ∈ ns, n ∈ root.nodes) {i : Nat} (hi : i ∈ idsOf ns) : i < low := by
  obtain ⟨n, hn, m, hm, rfl⟩ := mem_idsOf.mp hi
  exact h.old m (Node.mem_nodes_trans hm (hns n hn))

theorem grows_rewrite (h : Fits forms root low high) (hd : root.Distinct) {n : Node}
    (hn : n ∈ root.nodes) : Grows (fun j => idsOf (newsAt forms j)) [n] [rewrite forms n] :=
  h.grows hd ⟨fun _ _ hi => (h.newsAt_bounds hi).1, fun hjk hj hk => h.newsAt_disjoint hjk hj hk⟩ hn
    fun _ _ _ hi => hi

theorem origin_rewrite (h : Fits forms root low high) (hd : root.Distinct) {item n : Node}
    {s i : Nat} (hi : item ∈ root.nodes) (hn : n ∈ item.nodes) (hmem : i ∈ idsOf [rewrite forms n]) :
    Origin forms item s i := by
  have hsub : ∀ j ∈ idsOf [n], j ∈ idsOf [item] := by
    intro j hj
    obtain ⟨_, hn', m, hm, rfl⟩ := mem_idsOf.mp hj
    obtain rfl := List.mem_singleton.mp hn'
    exact mem_idsOf.mpr ⟨item, List.mem_singleton_self _, m, Node.mem_nodes_trans hm hn, rfl⟩
  rcases (h.grows_rewrite hd (Node.mem_nodes_trans hn hi)).mem i hmem with hmem | ⟨j, hj, hmem⟩
  · exact .old (hsub i hmem)
  · exact .form (hsub j hj) hmem

theorem idsOf_settledValue (forms : List Form) (value : Node) :
    idsOf [settledValue forms value] = idsOf [rewrite forms value] := by
  rw [idsOf_singleton, idsOf_singleton, children_settledValue, id_settledValue, id_rewrite]

/-- The numbers of a value that is held are neither given out for its item nor that of the item. -/
theorem lt_and_ne_of_held (h : Fits forms root low high) (hd : root.Distinct) {item value : Node}
    {s : Nat} (hi : item ∈ root.nodes) (hv : value ∈ item.kind.children) (hlow : low ≤ s)
    (hhigh : high ≤ s) {i : Nat} (hmem : i ∈ idsOf [rewrite forms value]) : i < s ∧ i ≠ item.id := by
  have hvn : value ∈ item.nodes := Node.mem_nodes_of_child hv value.mem_nodes_self
  have hvr := Node.mem_nodes_below hi hv
  obtain ⟨_, hn', m, hm, rfl⟩ := mem_idsOf.mp hmem
  obtain rfl := List.mem_singleton.mp hn'
  constructor
  · rcases h.id_of_mem_rewrite hd hvr hm with hold | hnew
    · have := h.lt_of_mem_idsOf hvr hold
      omega
    · omega
  · rw [Node.nodes_eq, List.mem_cons, List.mem_flatMap] at hm
    rcases hm with rfl | ⟨c, hc, hm⟩
    · rw [id_rewrite]
      intro he
      obtain rfl := hd.eq_of_id hvr hi he
      exact absurd hv (Node.root_not_child value.mem_nodes_self)
    · exact h.ne_below hd hvr hvn hi hc hm

theorem idsOf_settle (h : Fits forms root low high) (hd : root.Distinct) {item : Node} {s : Nat}
    (hi : item ∈ root.nodes) (hlow : low ≤ s) (hhigh : high ≤ s) :
    (idsOf [settle forms item s]).Nodup ∧
      ∀ i ∈ idsOf [settle forms item s], Origin forms item s i := by
  have hself : Origin forms item s item.id := .old (id_mem_idsOf item)
  have hlt := h.old item hi
  unfold settle
  cases ht : treatment item with
  | kept =>
    exact ⟨(h.grows_rewrite hd hi).nodup, fun i hmem =>
      h.origin_rewrite hd hi item.mem_nodes_self hmem⟩
  | removed =>
    rw [idsOf_leaf rfl]
    refine ⟨List.nodup_singleton _, fun i hmem => ?_⟩
    obtain rfl := List.mem_singleton.mp hmem
    exact hself
  | unwrapped d =>
    have hdi := unwrapped_mem_children ht
    have hdn : d ∈ item.nodes := Node.mem_nodes_of_child hdi d.mem_nodes_self
    have hdr := Node.mem_nodes_below hi hdi
    have hnodup := (h.grows_rewrite hd hdr).nodup
    have horigin := fun i => h.origin_rewrite (s := s) (i := i) hd hi hdn
    rw [idsOf_singleton, List.nodup_cons] at hnodup
    simp only [idsOf_singleton, List.mem_cons] at horigin ⊢
    refine ⟨List.nodup_cons.mpr ⟨fun hmem => ?_, hnodup.2⟩, ?_⟩
    · obtain ⟨c, hc, m, hm, hid⟩ := mem_idsOf.mp hmem
      exact h.ne_below hd hdr hdn hi hc hm hid
    · rintro i (rfl | hmem)
      · exact hself
      · exact horigin i (.inr hmem)
  | held value =>
    have hvi := held_mem_children ht
    have hvn : value ∈ item.nodes := Node.mem_nodes_of_child hvi value.mem_nodes_self
    have hvr := Node.mem_nodes_below hi hvi
    have hspent : spent item = 2 := by rw [spent, ht]
    have hids : idsOf [Node.mk item.id item.span (holderKind s (settledValue forms value))] =
        item.id :: (s + 1) :: s :: idsOf [rewrite forms value] := by
      rw [idsOf_singleton]
      change item.id :: idsOf (holderKind s (settledValue forms value)).children = _
      rw [idsOf_holderKind, idsOf_settledValue]
    have hbelow := fun i => h.lt_and_ne_of_held (i := i) hd hi hvi hlow hhigh
    rw [hids]
    constructor
    · simp only [List.nodup_cons, List.mem_cons, not_or]
      refine ⟨⟨by omega, by omega, fun hmem => (hbelow _ hmem).2 rfl⟩, ⟨by omega, fun hmem => ?_⟩,
        fun hmem => ?_, (h.grows_rewrite hd hvr).nodup⟩
      · have := (hbelow _ hmem).1
        omega
      · have := (hbelow _ hmem).1
        omega
    · simp only [List.mem_cons]
      rintro i (rfl | rfl | rfl | hmem)
      · exact hself
      · exact .given (by omega) (by omega)
      · exact .given (by omega) (by omega)
      · exact h.origin_rewrite hd hi hvn hmem

/-! ## All items -/

theorem idsOf_settleAll (h : Fits forms root low high) (hd : root.Distinct) {items : List Node}
    {s : Nat} (hi : ∀ item ∈ items, item ∈ root.nodes) (hnodup : (idsOf items).Nodup)
    (hlow : low ≤ s) (hhigh : high ≤ s) : (idsOf (settleAll forms items s)).Nodup ∧
      ∀ i ∈ idsOf (settleAll forms items s), i ∈ idsOf items ∨
        (∃ j ∈ idsOf items, i ∈ idsOf (newsAt forms j)) ∨ s ≤ i ∧ i < s + spentAll items := by
  induction items generalizing s with
  | nil => exact ⟨List.nodup_nil, nofun⟩
  | cons item items ih =>
    have hitem := hi item List.mem_cons_self
    have hsum : spentAll (item :: items) = spent item + spentAll items := rfl
    rw [idsOf_cons, List.nodup_append] at hnodup
    obtain ⟨hnodupItem, horigin⟩ := h.idsOf_settle hd hitem hlow hhigh
    obtain ⟨hnodupRest, hrest⟩ := ih (s := s + spent item)
      (fun item hmem => hi item (List.mem_cons_of_mem _ hmem)) hnodup.2.1 (by omega) (by omega)
    have hltItem := fun i (hmem : i ∈ idsOf [item]) => h.lt_of_mem_idsOf hitem hmem
    have hltRest := fun i (hmem : i ∈ idsOf items) =>
      h.lt_of_mem_idsOf_all (fun n hn => hi n (List.mem_cons_of_mem _ hn)) hmem
    rw [settleAll, idsOf_cons (settle forms item s), hsum, List.nodup_append, idsOf_cons item items]
    refine ⟨⟨hnodupItem, hnodupRest, fun i hmem j hmem' hij => ?_⟩, fun i hmem => ?_⟩
    · subst hij
      rcases horigin i hmem with ho | ⟨hj, ho⟩ | ⟨ho, ho'⟩ <;>
        rcases hrest i hmem' with hr | ⟨k, hk, hr⟩ | hr
      · exact hnodup.2.2 i ho i hr rfl
      · have := hltItem i ho
        have := h.newsAt_bounds hr
        omega
      · have := hltItem i ho
        omega
      · have := hltRest i hr
        have := h.newsAt_bounds ho
        omega
      · exact h.newsAt_disjoint (fun he => hnodup.2.2 _ hj k hk he) ho hr
      · have := h.newsAt_bounds ho
        omega
      · have := hltRest i hr
        omega
      · have := h.newsAt_bounds hr
        omega
      · omega
    · rcases List.mem_append.mp hmem with hmem | hmem
      · rcases horigin i hmem with ho | ⟨hj, ho⟩ | ⟨ho, ho'⟩
        · exact .inl (List.mem_append_left _ ho)
        · exact .inr (.inl ⟨_, List.mem_append_left _ hj, ho⟩)
        · exact .inr (.inr (by omega))
      · rcases hrest i hmem with hr | ⟨k, hk, hr⟩ | hr
        · exact .inl (List.mem_append_right _ hr)
        · exact .inr (.inl ⟨k, List.mem_append_right _ hk, hr⟩)
        · exact .inr (.inr (by omega))

end Fits

@[simp] theorem id_settle (forms : List Form) (item : Node) (s : Nat) :
    (settle forms item s).id = item.id := by
  unfold settle
  cases treatment item with
  | kept => exact id_rewrite item
  | _ => rfl

theorem map_id_settleAll (forms : List Form) (items : List Node) (s : Nat) :
    (settleAll forms items s).map Node.id = items.map Node.id := by
  induction items generalizing s with
  | nil => rfl
  | cons item items ih => rw [settleAll, List.map_cons, ih, id_settle, List.map_cons]

/-- A settled item is that of an item, with the number that the items in front of it leave. -/
theorem exists_of_mem_settleAll {forms : List Form} {items : List Node} {s : Nat} {n : Node}
    (h : n ∈ settleAll forms items s) :
    ∃ as item bs, items = as ++ item :: bs ∧ n = settle forms item (s + spentAll as) := by
  induction items generalizing s with
  | nil => cases h
  | cons item items ih =>
    rcases List.mem_cons.mp h with rfl | h
    · exact ⟨[], item, items, rfl, rfl⟩
    · obtain ⟨as, item', bs, rfl, rfl⟩ := ih h
      exact ⟨item :: as, item', bs, rfl, by rw [Nat.add_assoc]; rfl⟩

/-- For what belongs to an item or to none only the patches for the item matter. -/
theorem agree_settled {as bs : List Node} {item : Node} {s : Nat} {t : NodeTable}
    (hnodup : (idsOf (as ++ item :: bs)).Nodup) (hlt : ∀ i ∈ idsOf (as ++ item :: bs), i < s) :
    Agree (fun i => Region item (s + spentAll as) i ∨ i ∉ idsOf (as ++ item :: bs) ∧ i < s)
      ((laterPatches (as ++ item :: bs) s).foldl Patch.apply t)
      (((patchesOf item (s + spentAll as)).map (·.2)).foldl Patch.apply t) := by
  have hout : Agree (fun i => i ∉ idsOf (as ++ item :: bs) ∧ i < s)
      (((patchesOf item (s + spentAll as)).map (·.2)).foldl Patch.apply t) t := by
    refine agree_foldl_of_outside fun p hp j hj hj' => ?_
    obtain ⟨staged, hstaged, rfl⟩ := List.mem_map.mp hp
    rcases region_of_patchesOf hstaged hj with hj | hj
    · refine hj'.1 ?_
      rw [idsOf_append, idsOf_cons]
      exact List.mem_append_right _ (List.mem_append_left _ hj)
    · omega
  rintro i (hregion | hi)
  · exact agree_laterPatches hnodup hlt i hregion
  · exact (agree_outside i hi).trans (hout i hi).symm

namespace Fits

variable {items : List Node}

theorem distinct_settleAll (h : Fits forms root low high) (hd : root.Distinct)
    (hk : root.kind = .program items) {s : Nat} (hs : high ≤ s) :
    (root.withKind (.program (settleAll forms items s))).Distinct := by
  have hlow : low ≤ s := Nat.le_trans h.news.le hs
  have hi : ∀ item ∈ items, item ∈ root.nodes := fun item hitem =>
    Node.mem_nodes_below root.mem_nodes_self (by rw [hk]; exact hitem)
  have hroot : (idsOf [root]).Nodup := by
    rw [idsOf_eq]
    exact hd
  rw [idsOf_singleton, hk, List.nodup_cons] at hroot
  obtain ⟨hnodup, horigin⟩ := h.idsOf_settleAll hd hi hroot.2 hlow hs
  have hlt := h.old root root.mem_nodes_self
  unfold Node.Distinct
  rw [← idsOf_eq, idsOf_singleton]
  refine List.nodup_cons.mpr ⟨fun hmem => ?_, hnodup⟩
  rcases horigin _ hmem with ho | ⟨j, -, ho⟩ | ho
  · exact hroot.1 ho
  · have := h.newsAt_bounds ho
    change low ≤ root.id ∧ root.id < high at this
    omega
  · change s ≤ root.id ∧ _ at ho
    omega

/-- When all forms have been taken, each item can be settled. -/
theorem ready (h : Fits forms root low high) {t : NodeTable} (ht : Taken forms root t)
    {item : Node} (hi : item ∈ root.nodes) {s : Nat} (hlow : low ≤ s) (hhigh : high ≤ s) :
    Ready forms item s t where
  old n hn := by
    have hheld := ht.old n (Node.mem_nodes_trans hn hi)
    have hid : (rewrite forms n).id = n.id := id_rewrite n
    rwa [← hid] at hheld
  news := ht.news
  none i hle _ := by
    refine ht.none i (fun hmem => ?_) fun hmem => ?_
    · have := h.lt_of_mem_idsOf root.mem_nodes_self hmem
      omega
    · have := (h.news.mem i hmem).2
      omega

/-- The numbers below a settled item are in its region, or they belong to no item. -/
theorem region_of_mem_settle (h : Fits forms root low high) (hd : root.Distinct)
    {as bs : List Node} {item : Node} {s i : Nat}
    (hall : ∀ n ∈ as ++ item :: bs, n ∈ root.nodes) (hlow : low ≤ s) (hhigh : high ≤ s)
    (hmem : i ∈ idsOf [settle forms item (s + spentAll as)]) :
    Region item (s + spentAll as) i ∨ i ∉ idsOf (as ++ item :: bs) ∧ i < s := by
  have hitem := hall item (by simp)
  rcases (h.idsOf_settle hd hitem (s := s + spentAll as) (by omega) (by omega)).2 i hmem with
    ho | ⟨-, ho⟩ | ⟨ho, ho'⟩
  · exact .inl (.inl ho)
  · have hbounds := h.newsAt_bounds ho
    refine .inr ⟨fun hold => ?_, by omega⟩
    have := h.lt_of_mem_idsOf_all hall hold
    omega
  · exact .inl (.inr ⟨ho, ho'⟩)

/-- The patches of a module make the program of its settled items. -/
theorem apply_eq (h : Fits forms root low high) (hd : root.Distinct)
    (hk : root.kind = .program items) (hnone : formAt? forms root.id = none) {s : Nat}
    (hs : high ≤ s) :
    ((forms.map Form.patch ++ laterPatches items s).foldl Patch.apply (.ofTree root)).tree root.id =
      root.withKind (.program (settleAll forms items s)) := by
  have hlow : low ≤ s := Nat.le_trans h.news.le hs
  have hi : ∀ item ∈ items, item ∈ root.nodes := fun item hitem =>
    Node.mem_nodes_below root.mem_nodes_self (by rw [hk]; exact hitem)
  have hroot : (idsOf [root]).Nodup := by
    rw [idsOf_eq]
    exact hd
  rw [idsOf_singleton, hk, List.nodup_cons] at hroot
  have hltItems := fun i (hmem : i ∈ idsOf items) =>
    Nat.lt_of_lt_of_le (h.lt_of_mem_idsOf_all hi hmem) hlow
  have htaken := h.taken hd
  have htable : (forms.map Form.patch ++ laterPatches items s).foldl Patch.apply (.ofTree root) =
      (laterPatches items s).foldl Patch.apply (takeForms (.ofTree root) forms) := by
    rw [List.foldl_append, takeForms, List.foldl_map]
  rw [htable]
  generalize takeForms (.ofTree root) forms = t at htaken
  refine NodeTable.tree_eq
    (h.distinct_settleAll hd hk hs) fun m hm => ?_
  rw [Node.nodes_eq, List.mem_cons, List.mem_flatMap] at hm
  rcases hm with rfl | ⟨n, hn, hm⟩
  · -- the program itself belongs to no item
    have hheld := htaken.old root root.mem_nodes_self
    rw [entry_rewrite, kindAt, hnone, Option.map_none, Option.getD_none, hk] at hheld
    have hlt := h.old root root.mem_nodes_self
    refine (agree_outside root.id ⟨hroot.1, by omega⟩).trans (hheld.trans ?_)
    unfold Node.entry Node.withKind
    simp only [Node.span, Node.kind, Kind.map, map_id_settleAll]
  · obtain ⟨as, item, bs, rfl, rfl⟩ := exists_of_mem_settleAll hn
    have hitem := hi item (by simp)
    have hready := h.ready htaken hitem (s := s + spentAll as) (by omega) (by omega)
    have hown := h.holds_settle hd hitem (by omega) hready m hm
    have hregion := h.region_of_mem_settle hd hi hlow hs
      (mem_idsOf.mpr ⟨_, List.mem_singleton_self _, m, hm, rfl⟩)
    exact (agree_settled hroot.2 hltItems m.id hregion).trans hown

end Fits

end EsModule.Compile
