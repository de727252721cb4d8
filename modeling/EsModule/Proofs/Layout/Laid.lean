import EsModule.Proofs.Layout.Fits

/-!
# Nodes laid out one behind the other

A state is `Placed` if its token stands in the source where its places say. What rules read between
two states is `Laid`: some token was moved over, and the trees that were made sit in the source
behind the start of the first token and in front of the end of the last one. A new node takes the
trees in between as its children and covers all of it (`Laid.node`). Two kinds of nodes are made in
another way: names, which cover one token, and properties that are written as one name.
-/

namespace EsModule.Syntax

open EsModule.Text

/-! ## Tokens in the source -/

/-- Whether a token of this kind may have been read a second time, by another rule. -/
def TokenKind.isReread : TokenKind → Bool
  | .regExp .. | .template .. | .invalid _ => true
  | _ => false

theorem tokenHere_moves (c : Cursor) : ∃ w, c.Moves w (tokenHere c).2 := by
  by_cases h : (tokenHere c).1 = .eof
  · obtain ⟨-, hc⟩ := tokenHere_eof (Prod.ext h rfl)
    exact ⟨[], by rw [show (tokenHere c).2 = c from hc]; exact .refl c⟩
  · obtain ⟨w, -, hm, -⟩ := tokenHere_again rfl h
    exact ⟨w, hm⟩

/-- A name or a word is named by its text. -/
theorem nameOrWord_eq (first : Char) (c : Cursor) :
    (nameOrWord first c).1.name? = some (String.ofList (first :: (c.takeWhile isIdContinue).1)) ∧
      (nameOrWord first c).2 = (c.takeWhile isIdContinue).2 := by
  unfold nameOrWord
  dsimp only
  split
  · rename_i word hword
    exact ⟨congrArg some (Keyword.text_ofText? hword), rfl⟩
  · exact ⟨rfl, rfl⟩

/-- A token that can stand where any name can is the text of the name. -/
theorem tokenHere_name {c c' : Cursor} {k : TokenKind} {name : String}
    (h : tokenHere c = (k, c')) (hk : k.name? = some name) : c.Moves name.toList c' := by
  obtain ⟨first, cs, hc, hby⟩ := tokenHere_by h (by rintro rfl; cases hk)
  have hread : nameOrWord first c.advance = (k, c') := by
    cases hby with
    | keyword _ h | identifier _ h => exact h
    | _ => cases hk
  obtain ⟨hname, hbehind⟩ := nameOrWord_eq first c.advance
  rw [hread] at hname hbehind
  have htext : name = String.ofList (first :: (c.advance.takeWhile isIdContinue).1) :=
    Option.some.inj (hk.symm.trans hname)
  rw [htext, String.toList_ofList, show c' = _ from hbehind]
  exact (Cursor.moves_advance hc).trans (c.advance.moves_takeWhile isIdContinue)

/-- Says that the places of a state are places of the source. -/
structure State.Placed (source : List Char) (s : State) : Prop where
  /-- The token before ends at a place of the source. -/
  before : s.before.At source
  /-- Some text stands between the start of the token and the place behind it. -/
  token : ∃ w, (skipTrivia s.before).2.Moves w s.behind
  /-- The span of the token says so. -/
  span : s.current.span = ⟨(skipTrivia s.before).2.pos, s.behind.pos⟩
  /-- The token is what is read there, unless it was read again. -/
  normal : s.current.kind.isReread = false → s.Normal
  /-- The token before ends in front of all this. -/
  previous : s.previous.stop ≤ s.before.pos

namespace State

variable {source : List Char} {s : State}

theorem nextToken_span (c : Cursor) :
    (nextToken c).1.span = ⟨(skipTrivia c).2.pos, (nextToken c).2.pos⟩ := by
  rw [nextToken_eq]

theorem placed_of_normal (hb : s.before.At source) (hn : s.Normal)
    (hp : s.previous.stop ≤ s.before.pos) : s.Placed source := by
  have hcurrent : s.current = (nextToken s.before).1 := by rw [hn]
  have hbehind : s.behind = (nextToken s.before).2 := by rw [hn]
  refine ⟨hb, ?_, ?_, fun _ => hn, hp⟩
  · rw [hbehind, nextToken_eq]
    exact tokenHere_moves _
  · rw [hcurrent, hbehind]
    exact nextToken_span _

namespace Placed

theorem start_at (h : s.Placed source) : (skipTrivia s.before).2.At source := by
  obtain ⟨w, hm, -⟩ := skipTrivia_moves s.before
  exact at_of_moves h.before hm

theorem behind_at (h : s.Placed source) : s.behind.At source := by
  obtain ⟨w, hm⟩ := h.token
  exact at_of_moves h.start_at hm

theorem next (h : s.Placed source) : s.next.Placed source := by
  refine placed_of_normal h.behind_at s.normal_next ?_
  show s.current.span.stop ≤ s.behind.pos
  exact Nat.le_of_eq (congrArg Span.stop h.span)

theorem counted (h : s.Placed source) : s.counted.Placed source :=
  ⟨h.before, h.token, h.span, h.normal, h.previous⟩

theorem start_eq (h : s.Placed source) : s.current.span.start = (skipTrivia s.before).2.pos :=
  congrArg Span.start h.span

theorem start_le_stop (h : s.Placed source) : s.current.span.start ≤ s.current.span.stop := by
  obtain ⟨w, hm⟩ := h.token
  rw [h.span, hm.pos]
  exact Nat.le_add_right _ _

theorem previous_le (h : s.Placed source) : s.previous.stop ≤ s.current.span.start := by
  obtain ⟨w, hm, -⟩ := skipTrivia_moves s.before
  have hprev := h.previous
  have hpos := hm.pos
  rw [h.span]
  show s.previous.stop ≤ (skipTrivia s.before).2.pos
  omega

theorem boundary_start (h : s.Placed source) : Boundary source s.current.span.start := by
  rw [h.span]
  exact boundary_of_at h.start_at

/-- A token that can stand where any name can covers the text of the name. -/
theorem spelled (h : s.Placed source) {name : String}
    (hk : s.current.kind.name? = some name) : s.current.span.Covers source name.toList := by
  have hnormal := h.normal (by cases hc : s.current.kind <;> simp_all [TokenKind.name?, TokenKind.isReread])
  rw [h.span]
  exact covers_of_moves h.start_at (tokenHere_name hnormal.tokenHere.1 hk)

end Placed

/-- Says that a state is placed, and that no rule has read its token a second time. -/
structure Ready (source : List Char) (s : State) : Prop extends s.Placed source where
  /-- The token is what is read there. -/
  read : s.Normal

theorem Ready.next (h : s.Ready source) : s.next.Ready source := ⟨h.toPlaced.next, s.normal_next⟩

theorem Ready.counted (h : s.Ready source) : s.counted.Ready source :=
  ⟨h.toPlaced.counted, h.read⟩

end State

/-! ## Between two states -/

/-- Between two states tokens may have been moved over, but no tree was made. -/
structure Begun (source : List Char) (s s' : State) : Prop where
  /-- The second state is ready. -/
  placed : s'.Ready source
  /-- The first token starts between characters. -/
  boundary : Boundary source s.current.span.start
  /-- The states follow each other in the source. -/
  le : s.current.span.start ≤ s'.current.span.start
  /-- Numbers were only given out. -/
  nextId_le : s.nextId ≤ s'.nextId

/-- Between two states at least one token was moved over, and the trees `ns` were made. -/
structure Laid (source : List Char) (s s' : State) (ns : List Node) : Prop
    extends Begun source s s' where
  /-- The last token ends behind the start of the first. -/
  reached : s.current.span.start ≤ s'.previous.stop
  /-- The next one is looked for where the last one ends. -/
  touches : s'.previous.stop = s'.before.pos
  /-- The trees stand in between, one behind the other. -/
  ordered : InOrder s.current.span.start s'.previous.stop (ns.map Node.span)
  /-- They sit in the source. -/
  sits : ∀ n ∈ ns, n.Sits source s'.nextId

namespace Begun

variable {source : List Char} {s s' s'' : State} {ns : List Node}

theorem refl (h : s.Ready source) : Begun source s s :=
  ⟨h, h.boundary_start, Nat.le_refl _, Nat.le_refl _⟩

theorem trans (h : Begun source s s') (h' : Begun source s' s'') : Begun source s s'' :=
  ⟨h'.placed, h.boundary, Nat.le_trans h.le h'.le, Nat.le_trans h.nextId_le h'.nextId_le⟩

/-- The token is moved over, be it as it was read a second time. -/
theorem movesOver (h : Begun source s s') {t : State} (ht : t.Placed source)
    (hstart : t.current.span.start = s'.current.span.start) (hid : t.nextId = s'.nextId) :
    Laid source s t.next [] := by
  have hreached : s.current.span.start ≤ t.next.previous.stop :=
    Nat.le_trans (hstart ▸ h.le) ht.start_le_stop
  have hle := Nat.le_trans hreached ht.next.previous_le
  exact ⟨⟨⟨ht.next, t.normal_next⟩, h.boundary, hle, hid ▸ h.nextId_le⟩, hreached,
    congrArg Span.stop ht.span, .nil, nofun⟩

theorem next (h : Begun source s s') : Laid source s s'.next [] :=
  h.movesOver h.placed.toPlaced rfl rfl

theorem laid (h : Begun source s s') (h' : Laid source s' s'' ns) : Laid source s s'' ns :=
  ⟨h.trans h'.toBegun, Nat.le_trans h.le h'.reached, h'.touches,
    h'.ordered.widen h.le (Nat.le_refl _), h'.sits⟩

end Begun

/-- Whether a node of this kind covers its children one behind the other, and does not say what its
text is. -/
def Kind.isPlain {α : Type} : Kind α → Bool
  | .exportSpecifier .. => false
  | k => !k.isShorthand && !k.isText

theorem Kind.isText_of_isPlain {α : Type} {k : Kind α} (h : k.isPlain = true) :
    k.isText = false := by
  unfold isPlain at h
  split at h
  · cases h
  · rw [Bool.and_eq_true, Bool.not_eq_true'] at h
    simpa using h.2

namespace Laid

variable {source : List Char} {s s' s'' : State} {ns ms : List Node}

/-- More tokens are moved over, and nothing else is made. -/
theorem grow (h : Laid source s s' ns) (h' : Laid source s' s'' []) : Laid source s s'' ns := by
  have hreached := Nat.le_trans h.placed.previous_le h'.reached
  refine ⟨h.toBegun.trans h'.toBegun, Nat.le_trans h.reached hreached, h'.touches, ?_, ?_⟩
  · exact h.ordered.widen (Nat.le_refl _) hreached
  · exact fun n hn => (h.sits n hn).mono h'.nextId_le

theorem next (h : Laid source s s' ns) : Laid source s s'.next ns :=
  h.grow (Begun.refl h.placed).next

theorem append (h : Laid source s s' ns) (h' : Laid source s' s'' ms) :
    Laid source s s'' (ns ++ ms) := by
  have hle := h.placed.previous_le
  have hreached := Nat.le_trans hle h'.reached
  refine ⟨h.toBegun.trans h'.toBegun, Nat.le_trans h.reached hreached, h'.touches, ?_, ?_⟩
  · rw [List.map_append]
    exact h.ordered.append (h'.ordered.widen hle (Nat.le_refl _)) h.reached hreached
  · intro n hn
    cases List.mem_append.mp hn with
    | inl hn => exact (h.sits n hn).mono h'.nextId_le
    | inr hn => exact h'.sits n hn

theorem sublist (h : Laid source s s' ns) (hs : ms.Sublist ns) : Laid source s s' ms :=
  ⟨h.toBegun, h.reached, h.touches, h.ordered.sublist (hs.map _), fun n hn => h.sits n (hs.subset hn)⟩

theorem of_eq (h : Laid source s s' ns) (he : ms = ns) : Laid source s s' ms := he ▸ h

theorem counted (h : Laid source s s' ns) : Laid source s s'.counted ns :=
  ⟨⟨h.placed.counted, h.boundary, h.le, Nat.le_succ_of_le h.nextId_le⟩, h.reached, h.touches,
    h.ordered, fun n hn => (h.sits n hn).mono (Nat.le_succ _)⟩

/-- Trees that were read again stand where they stood. -/
theorem recast (h : Laid source s s' ns) (hr : List.Forall₂ Node.Recast ns ms) :
    Laid source s s' ms := by
  refine ⟨h.toBegun, h.reached, h.touches, (Node.Recast.spans hr).symm ▸ h.ordered, ?_⟩
  intro m hm
  obtain ⟨n, hn, hnm⟩ := Node.Recast.exists_of_mem hr hm
  exact hnm.sits (h.sits n hn)

/-- The span from the first token to the last. -/
def whole (s s' : State) : Span := ⟨s.current.span.start, s'.previous.stop⟩

theorem boundary_stop (h : Laid source s s' ns) : Boundary source s'.previous.stop :=
  h.touches ▸ boundary_of_at h.placed.before

/-- A new node from the first token to the last. -/
theorem made (h : Laid source s s' ns) {n : Node} (hspan : n.span = whole s s')
    (hn : n.Sits source (s'.nextId + 1)) : Laid source s s'.counted [n] := by
  refine ⟨(h.counted).toBegun, h.reached, h.touches, ?_, ?_⟩
  · rw [List.map_singleton, hspan]
    exact .single (Nat.le_refl _) h.reached (Nat.le_refl _)
  · intro m hm
    rw [List.mem_singleton.mp hm]
    exact hn

/-- A new node takes over the trees that were made as its children. If it says what its text is, it
has that text. -/
theorem worded (h : Laid source s s' ns) {k : Kind Node} (hk : k.children = ns)
    (hs : (Node.mk s'.nextId (whole s s') k).Spelled source)
    (hv : (Node.mk s'.nextId (whole s s') k).Verbatim source) :
    Laid source s s'.counted [.mk s'.nextId (whole s s') k] := by
  subst hk
  refine h.made rfl (.of_children ⟨h.boundary, h.boundary_stop, h.reached, ?_, ?_, ?_⟩ hs hv
    (Nat.lt_succ_self _) h.sits)
  · intro c hc
    obtain ⟨h1, -, h2⟩ := h.ordered.inside _ (List.mem_map_of_mem hc)
    exact ⟨h1, h2⟩
  · exact fun _ => h.ordered.apart
  · exact fun c hc => .inl (h.sits c hc).spelled

theorem node (h : Laid source s s' ns) {k : Kind Node} (hk : k.children = ns)
    (hp : k.isPlain = true) : Laid source s s'.counted [.mk s'.nextId (whole s s') k] :=
  h.worded hk (Node.spelled_of_isText (Kind.isText_of_isPlain hp))
    (Node.verbatim_of_isText (Kind.isText_of_isPlain hp))

/-- A name that stands for a key stands for the value too. -/
theorem twin {id : Nat} {span : Span} {name : String}
    (h : Laid source s s' [.mk id span (.identifier name)]) :
    Laid source s s'.counted [.mk s'.nextId span (.identifier name)] := by
  have hkey := h.sits _ List.mem_cons_self
  have hfits := hkey.fits _ (Node.mem_nodes_self _)
  refine ⟨h.counted.toBegun, h.reached, h.touches, h.ordered, ?_⟩
  intro n hn
  rw [List.mem_singleton.mp hn]
  exact .of_children ⟨hfits.start, hfits.stop, hfits.le, nofun, fun _ => .nil, nofun⟩ hkey.spelled
    trivial (Nat.lt_succ_self _) nofun

/-- A new property whose key and value share a text. -/
theorem shorthand {key value : Node} (hk : Laid source s s' [key]) (hv : Laid source s s' [value])
    (kind : PropertyKind) (computed method : Bool) : Laid source s s'.counted
      [.mk s'.nextId (whole s s') (.property key value kind computed true method)] := by
  have hboth : ∀ c ∈ [key, value], Laid source s s' [c] := by
    intro c hc
    cases hc with
    | head => exact hk
    | tail _ hc => exact List.mem_singleton.mp hc ▸ hv
  refine hk.made rfl (.of_children ⟨hk.boundary, hk.boundary_stop, hk.reached, ?_, nofun, ?_⟩ nofun
    trivial (Nat.lt_succ_self _) ?_)
  · intro c hc
    obtain ⟨h1, -, h2⟩ := (hboth c hc).ordered.inside c.span List.mem_cons_self
    exact ⟨h1, h2⟩
  · exact fun c hc => .inl ((hboth c hc).sits c List.mem_cons_self).spelled
  · exact fun c hc => (hboth c hc).sits c List.mem_cons_self

end Laid

/-- A tree covers everything between two states. -/
def Spanned (source : List Char) (s : State) (n : Node) (s' : State) : Prop :=
  Laid source s s' [n] ∧ n.span = Laid.whole s s'

section

variable {source : List Char} {c : Context} {s s' : State} {ns : List Node}

theorem Laid.nodeSpan (h : Laid source s s' ns) :
    (⟨s.current.span.start, max s'.previous.stop s.current.span.start⟩ : Span) =
      Laid.whole s s' := by
  rw [Nat.max_eq_left h.reached]
  rfl

/-- A new node, with its span. -/
theorem Ensures.nodeOf {kind : Kind Node} {start : Nat} {Q : Node → State → Prop}
    (h : Q (.mk s.nextId ⟨start, max s.previous.stop start⟩ kind) s.counted) :
    Ensures (Parser.node kind start) c s Q := .bind (.get (.nodeAt h))

theorem Laid.spans (h : Laid source s s' ns) {k : Kind Node} (hk : k.children = ns)
    (hp : k.isPlain = true) :
    Ensures (Parser.node k s.current.span.start) c s' (Spanned source s) := by
  refine .nodeOf ?_
  rw [h.nodeSpan]
  exact ⟨h.node hk hp, rfl⟩

/-- A new node that says what its text is. -/
theorem Laid.makesWorded (h : Laid source s s' ns) {k : Kind Node} (hk : k.children = ns)
    (hs : ∀ id, (Node.mk id (Laid.whole s s') k).Spelled source)
    (hv : ∀ id, (Node.mk id (Laid.whole s s') k).Verbatim source) :
    Ensures (Parser.node k s.current.span.start) c s' fun n s'' => Laid source s s'' [n] := by
  refine .nodeOf ?_
  rw [h.nodeSpan]
  exact h.worded hk (hs _) (hv _)

theorem Laid.makes (h : Laid source s s' ns) {k : Kind Node} (hk : k.children = ns)
    (hp : k.isPlain = true) :
    Ensures (Parser.node k s.current.span.start) c s' fun n s'' => Laid source s s'' [n] :=
  (h.spans hk hp).mono fun _ _ => And.left

/-- The name that the current token stands for. -/
theorem State.Ready.name (h : s.Ready source) {name : String}
    (hk : s.current.kind.name? = some name) :
    Laid source s s.next.counted [.mk s.nextId s.current.span (.identifier name)] := by
  refine (Begun.refl h).next.worded rfl ?_ trivial
  intro own hown
  obtain rfl := Kind.identifier.inj hown
  exact h.spelled hk

theorem State.Ready.makesName (h : s.Ready source) {name : String}
    (hk : s.current.kind.name? = some name) :
    Ensures (Parser.node (.identifier name) s.current.span.start) c s.next
      fun n s' => Laid source s s' [n] := by
  refine .nodeOf ?_
  rw [(Begun.refl h).next.nodeSpan]
  exact h.name hk

theorem Laid.makesShorthand {key value : Node} (hk : Laid source s s' [key])
    (hv : Laid source s s' [value]) (kind : PropertyKind) (computed method : Bool) :
    Ensures (Parser.node (.property key value kind computed true method) s.current.span.start) c s'
      fun n s'' => Laid source s s'' [n] := by
  refine .nodeOf ?_
  rw [hk.nodeSpan]
  exact hk.shorthand hv kind computed method

end

end EsModule.Syntax
