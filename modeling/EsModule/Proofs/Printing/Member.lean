import EsModule.Proofs.Printing.Reader

/-!
# Phrases are read

Lists with commas between their parts are read as sequences, as arguments and between parentheses,
where they could still turn out to be the parameters of an arrow function. Members and calls are
read by a loop, one round for each of them (`ReachesMembers.round`).

All that is known of the readings of a phrase is `Readable`, and every phrase has it
(`Phrase.readable`): by induction over the grammar of phrases, each form from its parts.
-/

namespace EsModule.Syntax

open EsModule.Syntax.Parser

section

variable {g : Grammar} {c : Context} {s : State} {noIn noIn' : Bool} {xs ys rest : List Lexeme}
  {e property : Node} {id id' : Nat} {span span' : Span} {parts : List Part}

/-! ## Lists -/

theorem commaJoin_cons_cons (xs ys : List Lexeme) (rest : List (List Lexeme)) :
    commaJoin (xs :: ys :: rest) = xs ++ .mark .comma :: commaJoin (ys :: rest) := by
  simp [commaJoin]

theorem length_le_commaJoin {xss : List (List Lexeme)} (h : xs ∈ xss) :
    xs.length ≤ (commaJoin xss).length := by
  cases xss with
  | nil => cases h
  | cons ys rest =>
    refine List.Sublist.length_le ?_
    rcases List.mem_cons.mp h with rfl | h
    · exact List.sublist_append_left _ _
    · have hmem : .mark .comma :: xs ∈ rest.map (Lexeme.mark .comma :: ·) :=
        List.mem_map_of_mem h
      have hbehind : (Lexeme.mark .comma :: xs).Sublist (rest.flatMap (Lexeme.mark .comma :: ·)) :=
        List.sublist_flatten_of_mem hmem
      exact ((List.sublist_cons_self _ xs).trans hbehind).trans (List.sublist_append_right _ _)

/-- A list has no more parts than lexemes. -/
theorem length_le_length_commaJoin {parts : List Part} (h : ∀ p ∈ parts, Starts p.lexemes) :
    parts.length ≤ (commaJoin (parts.map (·.lexemes))).length := by
  have htail : ∀ ps : List Part,
      ps.length ≤ ((ps.map (·.lexemes)).flatMap (Lexeme.mark .comma :: ·)).length := by
    intro ps
    induction ps with
    | nil => exact Nat.le_refl _
    | cons p ps ih =>
      simp only [List.map_cons, List.flatMap_cons, List.length_append, List.length_cons]
      omega
  cases parts with
  | nil => exact Nat.le_refl _
  | cons p ps =>
    have hpos := List.length_pos_iff.mpr (h p List.mem_cons_self).ne_nil
    have := htail ps
    rw [List.map_cons, commaJoin, List.length_append, List.length_cons]
    omega

/-- The shapes of what is read are those of the parts. -/
def SameShapes (ns : List Node) (parts : List Part) : Prop :=
  ns.map Node.shape = (parts.map (·.node)).map Node.shape

theorem SameShapes.cons {n : Node} {p : Part} {ns : List Node} (hn : n.shape = p.node.shape)
    (h : SameShapes ns parts) : SameShapes (n :: ns) (p :: parts) :=
  congrArg₂ List.cons hn h

/-- The loop over a list in parentheses reads all of its parts, if `item` reads each of them and
goes on where a comma follows. -/
theorem gives_listRound {α : Type} {item : Parser (List α × Bool)} {f : Node → α}
    (hstarts : ∀ p ∈ parts, Starts p.lexemes)
    (hmore : ∀ p ∈ parts, ∀ s x zs, s.Faces (p.lexemes ++ .mark .comma :: x :: zs) →
      x.kind.opens = true → Gives item c s fun r s' =>
        ∃ n : Node, n.shape = p.node.shape ∧ r = ([f n], true) ∧ s'.Faces (x :: zs))
    (hlast : ∀ p ∈ parts, ∀ s zs, s.Faces (p.lexemes ++ .mark .rightParen :: zs) →
      Gives item c s fun r s' =>
        ∃ n : Node, n.shape = p.node.shape ∧ r = ([f n], false) ∧
          s'.Faces (.mark .rightParen :: zs))
    (acc : List α) (s : State) (bound : Nat) (hbound : parts.length < bound)
    (hs : s.Faces (commaJoin (parts.map (·.lexemes)) ++ .mark .rightParen :: rest)) :
    Gives (loopWithin (Grammar.listRound (· = .punctuator .rightParen) item) bound acc) c s
      fun as s' => ∃ ns, SameShapes ns parts ∧ as = acc ++ ns.map f ∧
        s'.Faces (.mark .rightParen :: rest) := by
  have hopens : ∀ p ∈ parts, ∀ s zs, State.Faces s (p.lexemes ++ zs) →
      ¬ decide (s.current.kind = .punctuator .rightParen) = true := by
    intro p hp s zs hs hparen
    have hopens := (hstarts p hp).opens_current hs
    exact TokenKind.ne_of_opens hopens rfl (of_decide_eq_true hparen)
  induction parts generalizing acc s bound with
  | nil =>
    obtain ⟨bound, rfl⟩ : ∃ b, bound = b + 1 := ⟨bound - 1, by omega⟩
    refine .round (.bind (.current (.iteTrue (decide_eq_true hs.kind) (.pure ?_))))
    exact ⟨[], rfl, (List.append_nil acc).symm, hs⟩
  | cons p ps ih =>
    obtain ⟨bound, rfl⟩ : ∃ b, bound = b + 1 := ⟨bound - 1, by omega⟩
    rw [List.length_cons, Nat.add_lt_add_iff_right] at hbound
    cases ps with
    | nil =>
      rw [List.map_cons, List.map_nil, commaJoin, List.flatMap_nil, List.append_nil] at hs
      refine .round (.bind (.current (.iteFalse (hopens p List.mem_cons_self s _ hs) ?_)))
      refine .step (hlast p List.mem_cons_self s rest hs) ?_
      rintro r s' ⟨n, hn, rfl, hs'⟩
      exact .iteFalse Bool.false_ne_true (.pure ⟨[n], .cons hn rfl, rfl, hs'⟩)
    | cons q ps =>
      obtain ⟨x, xs, hx, hfirst⟩ : ∃ x xs, commaJoin ((q :: ps).map (·.lexemes)) ++
          .mark .rightParen :: rest = x :: xs ∧ x.kind.opens = true := by
        obtain ⟨x, xs, hx, hfirst⟩ := (hstarts q (by simp)).opens
        exact ⟨x, _, by rw [List.map_cons, commaJoin, hx]; rfl, hfirst⟩
      rw [List.map_cons, List.map_cons, commaJoin_cons_cons, List.append_assoc, List.cons_append,
        ← List.map_cons (f := fun p : Part => p.lexemes), hx] at hs
      refine .round (.bind (.current (.iteFalse (hopens p List.mem_cons_self s _ hs) ?_)))
      refine .step (hmore p List.mem_cons_self s x xs hs hfirst) ?_
      rintro r s' ⟨n, hn, rfl, hs'⟩
      refine .iteTrue rfl (.pure ?_)
      rw [← hx] at hs'
      refine (ih (fun p hp => hstarts p (List.mem_cons_of_mem _ hp))
        (fun p hp => hmore p (List.mem_cons_of_mem _ hp))
        (fun p hp => hlast p (List.mem_cons_of_mem _ hp)) _ s' bound hbound hs'
        (fun p hp => hopens p (List.mem_cons_of_mem _ hp))).mono ?_
      rintro as s'' ⟨ns, hns, rfl, hs''⟩
      exact ⟨n :: ns, .cons hn hns, by simp, hs''⟩

/-- The loop over a sequence reads all of its items. -/
theorem gives_itemRound {d : Nat}
    (hparts : ∀ p ∈ parts, Room d c noIn p.lexemes ∧ ReadsAssignment noIn p.lexemes p.node)
    (hf : Spares Tightness.sequence rest) (items : List Node) (s : State) (bound : Nat)
    (hbound : parts.length < bound)
    (hs : s.Faces ((parts.map (·.lexemes)).flatMap (.mark .comma :: ·) ++ rest)) :
    Gives (loopWithin (Grammar.ofDepth (d + 1)).itemRound bound items) c s fun all s' =>
      ∃ ns, SameShapes ns parts ∧ all = items ++ ns ∧ s'.Faces rest := by
  obtain ⟨x, rest, rfl, hx⟩ := hf
  have hcomma : x.kind ≠ .punctuator .comma := TokenKind.ne_of_demand hx (by decide)
  induction parts generalizing items s bound with
  | nil =>
    obtain ⟨bound, rfl⟩ : ∃ b, bound = b + 1 := ⟨bound - 1, by omega⟩
    refine .round (.bind (.eatNot (hs.kind ▸ hcomma) (.iteFalse nofun (.pure ?_))))
    exact ⟨[], rfl, (List.append_nil items).symm, hs⟩
  | cons p ps ih =>
    obtain ⟨bound, rfl⟩ : ∃ b, bound = b + 1 := ⟨bound - 1, by omega⟩
    rw [List.length_cons, Nat.add_lt_add_iff_right] at hbound
    rw [List.map_cons, List.flatMap_cons, List.cons_append, List.cons_append,
      List.append_assoc] at hs
    obtain ⟨hroom, hread⟩ := hparts p List.mem_cons_self
    have hspares : Spares Tightness.assign
        ((ps.map (·.lexemes)).flatMap (.mark .comma :: ·) ++ x :: rest) := by
      cases ps with
      | nil => exact .cons (Nat.le_trans hx (by decide)) rest
      | cons q ps => exact .cons (by decide) _
    have hitem := hread d c _ _ hroom hs.next hspares
    refine .round (.bind (.eat hs.kind (.iteTrue rfl (.step hitem fun n s' hn => ?_))))
    refine .pure ((ih (fun p hp => hparts p (List.mem_cons_of_mem _ hp)) _ s' bound hbound
      hn.2).mono ?_)
    rintro all s'' ⟨ns, hns, rfl, hs''⟩
    exact ⟨n :: ns, .cons hn.1 hns, by simp, hs''⟩

/-! ## Items -/

theorem ReadsAssignment.items (h : ReadsAssignment noIn xs e) (hstarts : Starts xs) :
    ReadsItems noIn xs e := by
  refine ⟨[⟨Tightness.assign, xs, e⟩], by simp [commaJoin], ?_, .inl ⟨_, rfl, rfl⟩⟩
  intro p hp
  rw [List.mem_singleton.mp hp]
  exact ⟨hstarts, h⟩

theorem SameShapes.sequence {ns : List Node} (h : SameShapes ns parts) :
    (Node.mk id span (.sequenceExpression ns)).shape =
      (Node.mk id' span' (.sequenceExpression (parts.map (·.node)))).shape :=
  Node.shape_congr (congrArg Kind.sequenceExpression h)

/-- The items of a phrase are read as one expression, one level of nesting below. -/
theorem ReadsItems.expression (h : ReadsItems noIn xs e) {d : Nat} (hroom : Room d c noIn xs)
    (hs : s.Faces (xs ++ rest)) (hf : Spares Tightness.sequence rest) :
    Gives (Grammar.ofDepth (d + 1)).expression c s (Stands e rest) := by
  obtain ⟨parts, rfl, hparts, hwhole⟩ := h
  have hrooms : ∀ p ∈ parts, Room d c noIn p.lexemes ∧ ReadsAssignment noIn p.lexemes p.node :=
    fun p hp => ⟨hroom.shorter (length_le_commaJoin (List.mem_map_of_mem hp)), (hparts p hp).2⟩
  have hlength : parts.length < c.bound :=
    Nat.lt_of_le_of_lt (length_le_length_commaJoin fun p hp => (hparts p hp).1) hroom.bound
  rw [Grammar.expression_eq]
  cases parts with
  | nil =>
    rcases hwhole with ⟨p, hp, -⟩ | ⟨hlen, -⟩
    · cases hp
    · cases hlen
  | cons p ps =>
    rw [List.map_cons, commaJoin, List.append_assoc] at hs
    obtain ⟨hroom', hread⟩ := hrooms p List.mem_cons_self
    have hspares : Spares Tightness.assign
        ((ps.map (·.lexemes)).flatMap (.mark .comma :: ·) ++ rest) := by
      cases ps with
      | nil => exact hf.mono (by decide)
      | cons q ps => exact .cons (by decide) _
    refine .bind (.here (.step (hread d c s _ hroom' hs hspares) fun n s1 hn => .bind (.sees ?_)))
    cases ps with
    | nil =>
      obtain ⟨x, rest, rfl, hx⟩ := hf
      have hcomma : s1.current.kind ≠ .punctuator .comma :=
        hn.2.kind ▸ TokenKind.ne_of_demand hx (by decide)
      refine .iteFalse (by simp [hcomma]) (.pure ?_)
      rcases hwhole with ⟨q, hq, rfl⟩ | ⟨hlen, -⟩
      · obtain rfl : p = q := by simpa using hq
        exact hn
      · exact absurd hlen (by simp)
    | cons q ps =>
      refine .iteTrue (decide_eq_true hn.2.kind) (.bind (.loop ?_))
      refine (gives_itemRound (fun p hp => hrooms p (List.mem_cons_of_mem _ hp)) hf [n] s1 c.bound
        (Nat.lt_of_succ_lt hlength) hn.2).mono ?_
      rintro all s2 ⟨ns, hns, rfl, hs2⟩
      refine .node fun span => ⟨?_, hs2.counted⟩
      rcases hwhole with ⟨q', hq', -⟩ | ⟨-, id, span, rfl⟩
      · cases hq'
      · exact (hns.cons hn.1).sequence

/-! ## Between brackets -/

theorem inParens_append (xs rest : List Lexeme) :
    inParens xs ++ rest = .mark .leftParen :: (xs ++ .mark .rightParen :: rest) := by
  simp [inParens]

/-- All parts of a list can be read where `in` is an operator. -/
structure PartsRead (d : Nat) (c : Context) (noIn : Bool) (parts : List Part) : Prop where
  starts : ∀ p ∈ parts, Starts p.lexemes
  room : ∀ p ∈ parts, Room d c noIn p.lexemes
  reads : ∀ p ∈ parts, ReadsAssignment noIn p.lexemes p.node
  bound : parts.length < c.bound

theorem PartsRead.of_room {d : Nat}
    (hparts : ∀ p ∈ parts, Starts p.lexemes ∧ ReadsAssignment noIn p.lexemes p.node)
    (hroom : Room d c noIn (commaJoin (parts.map (·.lexemes)))) : PartsRead d c noIn parts := by
  have hlength := length_le_length_commaJoin fun p hp => (hparts p hp).1
  exact ⟨fun p hp => (hparts p hp).1,
    fun p hp => hroom.shorter (length_le_commaJoin (List.mem_map_of_mem hp)),
    fun p hp => (hparts p hp).2, Nat.lt_of_le_of_lt hlength hroom.bound⟩

theorem PartsRead.arguments {d : Nat} (h : PartsRead d { c with allowIn := true } noIn parts)
    (hs : s.Faces (inParens (commaJoin (parts.map (·.lexemes))) ++ rest)) :
    Gives (Grammar.ofDepth (d + 1)).arguments c s fun ns s' =>
      SameShapes ns parts ∧ s'.Faces rest := by
  rw [inParens_append] at hs
  have hargument : ∀ p ∈ parts, ∀ s x zs, State.Faces s (p.lexemes ++ x :: zs) →
      x.kind.demand ≤ Tightness.assign →
      Gives (Grammar.ofDepth (d + 1)).spreadOrAssignment { c with allowIn := true } s
        (Stands p.node (x :: zs)) := by
    intro p hp s x zs hs hx
    have hspread : s.current.kind ≠ .punctuator .ellipsis :=
      TokenKind.ne_of_opens ((h.starts p hp).opens_current hs) rfl
    refine .bind (.here (.bind (.eatNot hspread (.iteFalse nofun ?_))))
    exact h.reads p hp d _ s _ (h.room p hp) hs (.cons hx zs)
  refine .bind (.expect hs.kind (.step (P := fun ns s' => SameShapes ns parts ∧
    s'.Faces (.mark .rightParen :: rest)) (.withIn ?_) ?_))
  · refine .mono (.loop (gives_listRound (f := fun n => n) h.starts ?_ ?_ [] s.next c.bound h.bound
      hs.next)) ?_
    · intro p hp s x zs hs _
      refine .step (hargument p hp s _ _ hs (by decide)) fun n s' hn => ?_
      exact .bind (.eat hn.2.kind (.pure ⟨n, hn.1, rfl, hn.2.next⟩))
    · intro p hp s zs hs
      refine .step (hargument p hp s _ _ hs (by decide)) fun n s' hn => ?_
      exact .bind (.eatNot (hn.2.kind ▸ nofun) (.pure ⟨n, hn.1, rfl, hn.2⟩))
    · rintro as s' ⟨ns, hns, rfl, hs'⟩
      exact ⟨by simpa using hns, hs'⟩
  · rintro ns s' ⟨hns, hs'⟩
    exact .bind (.expect hs'.kind (.pure ⟨hns, hs'.next⟩))

/-- No part of a list in parentheses makes an arrow compulsory. -/
theorem PartsRead.parenthesizedItems {d : Nat}
    (h : PartsRead d { c with allowIn := true } noIn parts)
    (hs : s.Faces (commaJoin (parts.map (·.lexemes)) ++ .mark .rightParen :: rest)) :
    Gives (Grammar.ofDepth (d + 1)).parenthesizedItems c s fun marked s' =>
      ∃ ns, SameShapes ns parts ∧ marked = ns.map (·, false) ∧
        s'.Faces (.mark .rightParen :: rest) := by
  have hitem : ∀ p ∈ parts, ∀ s x zs, State.Faces s (p.lexemes ++ x :: zs) →
      x.kind.demand ≤ Tightness.assign → s.current.kind ≠ .punctuator .ellipsis ∧
      Gives (Grammar.ofDepth (d + 1)).assignment { c with allowIn := true } s
        (Stands p.node (x :: zs)) := by
    intro p hp s x zs hs hx
    exact ⟨TokenKind.ne_of_opens ((h.starts p hp).opens_current hs) rfl,
      h.reads p hp d _ s _ (h.room p hp) hs (.cons hx zs)⟩
  refine .mono (.withIn (.loop (gives_listRound (f := (·, false)) h.starts ?_ ?_ [] s c.bound
    h.bound hs))) ?_
  · intro p hp s x zs hs hx
    obtain ⟨hspread, hread⟩ := hitem p hp s _ _ hs (by decide)
    refine .bind (.here (.bind (.eatNot hspread (.iteFalse nofun (.step hread fun n s' hn => ?_)))))
    refine .bind (.eat hn.2.kind (.bind (.sees (.pure ⟨n, hn.1, ?_, hn.2.next⟩))))
    have hparen : s'.next.current.kind ≠ .punctuator .rightParen :=
      hn.2.next.kind ▸ TokenKind.ne_of_opens hx rfl
    rw [decide_eq_false hparen]
    rfl
  · intro p hp s zs hs
    obtain ⟨hspread, hread⟩ := hitem p hp s _ _ hs (by decide)
    refine .bind (.here (.bind (.eatNot hspread (.iteFalse nofun (.step hread fun n s' hn => ?_)))))
    exact .bind (.eatNot (hn.2.kind ▸ nofun) (.bind (.sees (.pure ⟨n, hn.1, rfl, hn.2⟩))))
  · rintro as s' ⟨ns, hns, rfl, hs'⟩
    exact ⟨ns, hns, rfl, hs'⟩

/-- A list in parentheses that no arrow follows is one expression. -/
theorem ReadsItems.parenthesized (h : ReadsItems noIn xs e) {d : Nat}
    (hroom : Room d { c with allowIn := true } noIn xs) (hs : s.Faces (inParens xs ++ rest)) :
    Gives (Grammar.ofDepth (d + 1)).parenthesized c s fun o s' => Stands e rest o.node s' := by
  obtain ⟨parts, rfl, hparts, hwhole⟩ := h
  rw [inParens_append] at hs
  have hread := PartsRead.of_room hparts hroom
  refine .bind (.here (.bind (.advance (.step (hread.parenthesizedItems hs.next) ?_))))
  rintro marked s1 ⟨ns, hns, rfl, hs1⟩
  have hitems : (ns.map (·, false)).map (·.1) = ns := List.map_map.trans (List.map_id ns)
  have hany : (ns.map (·, false)).any (·.2) = false := by simp
  have hlength : ns.length = parts.length := by simpa using congrArg List.length hns
  refine .bind (.expect hs1.kind ?_)
  simp only [hitems, hany, Bool.or_false]
  rcases hwhole with ⟨p, rfl, rfl⟩ | ⟨hlen, id, span, rfl⟩
  · obtain ⟨n, rfl⟩ := List.length_eq_one_iff.mp hlength
    refine .bind (.sees (.iteFalse nofun (.pure ⟨?_, hs1.next⟩)))
    exact (List.cons.inj hns).1
  · obtain ⟨n, m, ms, rfl⟩ : ∃ n m ms, ns = n :: m :: ms := by
      match ns, hlength with
      | [], h => exact absurd hlen (by simp [← h])
      | [n], h => exact absurd hlen (by simp [← h])
      | n :: m :: ms, _ => exact ⟨n, m, ms, rfl⟩
    refine .bind (.sees (.iteFalse nofun (.bind (.node fun span => .pure ⟨?_, hs1.next.counted⟩))))
    exact hns.sequence

/-! ## Operands -/

/-- An operand of one piece is where the loop over members and calls starts. -/
theorem ReachesMembers.of_primary (hx : ∃ x rest, xs = x :: rest ∧ x.kind.IsOperand)
    (h : ∀ d c s rest, Room d c noIn xs → s.Faces (xs ++ rest) →
      Gives (Grammar.ofDepth d).primary c s fun o s' => Stands e rest o.node s') :
    ReachesMembers noIn xs e := by
  intro d c s rest Q hroom hs _ hQ
  have hwords : s.current.kind ≠ .keyword .kwAsync ∧ s.current.kind ≠ .keyword .kwNew := by
    obtain ⟨x, xs, rfl, ⟨name, hk⟩ | hk⟩ := hx
    · rw [hs.kind, hk]
      exact ⟨nofun, nofun⟩
    · rw [hs.kind, hk]
      exact ⟨nofun, nofun⟩
  rw [Grammar.leftHandSideRule_eq]
  refine .bind (.here (.bind (.seesWord (.bind (.seesWord ?_)))))
  rw [decide_eq_false hwords.1, decide_eq_false hwords.2]
  refine .iteFalse nofun (.step (h d c s rest hroom hs) fun o s' ho => .loop ?_)
  exact hQ o s' c.bound ho (Nat.le_add_right _ _)

theorem Gives.currentText {Q : String → State → Prop} (h : ∀ text, Q text s) :
    Gives Parser.currentText c s Q := .bind (.get (.pure (h _)))

theorem reachesMembers_name {name : String} :
    ReachesMembers noIn [.name name] (.mk id span (.identifier name)) := by
  refine .of_primary ⟨_, _, rfl, .inl ⟨name, rfl⟩⟩ fun d c s rest _ hs => ?_
  have hasync : s.current.kind ≠ .keyword .kwAsync := hs.kind ▸ nofun
  refine .bind (.here (.bind (.startsAsyncFunction hasync (.iteFalse nofun (.bind (.current ?_))))))
  rw [show s.current.kind = .identifier name from hs.kind]
  refine .bind (.currentText fun text => .bind (.advance (.bind (.node fun span => .pure ?_))))
  exact ⟨Node.shape_congr rfl, hs.next.counted⟩

theorem ReadsItems.parens (h : ReadsItems noIn' xs e) : ReachesMembers noIn (inParens xs) e := by
  refine .of_primary ⟨_, _, rfl, .inr rfl⟩ fun d c s rest hroom hs => ?_
  obtain ⟨d, rfl, hbelow⟩ := hroom.below (List.cons_ne_nil _ _)
  have hroom' := (hbelow xs (by rw [length_inParens]; omega)).bracketed noIn'
  have hparen : s.current.kind = .punctuator .leftParen := hs.kind
  have hasync : s.current.kind ≠ .keyword .kwAsync := hparen ▸ nofun
  refine .bind (.here (.bind (.startsAsyncFunction hasync (.iteFalse nofun (.bind (.current ?_))))))
  rw [hparen]
  exact h.parenthesized hroom' hs

/-! ## Members and calls -/

/-- After an operand the loop goes on, one round for each member or call. -/
theorem ReachesMembers.round {x : Lexeme} {e' : Node}
    (h : ReachesMembers noIn xs e)
    (hround : ∀ d c s rest o start, Room d c noIn (xs ++ x :: ys) →
      Stands e (x :: (ys ++ rest)) o.node s →
      Gives ((Grammar.ofDepth d).memberRound start false o) c s fun r s' =>
        ∃ o' : Operand, r = .again o' ∧ Stands e' rest o'.node s') :
    ReachesMembers noIn (xs ++ x :: ys) e' := by
  intro d c s rest Q hroom hs _ hQ
  rw [List.append_assoc, List.cons_append] at hs
  refine h d c s _ Q (hroom.shorter (by simp)) hs (List.cons_ne_nil _ _) ?_
  intro o s1 bound ho hbound
  have hroom' := hroom.bound
  simp only [List.length_append, List.length_cons] at hroom'
  obtain ⟨bound, rfl⟩ : ∃ b, bound = b + 1 := ⟨bound - 1, by omega⟩
  refine .round ((hround d c s1 rest o _ hroom ho).mono ?_)
  rintro r s2 ⟨o', rfl, ho'⟩
  exact hQ o' s2 bound ho' (by simp only [List.length_append, List.length_cons]; omega)

theorem ReachesMembers.member (h : ReachesMembers noIn xs e) {name : String} :
    ReachesMembers noIn (xs ++ [.mark .dot, .name name])
      (.mk id span (.memberExpression e (.mk id' span' (.identifier name)) false false)) := by
  refine h.round fun d c s rest o start hroom ho => .bind (.current ?_)
  have hname := ho.2.next
  rw [show s.current.kind = .punctuator .dot from ho.2.kind]
  refine .bind (.advance (.bind (.bind (.here (.bind (.current ?_))))))
  rw [show s.next.current.kind = .identifier name from hname.kind]
  refine .bind (.bind (.current ?_))
  rw [show s.next.current.kind = .identifier name from hname.kind]
  refine .bind (.advance (.pure (.node fun span => .bind (.node fun span => .pure ⟨_, rfl, ?_⟩))))
  refine ⟨Node.shape_congr ?_, hname.next.counted.counted⟩
  simp only [Kind.map, ho.1, Node.shape_mk]

theorem ReachesMembers.computed (h : ReachesMembers noIn xs e) (hp : ReadsItems noIn' ys property) :
    ReachesMembers noIn (xs ++ inBrackets ys)
      (.mk id span (.memberExpression e property true false)) := by
  refine h.round fun d c s rest o start hroom ho => .bind (.current ?_)
  obtain ⟨d, rfl, hbelow⟩ := hroom.below (by simp)
  have hroom' := (hbelow ys (by simp; omega)).bracketed noIn'
  have hfaces := ho.2.next
  rw [List.append_assoc, List.singleton_append] at hfaces
  rw [show s.current.kind = .punctuator .leftBracket from ho.2.kind]
  refine .bind (.advance (.bind (.step (.withIn (hp.expression hroom' hfaces ?_)) ?_)))
  · exact .cons (by decide) rest
  intro n s1 hn
  refine .bind (.expect hn.2.kind (.pure (.bind (.node fun span => .pure ⟨_, rfl, ?_⟩))))
  refine ⟨Node.shape_congr ?_, hn.2.next.counted⟩
  simp only [Kind.map, ho.1, hn.1]

theorem ReachesMembers.call (h : ReachesMembers noIn xs e)
    (hparts : ∀ p ∈ parts, Starts p.lexemes ∧ ReadsAssignment noIn' p.lexemes p.node) :
    ReachesMembers noIn (xs ++ inParens (commaJoin (parts.map (·.lexemes))))
      (.mk id span (.callExpression e (parts.map (·.node)) false)) := by
  refine h.round fun d c s rest o start hroom ho => .bind (.current ?_)
  obtain ⟨d, rfl, hbelow⟩ := hroom.below (by simp)
  have hread := PartsRead.of_room hparts
    ((hbelow _ (by simp; omega)).bracketed noIn')
  rw [show s.current.kind = .punctuator .leftParen from ho.2.kind]
  refine .bind (.current (.bind (.step (hread.arguments ho.2) ?_)))
  rintro args s1 ⟨hargs, hs1⟩
  refine .bind (.node fun span => .pure (.pure ⟨_, rfl, ?_, hs1.counted⟩))
  refine Node.shape_congr ?_
  simp only [Kind.map, ho.1]
  exact congrArg (Kind.callExpression e.shape · false) hargs

/-! ## Phrases -/

open Tightness in
/-- The ways in which a phrase of some level is read: every rule that asks for no more than the
level reads it. -/
structure Readable (level : Nat) (noIn : Bool) (xs : List Lexeme) (e : Node) : Prop where
  /-- Members and calls may follow it. -/
  members : call ≤ level → ReachesMembers noIn xs e
  /-- An operator may stand in front of it. -/
  unary : unary ≤ level → ReadsUnary noIn xs e
  /-- Operators may follow it that ask for no more than the level. -/
  operators : ∀ l, conditional < l → l ≤ level → l ≤ postfixed → ReachesOperators l noIn xs e
  /-- It may be assigned. -/
  assignment : assign ≤ level → ReadsAssignment noIn xs e
  /-- It may stand between brackets. -/
  items : ReadsItems noIn xs e

namespace Readable

variable {k : Nat}

open Tightness

theorem of_assignment (hp : Phrase assign noIn xs e) (h : ReadsAssignment noIn xs e) :
    Readable assign noIn xs e where
  members hl := absurd hl (by decide)
  unary hl := absurd hl (by decide)
  operators l hlow hl _ := absurd (Nat.lt_of_lt_of_le hlow hl) (by decide)
  assignment _ := h
  items := h.items hp.starts

theorem of_conditional (hp : Phrase conditional noIn xs e) (h : ReadsConditional noIn xs e) :
    Readable conditional noIn xs e where
  members hl := absurd hl (by decide)
  unary hl := absurd hl (by decide)
  operators l hlow hl _ := absurd (Nat.lt_of_lt_of_le hlow hl) (Nat.lt_irrefl _)
  assignment _ := h.assignment hp.starts
  items := (h.assignment hp.starts).items hp.starts

theorem of_operators (hp : Phrase k noIn xs e) (h : ReachesOperators k noIn xs e)
    (hlow : conditional < k) (hhigh : k < Tightness.unary) : Readable k noIn xs e where
  members hl := absurd (Nat.lt_of_lt_of_le hhigh (Nat.le_trans (by decide) hl)) (Nat.lt_irrefl _)
  unary hl := absurd (Nat.lt_of_lt_of_le hhigh hl) (Nat.lt_irrefl _)
  operators l _ hl _ := h.mono hl
  assignment _ := (h.mono hlow).conditional.assignment hp.starts
  items := ((h.mono hlow).conditional.assignment hp.starts).items hp.starts

theorem of_unary (hp : Phrase k noIn xs e) (h : ReadsUnary noIn xs e) (hhigh : k < call) :
    Readable k noIn xs e where
  members hl := absurd (Nat.lt_of_lt_of_le hhigh hl) (Nat.lt_irrefl _)
  unary _ := h
  operators l _ _ hl := h.operators hl
  assignment _ := (h.operators (by decide)).conditional.assignment hp.starts
  items := ((h.operators (by decide)).conditional.assignment hp.starts).items hp.starts

theorem of_members (hp : Phrase k noIn xs e) (h : ReachesMembers noIn xs e) (hlow : call ≤ k) :
    Readable k noIn xs e := by
  have hunary := h.unary (hp.isOperand (Nat.le_trans (by decide) hlow))
  have hassign := (hunary.operators (by decide)).conditional.assignment hp.starts
  exact ⟨fun _ => h, fun _ => hunary, fun l _ _ hl => hunary.operators hl, fun _ => hassign,
    hassign.items hp.starts⟩

end Readable

open Tightness in
/-- **Phrases are read as the trees that they stand for.** -/
theorem Phrase.readable {k : Nat} (h : Phrase k noIn xs e) : Readable k noIn xs e := by
  induction h with
  | name => exact .of_members .name reachesMembers_name (by decide)
  | parens h ih => exact .of_members (.parens h) ih.items.parens (by decide)
  | member h hk ih => exact .of_members (.member h hk) (ih.members hk).member (Nat.le_refl _)
  | computed ho hk hp iho ihp =>
    exact .of_members (.computed ho hk hp) ((iho.members hk).computed ihp.items) (Nat.le_refl _)
  | call hc hk hl ha ihc iha =>
    have hargs := fun p hp => And.intro (ha p hp).starts ((iha p hp).assignment (hl p hp))
    exact .of_members (.call hc hk hl ha) ((ihc.members hk).call hargs) (Nat.le_refl _)
  | updateBehind h hk ht ih =>
    have hoperand := h.isOperand (Nat.le_trans (by decide) hk)
    exact .of_unary (.updateBehind h hk ht) ((ih.members hk).updateBehind hoperand ht) (by decide)
  | updateInFront h hk ht ih =>
    exact .of_unary (.updateInFront h hk ht) ((ih.unary hk).updateInFront ht) (by decide)
  | unary h hk ih => exact .of_unary (.unary h hk) (ih.unary hk).unary (by decide)
  | @binary k k' noIn xs ys operator left right id span hl hk hr hk' hin ihl ihr =>
    have hlow : Tightness.conditional < Tightness.binary operator ∧
        Tightness.binary operator < Tightness.unary := by
      cases operator <;> decide
    have hleft : Tightness.conditional < operator.token.demand ∧
        operator.token.demand ≤ postfixed := by
      cases operator <;> decide
    have hright : Tightness.conditional < Grammar.rightPrecedence operator + 2 ∧
        Grammar.rightPrecedence operator + 2 ≤ postfixed := by
      cases operator <;> decide
    refine .of_operators (.binary hl hk hr hk' hin) ?_ hlow.1 hlow.2
    exact (ihl.operators _ hleft.1 hk hleft.2).binary (ihr.operators _ hright.1 hk' hright.2) hin
  | conditional ht hk hc hk' ha hk'' iht ihc iha =>
    refine .of_conditional (.conditional ht hk hc hk' ha hk'') ?_
    exact (iht.operators _ (by decide) hk (by decide)).question (ihc.assignment hk')
      (iha.assignment hk'')
  | assignment ht hk hs hv hk' iht ihv =>
    refine .of_assignment (.assignment ht hk hs hv hk') ?_
    have htest := iht.operators (Tightness.conditional + 1) (by decide)
      (Nat.le_trans (by decide) hk) (by decide)
    exact htest.assignment ht.starts hs (ihv.assignment hk')
  | @sequence noIn id span parts hlen hl hp ih =>
    refine ⟨fun hk => absurd hk (by decide), fun hk => absurd hk (by decide), ?_,
      fun hk => absurd hk (by decide), ?_⟩
    · exact fun l hlow hl _ => absurd (Nat.lt_of_lt_of_le hlow hl) (by decide)
    · refine ⟨parts, rfl, fun p hpart => ?_, .inr ⟨hlen, id, span, rfl⟩⟩
      exact ⟨(hp p hpart).starts, (ih p hpart).assignment (hl p hpart)⟩

end

end EsModule.Syntax
