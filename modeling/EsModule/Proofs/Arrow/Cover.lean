import EsModule.Proofs.Pairing.Termination
import EsModule.Proofs.Printing.Reader

/-!
# Targets that are read as expressions

The parameters of an arrow function are read as expressions first and as targets afterwards. Where
the rule for targets reads the same text, it gives the same tree, number for number and span for
span.

`Covers` says so of two rules: where the first one comes to an end in front of a token that may
stand there, so does the second one, in the same state. The token behind is known only by what the
first rule is part of. It matters because an expression goes on where a target does not, and because
`get`, `set` and `async` are names of properties by the token behind them.
-/

namespace EsModule.Syntax

open EsModule.Syntax.Parser

/-! ## What both rules do -/

namespace Ensures

variable {α : Type} {c : Context} {s : State} {p : Parser α}

/-- What is known of a rule from elsewhere. -/
theorem self : Ensures p c s fun a s' => p c s = .ok (a, s') := fun _ _ h => h

theorem and {P Q : α → State → Prop} (h : Ensures p c s P) (h' : Ensures p c s Q) :
    Ensures p c s fun a s' => P a s' ∧ Q a s' := fun a s' hp => ⟨h a s' hp, h' a s' hp⟩

end Ensures

/-- The node of some kind that a rule makes in a state, from an offset on. -/
def State.made (s : State) (kind : Kind Node) (start : Nat) : Node :=
  .mk s.nextId ⟨start, max s.previous.stop start⟩ kind

theorem Ensures.made {c : Context} {s : State} {kind : Kind Node} {start : Nat}
    {Q : Node → State → Prop} (h : Q (s.made kind start) s.counted) :
    Ensures (Parser.node kind start) c s Q := .bind (.get (.nodeAt h))

theorem Gives.made {c : Context} {s : State} {kind : Kind Node} {start : Nat}
    {Q : Node → State → Prop} (h : Q (s.made kind start) s.counted) :
    Gives (Parser.node kind start) c s Q := .bind (.get ⟨_, _, rfl, h⟩)

section

variable {source : List Char} {k : Nat} {α β : Type} {p : Parser α} {c : Context} {s : State}

/-- A rule that goes along with another one stays in the source and moves on. -/
theorem Follows.moves {p' : Parser β} {f : α → β}
    (h : Follows (.beside source False) (s.left + 1) k p p' f) (hs : s.Reached source)
    (hc : s.left < c.bound) :
    Ensures p c s fun _ s' => s'.Reached source ∧ s'.left + k ≤ s.left := by
  intro a s' hrun
  obtain ⟨hs', -, hleft, -⟩ :=
    (h.echoes s (Nat.lt_succ_self _) hs c c ⟨rfl, rfl, hc, hc⟩).1 a s' hrun
  have hleft : s'.left < s.left + 1 - k := hleft
  exact ⟨hs', by omega⟩

/-- Expressions are read alike at any two depths that are deep enough. -/
theorem agree_assignment {d d' : Nat} (hd : 2 * (s.left + 1) ≤ d) (hd' : 2 * (s.left + 1) ≤ d')
    (hs : s.Reached source) :
    Agree s (Grammar.ofDepth d).assignment (Grammar.ofDepth d').assignment := by
  intro c hc
  have hreaches : (Pairing.beside source False).Reaches (2 * (s.left + 1)) d d' :=
    ⟨.inr hd', fun _ => .inr hd, nofun⟩
  exact (((follows_ofDepth_each _ d d' (s.left + 1)).2.1 hreaches).assignment.echoes s).same
    Transfer.node_same hs (Nat.lt_succ_self _) ⟨rfl, rfl, hc, hc⟩

end

/-! ## Reading on from an operand -/

/-- Whether a token of this kind starts a target, a number, or a list in parentheses. -/
def TokenKind.startsOperand : TokenKind → Bool
  | .identifier _ | .number _ | .keyword .kwAsync | .punctuator .leftBracket
  | .punctuator .leftBrace | .punctuator .leftParen => true
  | _ => false

/-- Whether a token of this kind ends an item of a list. -/
def TokenKind.endsItem : TokenKind → Bool
  | .punctuator .comma | .punctuator .rightParen | .punctuator .rightBracket
  | .punctuator .rightBrace => true
  | _ => false

/-- Whether it ends a target: behind an equals sign a default value follows. -/
def TokenKind.endsTarget (kind : TokenKind) : Bool :=
  kind = .punctuator .equal || kind.endsItem

/-- Whether it ends an operand: behind an arrow the body of a function follows, and a semicolon ends
the statement. -/
def TokenKind.endsOperand (kind : TokenKind) : Bool :=
  kind = .punctuator .arrow || kind = .punctuator .semicolon || kind.endsTarget

theorem TokenKind.ne_of_startsOperand {kind kind' : TokenKind} (h : kind.startsOperand = true)
    (h' : kind'.startsOperand = false) : kind ≠ kind' := by
  rintro rfl
  rw [h'] at h
  cases h

theorem TokenKind.isPlain_of_startsOperand {kind : TokenKind} (h : kind.startsOperand = true) :
    kind.IsPlain := by
  unfold startsOperand at h
  split at h
  case h_7 => cases h
  all_goals exact ⟨rfl, rfl, nofun⟩

theorem TokenKind.eq_of_endsItem {kind : TokenKind} (h : kind.endsItem = true) :
    kind = .punctuator .comma ∨ kind = .punctuator .rightParen ∨
      kind = .punctuator .rightBracket ∨ kind = .punctuator .rightBrace := by
  unfold endsItem at h
  split at h
  · exact .inl rfl
  · exact .inr (.inl rfl)
  · exact .inr (.inr (.inl rfl))
  · exact .inr (.inr (.inr rfl))
  · cases h

theorem TokenKind.endsTarget_of_endsItem {kind : TokenKind} (h : kind.endsItem = true) :
    kind.endsTarget = true := by
  rw [endsTarget, h, Bool.or_true]

theorem TokenKind.eq_of_endsTarget {kind : TokenKind} (h : kind.endsTarget = true) :
    kind = .punctuator .equal ∨ kind.endsItem = true := by
  simpa [endsTarget] using h

/-- A token that ends an operand takes nothing of it away. -/
theorem TokenKind.demand_of_endsOperand {kind : TokenKind} (h : kind.endsOperand = true) :
    kind.demand ≤ Tightness.conditional + 1 ∧ BinaryOperator.ofToken? kind = none ∧
      kind ≠ .punctuator .question := by
  rw [endsOperand, Bool.or_eq_true, Bool.or_eq_true, decide_eq_true_eq, decide_eq_true_eq] at h
  rcases h with (rfl | rfl) | h
  · exact ⟨by decide, rfl, nofun⟩
  · exact ⟨by decide, rfl, nofun⟩
  rcases eq_of_endsTarget h with rfl | h
  · exact ⟨by decide, rfl, nofun⟩
  rcases eq_of_endsItem h with rfl | rfl | rfl | rfl <;> exact ⟨by decide, rfl, nofun⟩

theorem TokenKind.ne_of_endsTarget {kind kind' : TokenKind} (h : kind.endsTarget = true)
    (h' : kind'.endsTarget = false) : kind ≠ kind' := by
  rintro rfl
  rw [h'] at h
  cases h

section

variable {g : Grammar} {c : Context} {s : State}

theorem State.faces_current (s : State) : s.Faces [.of s.current.kind] := ⟨⟨rfl, nofun⟩, _, rfl⟩

/-- Behind an operand that is whole neither a member nor an operator follows. -/
theorem gives_conditional {Q : Operand → State → Prop} (hs : s.current.kind.startsOperand = true)
    (hc : 0 < c.bound)
    (h : Gives g.primary c s fun o s' => s'.current.kind.endsOperand = true ∧ Q o s') :
    Gives g.conditional c s Q := by
  obtain ⟨bound, hbound⟩ : ∃ bound, c.bound = bound + 1 := ⟨c.bound - 1, by omega⟩
  obtain ⟨o, s', hrun, hends, hQ⟩ := h
  obtain ⟨hdemand, hbinary, hquestion⟩ := TokenKind.demand_of_endsOperand hends
  have hspares : Spares (Tightness.conditional + 1) [.of s'.current.kind] := .cons hdemand []
  have hnew : s.current.kind ≠ .keyword .kwNew := TokenKind.ne_of_startsOperand hs rfl
  -- the operand comes out of each of the rules as it went in
  have hmembers : Gives g.leftHandSideRule c s fun o' s'' => o = o' ∧ s' = s'' := by
    rw [Grammar.leftHandSideRule_eq]
    refine .bind (.here (.bind (.seesWord (.bind (.seesWord ?_)))))
    rw [decide_eq_false hnew]
    refine .iteFalse nofun (.bind ⟨o, s', hrun, .loop ?_⟩)
    rw [hbound]
    exact gives_memberRound s'.faces_current (hspares.mono (by decide)) ⟨rfl, rfl⟩
  have hunary : Gives g.unaryRule c s fun o' s'' => o = o' ∧ s' = s'' := by
    refine gives_unaryRule (TokenKind.isPlain_of_startsOperand hs)
      (.bind (.here (.step hmembers ?_)))
    rintro _ _ ⟨rfl, rfl⟩
    refine .bind (.current ?_)
    rw [hspares.not_update s'.faces_current (by decide)]
    exact .pure ⟨rfl, rfl⟩
  refine .bind (.here (.step (P := fun o' s'' => o = o' ∧ s' = s'') ?_ ?_))
  · rw [Grammar.binaryRule_eq]
    refine .bind (.here (.step hunary ?_))
    rintro _ _ ⟨rfl, rfl⟩
    refine .loop ?_
    rw [hbound]
    exact gives_operatorRound s'.faces_current
      (fun operator hop => absurd (hbinary.symm.trans hop) nofun) ⟨rfl, rfl⟩
  · rintro _ _ ⟨rfl, rfl⟩
    exact .bind (.eatNot hquestion (.iteFalse nofun (.pure hQ)))

end

/-! ## Covering -/

/-- Where `p` comes to an end in front of a token that may stand there, so does `p'`, in the same
state, and what the two give is related by `R`. This holds where less than `n` characters are left
and `in` is an operator. -/
def Covers {α β : Type} (source : List Char) (n : Nat) (ends : α → TokenKind → Bool) (p : Parser α)
    (p' : Parser β) (R : α → β → Prop) : Prop :=
  ∀ c s, s.Reached source → s.left < n → s.left < c.bound → c.allowIn = true →
    Ensures p c s fun a s' => ends a s'.current.kind = true →
      Gives p' c s fun b s'' => s' = s'' ∧ R a b

/-- Where `in` is an operator, it stays one between brackets. -/
theorem Gives.withInAgain {α : Type} {c : Context} {s : State} {p : Parser α}
    {Q : α → State → Prop} (hin : c.allowIn = true) (h : Gives p c s Q) :
    Gives (Parser.withIn true p) c s Q := by
  obtain ⟨allowIn, inGenerator, bound⟩ := c
  obtain rfl : allowIn = true := hin
  exact h

/-- Lists are covered item by item. The second rule may go on where the first one knows that the
list ends: it finds the end in one more round. -/
theorem covers_listUntil {α β : Type} {source : List Char} {n : Nat} {ends : TokenKind → Bool}
    {item : Parser (List α × Bool)} {item' : Parser (List β × Bool)} {R : α → β → Prop}
    (hmoves : ∀ c s, s.Reached source → s.left < c.bound →
      Ensures item c s fun _ s' => s'.Reached source ∧ s'.left + 1 ≤ s.left)
    (hitem : Covers source n (fun r kind => r.2 || ends kind) item item' fun r r' =>
      List.Forall₂ R r.1 r'.1 ∧ (r.2 = true → r'.2 = true)) :
    Covers source n (fun _ => ends) (listUntil ends item) (listUntil ends item')
      (List.Forall₂ R) := by
  have hwithin : ∀ bound bound' as bs c s, s.Reached source → s.left < n → s.left < c.bound →
      c.allowIn = true → s.left < bound' → List.Forall₂ R as bs →
      Ensures (loopWithin (Grammar.listRound ends item) bound as) c s fun as s' =>
        ends s'.current.kind = true →
          Gives (loopWithin (Grammar.listRound ends item') bound' bs) c s fun bs s'' =>
            s' = s'' ∧ List.Forall₂ R as bs := by
    intro bound
    -- on the bound of the first run: the second one has its own, and is only asked for at the end
    induction bound with
    | zero => exact fun _ _ _ _ _ _ _ _ _ _ _ => .fail
    | succ bound ih =>
      intro bound' as bs c s hs hl hc hin hbound hall
      obtain ⟨bound', rfl⟩ : ∃ b, bound' = b + 1 := ⟨bound' - 1, by omega⟩
      refine .bind (.bind (.current (.ite (fun hend => ?_) fun hend => ?_)))
      · refine .pure (.pure fun _ => ?_)
        exact .round (.bind (.current (.iteTrue hend (.pure ⟨rfl, hall⟩))))
      refine .step ((hitem c s hs hl hc hin).and (hmoves c s hs hc)) ?_
      rintro ⟨more, goesOn⟩ s1 ⟨hcover, hs1, hmore⟩
      cases goesOn with
      | true =>
        obtain ⟨⟨more', goesOn⟩, _, hrun, rfl, hR, hgo⟩ := hcover rfl
        obtain rfl : goesOn = true := hgo rfl
        refine .pure ((ih bound' _ (bs ++ more') c _ hs1 (by omega) (by omega) hin (by omega)
          (List.rel_append hall hR)).mono fun as s' hrest hstop => ?_)
        exact .round (.bind (.current (.iteFalse hend (.bind ⟨_, _, hrun, .pure (hrest hstop)⟩))))
      | false =>
        refine .pure (.pure fun hstop => ?_)
        -- the first rule knows that the list ends here, the second one may not
        obtain ⟨⟨more', goesOn⟩, _, hrun, rfl, hR, -⟩ := hcover hstop
        have hwhole := List.rel_append hall hR
        refine .round (.bind (.current (.iteFalse hend (.bind ⟨_, _, hrun, ?_⟩))))
        cases goesOn with
        | false => exact .pure ⟨rfl, hwhole⟩
        | true =>
          obtain ⟨bound', rfl⟩ : ∃ b, bound' = b + 1 := ⟨bound' - 1, by omega⟩
          exact .pure (.round (.bind (.current (.iteTrue hstop (.pure ⟨rfl, hwhole⟩)))))
  intro c s hs hl hc hin
  refine .bind (.read ?_)
  refine (hwithin _ c.bound [] [] c s hs hl hc hin hc .nil).mono fun as s' h hstop => ?_
  exact .loop (h hstop)

/-! ## Names -/

/-- Read again as a target, for binding or for assigning, the tree is `t`. -/
def Node.ReadsAs (e t : Node) : Prop := ∀ b, e.patternReading.target b = some t

/-- What can be a target is no spread. -/
theorem Node.ReadsAs.element {e t : Node} (h : e.ReadsAs t) (b : Bool) :
    e.patternReading.element b = some t := by
  rw [Node.element_eq_target ?_, h b]
  intro a ha
  have hmay := Node.mayBeTarget_of_target (h b)
  rw [Node.mayBeTarget, ha] at hmay
  cases hmay

/-- The tree `t` is a target that was read between two states. -/
structure IsTarget (s : State) (t : Node) (s' : State) : Prop where
  /-- A name, a bracket or a brace is in front. -/
  starts : s.current.kind.startsOperand = true
  /-- A name is a target of one token. -/
  name : s.current.kind.name?.isSome = true → (nextToken s.behind).1 = s'.current
  /-- Read again it stays what it is. -/
  settled : t.ReadsAs t

section

variable {g : Grammar} {c : Context} {s : State}

/-- Where a bound name is read, the name is read as an operand too. -/
theorem gives_primary_name {name : String} (hk : s.current.kind = .identifier name ∨
    s.current.kind = .keyword .kwAsync ∧ name = Keyword.kwAsync.text)
    (hends : s.next.current.kind.endsTarget = true) :
    Gives g.primary c s fun o s' => s.next.counted = s' ∧
      o.node = s.next.made (.identifier name) s.current.span.start := by
  refine .bind (.here (.step (P := fun b s' => b = false ∧ s = s') ?_ ?_))
  · refine .bind (.peek (.bind (.seesWord (.pure ⟨?_, rfl⟩))))
    have hnot : (nextToken s.behind).1.kind ≠ .keyword .kwFunction :=
      TokenKind.ne_of_endsTarget hends rfl
    simp [hnot]
  rintro _ _ ⟨rfl, rfl⟩
  refine .iteFalse nofun (.bind (.current ?_))
  rcases hk with hk | ⟨hk, rfl⟩
  all_goals
    rw [hk]
    exact .bind (.bind (.get (.pure (.bind (.advance (.bind (.made (.pure ⟨rfl, rfl⟩))))))))

theorem ensures_bindingName : Ensures bindingName c s fun t s' => IsTarget s t s' ∧
    (s'.current.kind.endsTarget = true →
      Gives g.primary c s fun o s'' => s' = s'' ∧ o.node.ReadsAs t) := by
  have hname : ∀ name, s.current.kind = .identifier name ∨
      s.current.kind = .keyword .kwAsync ∧ name = Keyword.kwAsync.text →
      IsTarget s (s.next.made (.identifier name) s.current.span.start) s.next.counted ∧
        (s.next.counted.current.kind.endsTarget = true → Gives g.primary c s fun o s'' =>
          s.next.counted = s'' ∧
            o.node.ReadsAs (s.next.made (.identifier name) s.current.span.start)) := by
    intro name hk
    refine ⟨⟨?_, fun _ => rfl, fun _ => rfl⟩, fun hends => ?_⟩
    · rcases hk with hk | ⟨hk, -⟩ <;> rw [hk] <;> rfl
    · refine (gives_primary_name hk hends).mono fun o s'' h => ⟨h.1, ?_⟩
      rw [h.2]
      exact fun _ => rfl
  -- words that are no names are refused by the rule for targets
  refine .bind (.here (.bind (.current ?_)))
  split
  · exact .bind (.pure (.bind (.advance (.made (hname _ (.inl ‹_›))))))
  · exact .bind (.pure (.bind (.advance (.made (hname _ (.inr ⟨‹_›, rfl⟩))))))
  · exact .bind (.read (.ite (fun _ => .bind .unexpected) fun _ => .bind .fail))
  · exact .bind .unexpected

/-! ## From targets to expressions -/

/-- Behind a target that was read as an operand the rule for expressions goes on. -/
theorem IsTarget.assignment {t : Node} {s' : State} {Q : Node → State → Prop}
    (ht : IsTarget s t s') (hc : 0 < c.bound) (hends : s'.current.kind.endsTarget = true)
    (h : Gives g.primary c s fun o s'' => s' = s'' ∧ o.node.ReadsAs t)
    (hQ : ∀ o : Operand, o.node.ReadsAs t →
      Gives (g.assigned s.current.span.start o) c s' Q) : Gives g.assignmentRule c s Q := by
  -- a name is a target of one token, so what ends the target stands right behind it
  have hbehind : ∀ {kind : TokenKind}, kind.endsTarget = false →
      s.current.kind.name?.isSome = true → (nextToken s.behind).1.kind ≠ kind := by
    intro kind hkind hname
    rw [ht.name hname]
    exact TokenKind.ne_of_endsTarget hends hkind
  have hoperand : s'.current.kind.endsOperand = true := by
    rw [TokenKind.endsOperand, hends, Bool.or_true]
  refine gives_choice (TokenKind.ne_of_startsOperand ht.starts rfl)
    (fun hasync name => hbehind rfl (by rw [hasync]; rfl)) (hbehind rfl) ?_
  refine gives_conditional ht.starts hc (h.mono ?_)
  rintro o _ ⟨rfl, ho⟩
  exact ⟨hoperand, gives_completed (TokenKind.ne_of_endsTarget hends rfl) (hQ o ho)⟩

/-- A target without a default value is the operand alone. -/
theorem IsTarget.alone {t : Node} {s' : State} (ht : IsTarget s t s') (hc : 0 < c.bound)
    (hends : s'.current.kind.endsItem = true)
    (h : Gives g.primary c s fun o s'' => s' = s'' ∧ o.node.ReadsAs t) :
    Gives g.assignmentRule c s fun e s'' => s' = s'' ∧ e.ReadsAs t := by
  refine ht.assignment hc (TokenKind.endsTarget_of_endsItem hends) h fun o ho => ?_
  have hnone : AssignmentOperator.ofToken? s'.current.kind = none := by
    rcases TokenKind.eq_of_endsItem hends with hk | hk | hk | hk <;> rw [hk] <;> rfl
  refine .bind (.current ?_)
  rw [hnone]
  exact .pure ⟨rfl, ho⟩

/-- A default value is assigned. -/
theorem IsTarget.default {t value : Node} {s1 s2 : State} (ht : IsTarget s t s1)
    (hc : 0 < c.bound) (hequal : s1.current.kind = .punctuator .equal)
    (h : Gives g.primary c s fun o s' => s1 = s' ∧ o.node.ReadsAs t)
    (hvalue : g.assignment c s1.next = .ok (value, s2)) :
    Gives g.assignmentRule c s fun e s' => s2.counted = s' ∧
      e.ReadsAs (s2.made (.assignmentPattern t value) s.current.span.start) := by
  refine ht.assignment hc (by rw [hequal]; rfl) h fun o ho => ?_
  refine .bind (.current ?_)
  rw [hequal]
  refine .step (P := fun target s' => t = target ∧ s1 = s') ?_ ?_
  · refine .iteTrue rfl ?_
    rw [show o.node.toTarget? = some t from ho false]
    exact .pure ⟨rfl, rfl⟩
  rintro _ _ ⟨rfl, rfl⟩
  refine .bind (.advance (.bind ⟨_, _, hvalue, .made ⟨rfl, fun b => ?_⟩⟩))
  rw [State.made, Node.target_assignment, ht.settled b]
  rfl

end

/-! ## Patterns -/

/-- Targets are read as expressions by the rules of a grammar: with a default value or without one,
and names alone. -/
structure Grammar.CoversTargets (source : List Char) (n : Nat) (g : Grammar) : Prop where
  element : Covers source n (fun _ => TokenKind.endsItem) g.bindingElement g.assignment
    fun t e => e.ReadsAs t
  target : Covers source n (fun _ => TokenKind.endsItem) g.bindingTarget g.assignment
    fun t e => e.ReadsAs t
  name : Covers source n (fun _ => TokenKind.endsItem) bindingName g.assignment
    fun t e => e.ReadsAs t

/-- The state behind the comma that parts two items, or the same state where the list ends. -/
def State.pastComma (s : State) (ends : Punctuator) : State :=
  if s.current.kind = .punctuator ends then s else s.next

/-- An item of a list ends with a comma or with the list. -/
def TokenKind.partsItems (ends : Punctuator) (kind : TokenKind) : Prop :=
  kind = .punctuator ends ∨ kind = .punctuator .comma

section

variable {c : Context} {s : State} {ends : Punctuator} {Q : Unit → State → Prop}

theorem Ensures.pastComma (h : s.current.kind.partsItems ends → Q () (s.pastComma ends)) :
    Ensures (Grammar.commaUnless ends) c s Q := by
  refine .bind (.sees (.ite (fun hb => .pure ?_) fun hb => .expect fun hk => ?_))
  · have hq := h (.inl (of_decide_eq_true hb))
    rwa [State.pastComma, if_pos (of_decide_eq_true hb)] at hq
  · have hq := h (.inr hk)
    rwa [State.pastComma, if_neg fun he => hb (decide_eq_true he)] at hq

theorem Gives.pastComma (hk : s.current.kind.partsItems ends) (h : Q () (s.pastComma ends)) :
    Gives (Grammar.commaUnless ends) c s Q := by
  refine .bind (.sees ?_)
  rw [State.pastComma] at h
  split at h
  · rename_i he
    exact .iteTrue (decide_eq_true he) (.pure h)
  · rename_i he
    exact .iteFalse (fun hd => he (of_decide_eq_true hd)) (.expect (hk.resolve_left he) h)

end

section

variable {source : List Char} {n d : Nat} {c : Context} {s : State} {g : Grammar}

theorem State.Reached.next_lt (hs : s.Reached source) (hk : s.current.kind.isText = true) :
    s.next.left < s.left := State.left_next_lt hs.placed (hs.text hk)

/-- A rest is read as a spread. -/
theorem covers_restElement {target : Parser Node}
    (h : Covers source n (fun _ => TokenKind.endsItem) target g.assignment
      fun t e => e.ReadsAs t) (start : Nat) :
    Covers source n (fun _ => TokenKind.endsItem) (Grammar.restElement start target)
      (g.assignment >>= fun argument => node (.spreadElement argument) start)
      fun t e => ∀ b, e.patternReading.element b = some t ∧
        e.patternReading.member b = some t := by
  intro c s hs hl hc hin
  refine .step (h c s hs hl hc hin) fun t s1 hcover => .made fun hends => ?_
  obtain ⟨e, _, hrun, rfl, he⟩ := hcover hends
  refine .bind ⟨_, _, hrun, .made ⟨rfl, fun b => ?_⟩⟩
  rw [State.made, Node.element_spread, Node.member_spread, he b]
  exact ⟨rfl, rfl⟩

/-- Where the items of a pattern are read as those of a literal between the same brackets, the
pattern is read as the literal. -/
theorem covers_bracketed {α β : Type} {closes : Punctuator} {item : Parser (List α × Bool)}
    {item' : Parser (List β × Bool)} {R : α → β → Prop} {pattern : List α → Kind Node}
    {literal : List β → Kind Node}
    (hlist : Covers source n (fun _ kind => kind = .punctuator closes)
      (listUntil (· = .punctuator closes) item) (listUntil (· = .punctuator closes) item')
      (List.Forall₂ R))
    (hread : ∀ id span ts es, List.Forall₂ R ts es →
      (Node.mk id span (literal es)).ReadsAs (.mk id span (pattern ts)))
    (hs : s.Reached source) (hl : s.left < n + 1) (hc : s.left < c.bound) (hin : c.allowIn = true)
    (hk : s.current.kind.isText = true) :
    Ensures (do
      let start ← here
      advance
      let ts ← listUntil (· = .punctuator closes) item
      expect closes
      node (pattern ts) start) c s fun t s' => (∃ id span ts, t = .mk id span (pattern ts)) ∧
        Gives (do
          let start ← here
          advance
          let es ← withIn true (listUntil (· = .punctuator closes) item')
          expect closes
          node (literal es) start) c s fun e s'' => s' = s'' ∧ e.ReadsAs t := by
  have hlt := hs.next_lt hk
  have hitems := hlist c s.next (hs.next hk) (by omega) (by omega) hin
  refine .bind (.here (.bind (.advance (.step hitems fun ts s1 hcover => ?_))))
  refine .bind (.expect fun hend => .made ⟨⟨_, _, ts, rfl⟩, ?_⟩)
  obtain ⟨es, _, hrun, rfl, hall⟩ := hcover (decide_eq_true hend)
  refine .bind (.here (.bind (.advance (.bind (.withInAgain hin ⟨es, s1, hrun, ?_⟩)))))
  exact .bind (.expect hend (.made ⟨rfl, hread _ _ _ _ hall⟩))

theorem Grammar.IsItem.moves {α : Type} {item : Parser (List α × Bool)}
    (h : (Grammar.ofDepth d).IsItem item) (hs : s.Reached source) (hc : s.left < c.bound) :
    Ensures item c s fun _ s' => s'.Reached source ∧ s'.left + 1 ≤ s.left := by
  obtain ⟨f, hf⟩ := h.follows (follows_beside source (s.left + 1) d)
  exact hf.moves hs hc

/-! ### Arrays -/

theorem covers_elementItem (hg : g.CoversTargets source n) :
    Covers source n (fun r kind => r.2 || kind = .punctuator .rightBracket) g.elementItem
      g.arrayItem fun r r' => List.Forall₂ (fun t e => ∀ b, Node.readHole b e = some t) r.1 r'.1 ∧
        (r.2 = true → r'.2 = true) := by
  intro c s hs hl hc hin
  refine .bind (.eat (fun hk => .ite (fun _ => .pure fun _ => ?_) (absurd rfl)) fun hcomma =>
    .ite nofun fun _ => ?_)
  · exact .bind (.eat hk (.iteTrue rfl (.pure ⟨rfl, .cons (fun _ => rfl) .nil, fun _ => rfl⟩)))
  refine .bind (.here (.bind (.eat (fun hdots => .ite (fun _ => ?_) (absurd rfl)) fun hdots =>
    .ite nofun fun _ => ?_)))
  · have htext : s.current.kind.isText = true := by rw [hdots]; rfl
    have hlt := hs.next_lt htext
    refine .step (covers_restElement hg.target _ c s.next (hs.next htext) (by omega) (by omega)
      hin) fun t s1 hcover => .pure fun hends => ?_
    have hbracket : s1.current.kind = .punctuator .rightBracket := of_decide_eq_true hends
    obtain ⟨e, _, hrun, rfl, he⟩ := hcover (by rw [hbracket]; rfl)
    have hspread : Gives g.spreadOrAssignment c s fun e' s' => e = e' ∧ s1 = s' :=
      .bind (.here (.bind (.eat hdots (.iteTrue rfl ⟨_, _, hrun, rfl, rfl⟩))))
    -- nothing stands behind a rest, so the bracket is next
    refine .bind (.eatNot hcomma (.iteFalse nofun (.step hspread ?_)))
    rintro _ _ ⟨rfl, rfl⟩
    refine .bind (.pastComma (.inl hbracket) ?_)
    rw [State.pastComma, if_pos hbracket]
    refine .pure ⟨rfl, .cons (fun b => ?_) .nil, nofun⟩
    rw [Node.readHole, (he b).1]
    rfl
  · refine .step (hg.element c s hs hl hc hin) fun t s1 hcover => .bind (.pastComma fun hends => ?_)
    refine .pure fun _ => ?_
    obtain ⟨e, _, hrun, rfl, he⟩ := hcover (by rcases hends with hk | hk <;> rw [hk] <;> rfl)
    have hplain : Gives g.spreadOrAssignment c s fun e' s' => e = e' ∧ s1 = s' :=
      .bind (.here (.bind (.eatNot hdots (.iteFalse nofun ⟨_, _, hrun, rfl, rfl⟩))))
    refine .bind (.eatNot hcomma (.iteFalse nofun (.step hplain ?_)))
    rintro _ _ ⟨rfl, rfl⟩
    refine .bind (.pastComma hends (.pure ⟨rfl, .cons (fun b => ?_) .nil, fun _ => rfl⟩))
    rw [Node.readHole, he.element b]
    rfl

theorem covers_arrayPattern (hg : (Grammar.ofDepth d).CoversTargets source n)
    (hs : s.Reached source) (hl : s.left < n + 1) (hc : s.left < c.bound) (hin : c.allowIn = true)
    (hk : s.current.kind = .punctuator .leftBracket) :
    Ensures (Grammar.ofDepth d).arrayPattern c s fun t s' => IsTarget s t s' ∧
      Gives (Grammar.ofDepth d).primary c s fun o s'' => s' = s'' ∧ o.node.ReadsAs t := by
  have hread : ∀ id span ts es,
      List.Forall₂ (fun t e => ∀ b, Node.readHole b e = some t) ts es →
        (Node.mk id span (.arrayExpression es)).ReadsAs (.mk id span (.arrayPattern ts)) := by
    intro id span ts es hall b
    rw [Node.target_array, mapM_eq_some.mpr ((hall.imp fun t e h => h b).flip)]
    rfl
  rw [Grammar.arrayPattern_eq]
  refine (covers_bracketed (covers_listUntil (fun _ _ => Grammar.IsItem.element.moves)
    (covers_elementItem hg)) hread hs hl hc hin (by rw [hk]; rfl)).mono ?_
  rintro _ s' ⟨⟨id, span, ts, rfl⟩, hliteral⟩
  refine ⟨⟨by rw [hk]; rfl, by rw [hk]; exact nofun, fun b => Node.target_pattern (.inl rfl)⟩, ?_⟩
  refine .bind (.here (.bind (.startsAsyncFunction (by rw [hk]; exact nofun) ?_)))
  refine .iteFalse nofun (.bind (.current ?_))
  rw [hk]
  exact .bind (hliteral.mono fun e s'' h => .pure h)

/-! ### Objects -/

/-- Where a property is read whose name no modifier is, there are no modifiers. -/
theorem gives_modifiers {Q : Grammar.Modifiers → State → Prop}
    (hstar : s.current.kind ≠ .punctuator .star)
    (hname : s.current.kind.name?.isSome = true → (nextToken s.behind).1.kind.endsName = true)
    (h : Q ⟨false, false, .plain⟩ s) : Gives Grammar.modifiers c s Q := by
  refine .step (P := fun b s' => b = false ∧ s = s') ?_ ?_
  · have htest : Gives (do return (← seesWord .kwAsync) && !(← Grammar.modifierIsName) &&
        !(← peek).newlineBefore) c s fun b s' => b = false ∧ s = s' := by
      refine .bind (.seesWord (.bind ⟨_, _, modifierIsName_eq c s, ?_⟩))
      refine .bind (.peek (.pure ⟨?_, rfl⟩))
      by_cases hk : s.current.kind = .keyword .kwAsync
      · rw [hname (by rw [hk]; rfl)]
        simp
      · rw [decide_eq_false hk]
        rfl
    refine .step htest ?_
    rintro _ _ ⟨rfl, rfl⟩
    exact .iteFalse nofun (.pure ⟨rfl, rfl⟩)
  rintro _ _ ⟨rfl, rfl⟩
  refine .bind (.eatNot hstar (.bind ⟨_, _, modifierIsName_eq c s, ?_⟩))
  by_cases hends : (nextToken s.behind).1.kind.endsName = true
  · exact .iteTrue hends (.pure h)
  -- `get` and `set` are names, so behind them the key would end
  have hnot : ∀ name, s.current.kind ≠ .identifier name := by
    intro name hk
    exact hends (hname (by rw [hk]; rfl))
  have heat : ∀ name, Gives (eatName name) c s fun b s' => b = false ∧ s = s' := fun name =>
    .bind (.seesName (.iteFalse (fun hd => hnot _ (of_decide_eq_true hd)) (.pure ⟨rfl, rfl⟩)))
  refine .iteFalse hends (.step (heat "get") ?_)
  rintro _ _ ⟨rfl, rfl⟩
  refine .iteFalse nofun (.step (heat "set") ?_)
  rintro _ _ ⟨rfl, rfl⟩
  exact .iteFalse nofun (.pure h)

/-- A key is no asterisk, and a name is a key of one token. -/
theorem ensures_propertyKey_front : Ensures g.propertyKey c s fun _ s' =>
    s.current.kind ≠ .punctuator .star ∧
      (s.current.kind.name?.isSome = true → s' = s.next.counted) := by
  refine .bind (.here (.bind (.eat (fun hk => .ite (fun _ => ?_) (absurd rfl)) fun _ =>
    .ite nofun fun _ => ?_)))
  · refine .bind (.withIn fun key s1 _ => .bind (.expect fun _ => .pure ?_))
    rw [hk]
    exact ⟨nofun, nofun⟩
  · refine .bind (.current (.bind (.currentText ?_)))
    split
    · rename_i hk
      refine .bind (.pure (.bind (.advance (.bind (.made (.pure ⟨?_, fun _ => rfl⟩))))))
      intro hstar
      rw [hstar] at hk
      cases hk
    · rename_i hk
      refine .bind (.pure (.bind (.advance (.bind (.made (.pure ⟨?_, fun _ => rfl⟩))))))
      rw [hk]
      exact nofun
    · rename_i hk _
      refine .bind (.pure (.bind (.advance (.bind (.made (.pure ⟨?_, fun _ => rfl⟩))))))
      intro hstar
      rw [hstar] at hk
      cases hk
    · exact .bind .unexpected

/-- A shorthand value is a target already. -/
theorem ensures_shorthandValue_front (key : Node) :
    Ensures (g.shorthandValue key) c s fun v s' => v.ReadsAs v ∧
      (s.current.kind = .punctuator .equal ∨ s'.current = s.current) := by
  refine .ite (fun _ => .bind .fail) fun _ => .bind (.nodeAt ?_)
  refine .bind (.eat (fun hk => .ite (fun _ => ?_) (absurd rfl)) fun _ =>
    .ite nofun fun _ => .pure ⟨fun _ => rfl, .inr rfl⟩)
  exact .bind fun right s1 _ => .made ⟨fun _ => rfl, .inl hk⟩

/-- A member of an object from behind its key on, if it is no method. -/
def Grammar.valueMember (g : Grammar) (start : Nat) (short : Bool) (key : Node)
    (computed : Bool) : Parser Node := do
  if ← eat .colon then
    let value ← g.assignment
    return ← node (.property key value .plain computed false false) start
  if !short || computed then unexpected
  let value ← g.shorthandValue key
  node (.property key value .plain false true false) start

/-- Where the token behind a key shows that the key has no modifiers and is none of a method, a
value is read. -/
theorem gives_objectMember {short computed : Bool} {key : Node} {s1 : State}
    {Q : Node → State → Prop} (hdots : s.current.kind ≠ .punctuator .ellipsis)
    (hshort : atBindingName c s = .ok (short, s))
    (hkey : g.propertyKey c s = .ok ((key, computed), s1))
    (hends : s1.current.kind.endsName = true) (hparen : s1.current.kind ≠ .punctuator .leftParen)
    (h : Gives (g.valueMember s.current.span.start short key computed) c s1 Q) :
    Gives g.objectMember c s Q := by
  obtain ⟨hstar, hname⟩ := ensures_propertyKey_front _ _ hkey
  refine .bind (.here (.bind (.eatNot hdots (.iteFalse nofun (.bind ?_)))))
  refine gives_modifiers hstar (fun hk => ?_) (.bind ⟨_, _, hshort, .bind ⟨_, _, hkey, ?_⟩⟩)
  · rw [hname hk] at hends
    exact hends
  · exact .bind (.sees (.iteFalse (by simp [hparen]) h))

/-- A property of a pattern is read as a member of an object. -/
theorem covers_patternProperty (hg : (Grammar.ofDepth d).CoversTargets source n)
    (hs : s.Reached source) (hl : s.left < n) (hc : s.left < c.bound) (hin : c.allowIn = true)
    (hdots : s.current.kind ≠ .punctuator .ellipsis) :
    Ensures ((Grammar.ofDepth d).patternProperty s.current.span.start) c s fun t s' =>
      s'.current.kind.partsItems .rightBrace →
        Gives (Grammar.ofDepth d).objectMember c s fun e s'' => s' = s'' ∧
          ∀ b, e.patternReading.member b = some t := by
  have hmoves := (follows_propertyKey (follows_beside source (s.left + 1) d)).moves hs hc
  refine .step (P := fun short s' => atBindingName c s = .ok (short, s) ∧ s = s') ?_ ?_
  · refine (Ensures.self.and (.atBindingName (Q := fun _ s' => s = s') (fun _ => rfl) rfl)).mono ?_
    rintro short _ ⟨hrun, rfl⟩
    exact ⟨hrun, rfl⟩
  rintro short _ ⟨hshort, rfl⟩
  refine .step (Ensures.self.and hmoves) ?_
  rintro ⟨key, computed⟩ s1 ⟨hkey, hs1, hlt⟩
  have hends : ∀ {kind : TokenKind}, kind.partsItems .rightBrace → kind.endsItem = true ∧
      kind.endsName = true ∧ kind ≠ .punctuator .leftParen := by
    rintro kind (rfl | rfl) <;> exact ⟨rfl, rfl, nofun⟩
  refine .bind (.eat (fun hk => .ite (fun _ => ?_) (absurd rfl)) fun hk => .ite nofun fun _ =>
    .ite (fun hplain => ?_) fun _ => .bind .unexpected)
  -- a value of its own stands behind a colon
  · have hnext := hs1.next_lt (by rw [hk]; rfl)
    refine .step (hg.element c s1.next (hs1.next (by rw [hk]; rfl)) (by omega) (by omega) hin) ?_
    intro t s2 hcover
    refine .bind (.pure (.made fun hparts => ?_))
    obtain ⟨e, _, hrun, rfl, he⟩ := hcover (hends hparts).1
    refine gives_objectMember hdots hshort hkey (by rw [hk]; rfl) (by rw [hk]; exact nofun) ?_
    refine .bind (.eat hk (.iteTrue rfl (.bind ⟨_, _, hrun, .made ⟨rfl, fun b => ?_⟩⟩)))
    rw [State.made, Node.member_property, he b]
    rfl
  -- a name that stands for key and value may have a default value
  · rw [Bool.and_eq_true, Bool.not_eq_true'] at hplain
    obtain ⟨rfl, rfl⟩ := hplain
    refine .step (Ensures.self.and (ensures_shorthandValue_front key)) ?_
    rintro value s2 ⟨hvalue, hsettled, hbehind⟩
    refine .bind (.pure (.made fun hparts => ?_))
    obtain ⟨hname, hparen⟩ : s1.current.kind.endsName = true ∧
        s1.current.kind ≠ .punctuator .leftParen := by
      rcases hbehind with hequal | hsame
      · rw [hequal]
        exact ⟨rfl, nofun⟩
      · exact hsame ▸ (hends hparts).2
    refine gives_objectMember hdots hshort hkey hname hparen ?_
    refine .bind (.eatNot hk (.iteFalse nofun (.iteFalse nofun ?_)))
    refine .bind ⟨_, _, hvalue, .made ⟨rfl, fun b => ?_⟩⟩
    rw [State.made, Node.member_property, hsettled b]
    rfl

theorem covers_propertyItem (hg : (Grammar.ofDepth d).CoversTargets source n) :
    Covers source n (fun r kind => r.2 || kind = .punctuator .rightBrace)
      (Grammar.ofDepth d).propertyItem (Grammar.ofDepth d).objectItem fun r r' =>
        List.Forall₂ (fun t e => ∀ b, e.patternReading.member b = some t) r.1 r'.1 ∧
          (r.2 = true → r'.2 = true) := by
  intro c s hs hl hc hin
  refine .bind (.here (.bind (.eat (fun hdots => .ite (fun _ => ?_) (absurd rfl)) fun hdots =>
    .ite nofun fun _ => ?_)))
  · have htext : s.current.kind.isText = true := by rw [hdots]; rfl
    have hlt := hs.next_lt htext
    refine .step (covers_restElement hg.name _ c s.next (hs.next htext) (by omega) (by omega)
      hin) fun t s1 hcover => .pure fun hends => ?_
    have hbrace : s1.current.kind = .punctuator .rightBrace := of_decide_eq_true hends
    obtain ⟨e, _, hrun, rfl, he⟩ := hcover (by rw [hbrace]; rfl)
    have hspread : Gives (Grammar.ofDepth d).objectMember c s fun e' s' => e = e' ∧ s1 = s' :=
      .bind (.here (.bind (.eat hdots (.iteTrue rfl ⟨_, _, hrun, rfl, rfl⟩))))
    refine .bind (hspread.mono ?_)
    rintro _ _ ⟨rfl, rfl⟩
    refine .bind (.pastComma (.inl hbrace) ?_)
    rw [State.pastComma, if_pos hbrace]
    exact .pure ⟨rfl, .cons (fun b => (he b).2) .nil, nofun⟩
  · refine .step (covers_patternProperty hg hs hl hc hin hdots) fun t s1 hcover =>
      .bind (.pastComma fun hends => .pure fun _ => ?_)
    obtain ⟨e, _, hrun, rfl, he⟩ := hcover hends
    exact .bind ⟨_, _, hrun, .bind (.pastComma hends
      (.pure ⟨rfl, .cons he .nil, fun _ => rfl⟩))⟩

theorem covers_objectPattern (hg : (Grammar.ofDepth d).CoversTargets source n)
    (hs : s.Reached source) (hl : s.left < n + 1) (hc : s.left < c.bound) (hin : c.allowIn = true)
    (hk : s.current.kind = .punctuator .leftBrace) :
    Ensures (Grammar.ofDepth d).objectPattern c s fun t s' => IsTarget s t s' ∧
      Gives (Grammar.ofDepth d).primary c s fun o s'' => s' = s'' ∧ o.node.ReadsAs t := by
  have hread : ∀ id span ts es,
      List.Forall₂ (fun t e => ∀ b, e.patternReading.member b = some t) ts es →
        (Node.mk id span (.objectExpression es)).ReadsAs (.mk id span (.objectPattern ts)) := by
    intro id span ts es hall b
    rw [Node.target_object, mapM_eq_some.mpr ((hall.imp fun t e h => h b).flip)]
    rfl
  rw [Grammar.objectPattern_eq]
  refine (covers_bracketed (covers_listUntil (fun _ _ => Grammar.IsItem.property.moves)
    (covers_propertyItem hg)) hread hs hl hc hin (by rw [hk]; rfl)).mono ?_
  rintro _ s' ⟨⟨id, span, ts, rfl⟩, hliteral⟩
  refine ⟨⟨by rw [hk]; rfl, by rw [hk]; exact nofun, fun b => Node.target_pattern (.inl rfl)⟩, ?_⟩
  refine .bind (.here (.bind (.startsAsyncFunction (by rw [hk]; exact nofun) ?_)))
  refine .iteFalse nofun (.bind (.current ?_))
  rw [hk]
  exact .bind (hliteral.mono fun e s'' h => .pure h)

/-! ## All depths -/

theorem covers_bindingTargetRule (hg : (Grammar.ofDepth d).CoversTargets source n)
    (hs : s.Reached source) (hl : s.left < n + 1) (hc : s.left < c.bound)
    (hin : c.allowIn = true) :
    Ensures (Grammar.ofDepth d).bindingTargetRule c s fun t s' => IsTarget s t s' ∧
      (s'.current.kind.endsTarget = true →
        Gives (Grammar.ofDepth d).primary c s fun o s'' => s' = s'' ∧ o.node.ReadsAs t) := by
  refine .bind (.current ?_)
  split
  · exact (covers_arrayPattern hg hs hl hc hin ‹_›).mono fun t s' h => ⟨h.1, fun _ => h.2⟩
  · exact (covers_objectPattern hg hs hl hc hin ‹_›).mono fun t s' h => ⟨h.1, fun _ => h.2⟩
  · exact ensures_bindingName

theorem covers_bindingElement (hd : 2 * n + 1 ≤ d)
    (hg : (Grammar.ofDepth d).CoversTargets source n) :
    Covers source (n + 1) (fun _ => TokenKind.endsItem) (Grammar.ofDepth (d + 1)).bindingElement
      (Grammar.ofDepth (d + 1)).assignment fun t e => e.ReadsAs t := by
  intro c s hs hl hc hin
  have hmoves := (follows_bindingTargetRule (follows_beside source s.left d)).moves hs hc
  refine .bind (.here (.step ((covers_bindingTargetRule hg hs hl hc hin).and hmoves) ?_))
  rintro t s1 ⟨⟨ht, hcover⟩, hs1, hlt⟩
  refine .bind (.eat (fun hk => .ite (fun _ => ?_) (absurd rfl)) fun _ =>
    .ite nofun fun _ => .pure fun hends => ?_)
  · have hnext := hs1.next_lt (by rw [hk]; rfl)
    refine .step (Ensures.withIn Ensures.self) fun value s2 hvalue => .made fun _ => ?_
    -- the default value is read a level further down there
    have hagree : Agree s1.next (Grammar.ofDepth (d + 1)).assignment
        (Grammar.ofDepth d).assignment :=
      agree_assignment (by omega) (by omega) (hs1.next (by rw [hk]; rfl))
    have hsame := hagree c (by omega)
    obtain ⟨allowIn, inGenerator, bound⟩ := c
    obtain rfl : allowIn = true := hin
    exact ht.default (by omega) hk (hcover (by rw [hk]; rfl)) (hsame.symm.trans hvalue)
  · exact ht.alone (by omega) hends (hcover (TokenKind.endsTarget_of_endsItem hends))

/-- Targets are read as expressions at every depth that is deep enough. -/
theorem coversTargets_ofDepth (source : List Char) {d n : Nat} (h : 2 * n ≤ d) :
    (Grammar.ofDepth d).CoversTargets source n := by
  -- a pattern inside a pattern is read a level further down, and one character further on
  induction d generalizing n with
  | zero =>
    have hnone : ∀ {p p' : Parser Node},
        Covers source n (fun _ => TokenKind.endsItem) p p' fun t e => e.ReadsAs t :=
      fun c s _ hl => absurd hl (by omega)
    exact ⟨hnone, hnone, hnone⟩
  | succ d ih =>
    cases n with
    | zero =>
      have hnone : ∀ {p p' : Parser Node},
          Covers source 0 (fun _ => TokenKind.endsItem) p p' fun t e => e.ReadsAs t :=
        fun c s _ hl => absurd hl (Nat.not_lt_zero _)
      exact ⟨hnone, hnone, hnone⟩
    | succ n =>
      have hg := ih (n := n) (by omega)
      refine ⟨covers_bindingElement (by omega) hg, fun c s hs hl hc hin => ?_,
        fun c s hs hl hc hin => ?_⟩
      · exact (covers_bindingTargetRule hg hs hl hc hin).mono fun t s' h hends =>
          h.1.alone (by omega) hends (h.2 (TokenKind.endsTarget_of_endsItem hends))
      · exact ensures_bindingName.mono fun t s' h hends =>
          h.1.alone (by omega) hends (h.2 (TokenKind.endsTarget_of_endsItem hends))

/-! ## Parameters -/

/-- Parameters are read as the items of a list in parentheses, and the items become the
parameters. -/
theorem covers_parameterItem (hg : g.CoversTargets source n) :
    Covers source n (fun r kind => r.2 || kind = .punctuator .rightParen) g.parameterItem
      g.parenthesizedItem fun r r' =>
        List.Forall₂ (fun t item => item.1.toParameter? = some t) r.1 r'.1 ∧
          (r.2 = true → r'.2 = true) := by
  intro c s hs hl hc hin
  refine .bind (.here (.bind (.eat (fun hdots => .ite (fun _ => ?_) (absurd rfl)) fun hdots =>
    .ite nofun fun _ => ?_)))
  -- both lists read a rest by the same rule
  · refine .step (P := fun t s1 => t.ReadsAs t ∧
      Grammar.restElement s.current.span.start g.bindingTarget c s.next = .ok (t, s1)) ?_ ?_
    · refine .and ?_ .self
      exact .bind fun target s1 _ => .made fun b => Node.target_pattern (.inr rfl)
    rintro t s1 ⟨ht, hrest⟩
    refine .pure fun _ => ?_
    refine .bind (.here (.bind (.eat hdots (.iteTrue rfl (.bind ⟨_, _, hrest, ?_⟩)))))
    exact .pure ⟨rfl, .cons (ht.element true) .nil, nofun⟩
  · refine .step (hg.element c s hs hl hc hin) fun t s1 hcover => ?_
    refine .bind (.eat (fun hk => .pure fun _ => ?_) fun hk => .pure fun hends => ?_)
    · obtain ⟨e, _, hrun, rfl, he⟩ := hcover (by rw [hk]; rfl)
      refine .bind (.here (.bind (.eatNot hdots (.iteFalse nofun (.bind ⟨_, _, hrun, ?_⟩)))))
      refine .bind (.eat hk (.bind (.sees (.pure ⟨rfl, ?_, fun _ => rfl⟩))))
      exact .cons (he.element true) .nil
    · obtain ⟨e, _, hrun, rfl, he⟩ := hcover (by rw [of_decide_eq_true hends]; rfl)
      refine .bind (.here (.bind (.eatNot hdots (.iteFalse nofun (.bind ⟨_, _, hrun, ?_⟩)))))
      refine .bind (.eatNot hk (.bind (.sees (.pure ⟨rfl, .cons (he.element true) .nil, nofun⟩))))

theorem covers_parameters (source : List Char) (h : 2 * n ≤ d) :
    Covers source n (fun _ kind => kind = .punctuator .rightParen)
      (listUntil (· = .punctuator .rightParen) (Grammar.ofDepth d).parameterItem)
      (Grammar.ofDepth d).parenthesizedItems fun ts marked =>
        (marked.map (·.1)).mapM (·.toParameter?) = some ts := by
  intro c s hs hl hc hin
  have hlist := covers_listUntil (fun _ _ => Grammar.IsItem.parameter.moves)
    (covers_parameterItem (coversTargets_ofDepth source h)) c s hs hl hc hin
  refine hlist.mono fun ts s' hcover hends => ?_
  rw [Grammar.parenthesizedItems_eq]
  refine .withInAgain hin ((hcover hends).mono fun marked s'' hR => ⟨hR.1, ?_⟩)
  exact List.mapM_map.trans (mapM_eq_some.mpr hR.2.flip)

end

end EsModule.Syntax
