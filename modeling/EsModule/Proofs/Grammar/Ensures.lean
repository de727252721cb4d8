import EsModule.Proofs.Tree.Fresh
import EsModule.Proofs.Grammar.Derives

/-!
# What a rule ensures

`Ensures p c s Q` says that whatever the rule `p` reads from the state `s` satisfies `Q` together
with the state behind it; a rule that fails ensures everything. A rule is made of smaller ones by a
few operations, and for each of them there is one lemma that says what it ensures.

A rule keeps two things in order. The current token is the one that is read behind the token before
(`State.Normal`), and the nodes that were made have fresh numbers. Both are in `Made`.
-/

namespace EsModule.Syntax

open EsModule.Text

/-! ## The calculus -/

/-- Whatever `p` gives satisfies `Q`, together with the state behind it. -/
def Ensures {α : Type} (p : Parser α) (c : Context) (s : State) (Q : α → State → Prop) : Prop :=
  ∀ a s', p c s = .ok (a, s') → Q a s'

namespace Ensures

variable {α β : Type} {c : Context} {s : State}

theorem mono {p : Parser α} {P Q : α → State → Prop} (h : Ensures p c s P)
    (hpq : ∀ a s', P a s' → Q a s') : Ensures p c s Q := fun a s' hp => hpq a s' (h a s' hp)

theorem pure {a : α} {Q : α → State → Prop} (h : Q a s) : Ensures (Pure.pure a) c s Q := by
  intro a' s' hp
  obtain ⟨rfl, rfl⟩ := Prod.mk.inj (Except.ok.inj hp)
  exact h

theorem bind {p : Parser α} {f : α → Parser β} {Q : β → State → Prop}
    (h : Ensures p c s fun a s' => Ensures (f a) c s' Q) : Ensures (p >>= f) c s Q := by
  intro b s'' hp
  change Except.bind (p c s) (fun r => f r.1 c r.2) = .ok (b, s'') at hp
  cases hr : p c s with
  | error e =>
    rw [hr] at hp
    cases hp
  | ok r =>
    obtain ⟨a, s'⟩ := r
    rw [hr] at hp
    exact h a s' hr b s'' hp

theorem fail {fault : SyntaxFault} {Q : α → State → Prop} : Ensures (Parser.fail fault) c s Q := by
  intro a s' hp
  cases hp

theorem get {Q : State → State → Prop} (h : Q s s) : Ensures MonadState.get c s Q := by
  intro a s' hp
  obtain ⟨rfl, rfl⟩ := Prod.mk.inj (Except.ok.inj hp)
  exact h

theorem read {Q : Context → State → Prop} (h : Q c s) : Ensures MonadReader.read c s Q := by
  intro a s' hp
  obtain ⟨rfl, rfl⟩ := Prod.mk.inj (Except.ok.inj hp)
  exact h

theorem ite {b : Prop} [Decidable b] {p q : Parser α} {Q : α → State → Prop}
    (hp : b → Ensures p c s Q) (hq : ¬ b → Ensures q c s Q) :
    Ensures (if b then p else q) c s Q := by
  split
  · exact hp ‹_›
  · exact hq ‹_›

theorem current {Q : Token → State → Prop} (h : Q s.current s) : Ensures Parser.current c s Q :=
  bind (get (pure h))

theorem here {Q : Nat → State → Prop} (h : Q s.current.span.start s) :
    Ensures Parser.here c s Q :=
  bind (current (pure h))

theorem unexpected {Q : α → State → Prop} : Ensures Parser.unexpected c s Q := by
  refine bind (current ?_)
  split
  · exact fail
  · exact fail
  · exact bind fun _ _ _ => fail

theorem step {p : Parser α} {f : α → Parser β} {P : α → State → Prop} {Q : β → State → Prop}
    (h : Ensures p c s P) (hf : ∀ a s', P a s' → Ensures (f a) c s' Q) :
    Ensures (p >>= f) c s Q := bind (h.mono hf)

theorem withIn {allowIn : Bool} {p : Parser α} {Q : α → State → Prop}
    (h : Ensures p { c with allowIn } s Q) : Ensures (Parser.withIn allowIn p) c s Q := h

theorem inFunction {isGenerator : Bool} {p : Parser α} {Q : α → State → Prop}
    (h : Ensures p { c with allowIn := true, inGenerator := isGenerator } s Q) :
    Ensures (Parser.inFunction isGenerator p) c s Q := h

theorem loop {a : α} {step : α → Parser (Round α β)} {Q : β → State → Prop}
    (I : α → State → Prop) (h0 : I a s)
    (hstep : ∀ a s, I a s → Ensures (step a) c s fun r s' =>
      match r with
      | .again a => I a s'
      | .finish b => Q b s') : Ensures (Parser.loop a step) c s Q := by
  have hwithin : ∀ bound a s, I a s → Ensures (Parser.loopWithin step bound a) c s Q := by
    intro bound
    induction bound with
    | zero => exact fun _ _ _ => fail
    | succ bound ih =>
      intro a s ha
      refine Ensures.step (hstep a s ha) fun r s' hr => ?_
      cases r with
      | again a => exact ih a s' hr
      | finish b => exact pure hr
  exact bind (read (hwithin _ a s h0))

theorem listUntil {ends : TokenKind → Bool} {item : Parser (List α × Bool)}
    {Q : List α → State → Prop} (I : List α → State → Prop) (h0 : I [] s)
    (hend : ∀ acc s, I acc s → Q acc s)
    (hitem : ∀ acc s, I acc s → Ensures item c s fun r s' =>
      if r.2 then I (acc ++ r.1) s' else Q (acc ++ r.1) s') :
    Ensures (Parser.listUntil ends item) c s Q := by
  refine loop I h0 fun acc s hacc => ?_
  refine bind (current (ite (fun _ => pure (hend acc s hacc)) fun _ => ?_))
  refine step (hitem acc s hacc) fun r s' hr => ?_
  obtain ⟨more, goesOn⟩ := r
  cases goesOn with
  | true => exact pure hr
  | false => exact pure hr

end Ensures

/-! ## Moving on -/

namespace State

/-- Whether the current token is the one that is read behind the token before. -/
def Normal (s : State) : Prop := nextToken s.before = (s.current, s.behind)

/-- The state at the next token. -/
def next (s : State) : State :=
  { s with
    current := (nextToken s.behind).1
    before := s.behind
    behind := (nextToken s.behind).2
    previous := s.current.span
    read := s.current :: s.read }

/-- The state after one more node was made. -/
def counted (s : State) : State := { s with nextId := s.nextId + 1 }

theorem normal_next (s : State) : s.next.Normal := rfl

end State

namespace Ensures

variable {α : Type} {c : Context} {s : State}

theorem advance {Q : Unit → State → Prop} (h : Q () s.next) : Ensures Parser.advance c s Q := by
  intro a s' hp
  obtain ⟨rfl, rfl⟩ := Prod.mk.inj (Except.ok.inj hp)
  exact h

theorem peek {Q : Token → State → Prop} (h : Q (nextToken s.behind).1 s) :
    Ensures Parser.peek c s Q := bind (get (pure h))

theorem sees {mark : Punctuator} {Q : Bool → State → Prop}
    (h : Q (decide (s.current.kind = .punctuator mark)) s) : Ensures (Parser.sees mark) c s Q :=
  bind (current (pure h))

theorem seesWord {word : Keyword} {Q : Bool → State → Prop}
    (h : Q (decide (s.current.kind = .keyword word)) s) : Ensures (Parser.seesWord word) c s Q :=
  bind (current (pure h))

theorem seesName {name : String} {Q : Bool → State → Prop}
    (h : Q (decide (s.current.kind = .identifier name)) s) :
    Ensures (Parser.seesName name) c s Q :=
  bind (current (pure h))

/-- A test of the current token that moves over it where it holds. -/
theorem eatIf {test : Parser Bool} {Q : Bool → State → Prop}
    (ht : Ensures test c s fun _ s' => s' = s) (h1 : Q true s.next) (h0 : Q false s) :
    Ensures (Parser.eatIf test) c s Q := by
  refine step ht ?_
  rintro b s' rfl
  exact ite (fun _ => bind (advance (pure h1))) fun _ => pure h0

theorem eat {mark : Punctuator} {Q : Bool → State → Prop}
    (h1 : s.current.kind = .punctuator mark → Q true s.next)
    (h0 : s.current.kind ≠ .punctuator mark → Q false s) : Ensures (Parser.eat mark) c s Q := by
  refine bind (sees (ite (fun h => bind (advance (pure (h1 ?_)))) fun h => pure (h0 ?_)))
  · exact of_decide_eq_true h
  · exact fun hk => h (decide_eq_true hk)

theorem eatWord {word : Keyword} {Q : Bool → State → Prop}
    (h1 : s.current.kind = .keyword word → Q true s.next)
    (h0 : s.current.kind ≠ .keyword word → Q false s) :
    Ensures (Parser.eatWord word) c s Q := by
  refine bind (seesWord (ite (fun h => bind (advance (pure (h1 ?_)))) fun h => pure (h0 ?_)))
  · exact of_decide_eq_true h
  · exact fun hk => h (decide_eq_true hk)

theorem eatName {name : String} {Q : Bool → State → Prop}
    (h1 : s.current.kind = .identifier name → Q true s.next)
    (h0 : s.current.kind ≠ .identifier name → Q false s) :
    Ensures (Parser.eatName name) c s Q := by
  refine bind (seesName (ite (fun h => bind (advance (pure (h1 ?_)))) fun h => pure (h0 ?_)))
  · exact of_decide_eq_true h
  · exact fun hk => h (decide_eq_true hk)

theorem expect {mark : Punctuator} {Q : Unit → State → Prop}
    (h : s.current.kind = .punctuator mark → Q () s.next) : Ensures (Parser.expect mark) c s Q :=
  bind (eat (fun hk => ite (fun _ => pure (h hk)) (absurd rfl))
    fun _ => ite (fun hb => nomatch hb) fun _ => unexpected)

theorem expectWord {word : Keyword} {Q : Unit → State → Prop}
    (h : s.current.kind = .keyword word → Q () s.next) :
    Ensures (Parser.expectWord word) c s Q :=
  bind (eatWord (fun hk => ite (fun _ => pure (h hk)) (absurd rfl))
    fun _ => ite (fun hb => nomatch hb) fun _ => unexpected)

theorem expectName {name : String} {Q : Unit → State → Prop}
    (h : s.current.kind = .identifier name → Q () s.next) :
    Ensures (Parser.expectName name) c s Q :=
  bind (eatName (fun hk => ite (fun _ => pure (h hk)) (absurd rfl))
    fun _ => ite (fun hb => nomatch hb) fun _ => fail)

theorem semicolon {Q : Unit → State → Prop} (h1 : Q () s.next) (h0 : Q () s) :
    Ensures Parser.semicolon c s Q := by
  refine bind (eat (fun _ => ite (fun _ => pure h1) (absurd rfl)) fun _ => ite nofun fun _ => ?_)
  exact bind (current (ite (fun _ => pure h0) fun _ => unexpected))

theorem nodeAt {kind : Kind Node} {span : Span} {Q : Node → State → Prop}
    (h : Q (.mk s.nextId span kind) s.counted) : Ensures (Parser.nodeAt kind span) c s Q := by
  intro a s' hp
  obtain ⟨rfl, rfl⟩ := Prod.mk.inj (Except.ok.inj hp)
  exact h

theorem node {kind : Kind Node} {start : Nat} {Q : Node → State → Prop}
    (h : ∀ span, Q (.mk s.nextId span kind) s.counted) :
    Ensures (Parser.node kind start) c s Q := bind (get (nodeAt (h _)))

theorem atBindingName {Q : Bool → State → Prop}
    (h1 : (∃ name, s.current.kind = .identifier name) ∨ s.current.kind = .keyword .kwAsync →
      Q true s) (h0 : Q false s) : Ensures Parser.atBindingName c s Q := by
  refine bind (current ?_)
  split
  · rename_i name hk
    exact pure (h1 (.inl ⟨name, hk⟩))
  · rename_i hk
    exact pure (h1 (.inr hk))
  · exact pure h0

end Ensures

/-! ## What was made -/

/-- Between two states the trees `ns` were made, all of whose nodes are new. -/
structure Made (s s' : State) (ns : List Node) : Prop where
  /-- The token to look at is the one that follows. -/
  normal : s'.Normal
  /-- All numbers were given out in between. -/
  within : Within s.nextId s'.nextId (idsOf ns)

namespace Made

variable {s s' s'' : State} {ns ms : List Node}

theorem start (h : s.Normal) : Made s s [] := ⟨h, .nil (Nat.le_refl _)⟩

theorem next (h : Made s s' ns) : Made s s'.next ns := ⟨s'.normal_next, h.within⟩

theorem append (h : Made s s' ns) (h' : Made s' s'' ms) : Made s s'' (ns ++ ms) :=
  ⟨h'.normal, idsOf_append ns ms ▸ h.within.append h'.within⟩

/-- A new node takes over the trees that were made as its children. -/
theorem node (h : Made s s' ns) {k : Kind Node} (hk : k.children = ns) (span : Span) :
    Made s s'.counted [.mk s'.nextId span k] := by
  refine ⟨h.normal, ?_⟩
  rw [idsOf_singleton]
  show Within _ (s'.nextId + 1) (s'.nextId :: idsOf k.children)
  rw [hk]
  exact h.within.cons

end Made

/-- A rule that reads nodes of one nonterminal. -/
def Sound (nt : Nonterminal) (p : Parser Node) : Prop :=
  ∀ c s, s.Normal → Ensures p c s fun n s' => Made s s' [n] ∧ Derives c.inGenerator nt n

/-! ## Names -/

/-- What a normal state says of the token it looks at. -/
theorem State.Normal.tokenHere {s : State} (h : s.Normal) :
    Syntax.tokenHere (skipTrivia s.before).2 = (s.current.kind, s.behind) ∧
      s.current.span.stop = s.behind.pos := by
  rw [State.Normal, nextToken_eq] at h
  obtain ⟨h1, h2⟩ := Prod.mk.inj h
  refine ⟨Prod.ext ?_ h2, ?_⟩
  · rw [← h1]
  · rw [← h1, ← h2]

theorem State.Normal.isOwnName {s : State} (h : s.Normal) {name : String}
    (hk : s.current.kind = .identifier name) : IsOwnName name :=
  tokenHere_identifier (hk ▸ h.tokenHere.1)

theorem State.Normal.isPrivateName {s : State} (h : s.Normal) {name : String}
    (hk : s.current.kind = .privateName name) : IsPrivateName name :=
  tokenHere_privateName (hk ▸ h.tokenHere.1)

theorem State.Normal.isAnyName {s : State} (h : s.Normal) {name : String}
    (hk : s.current.kind.name? = some name) : IsAnyName name := by
  unfold TokenKind.name? at hk
  split at hk
  · rename_i own hown
    obtain rfl := Option.some.inj hk
    exact (h.isOwnName hown).1
  · rename_i word _
    obtain rfl := Option.some.inj hk
    exact word.isIdentifierName
  · cases hk

theorem sound_bindingName : Sound .name Parser.bindingName := by
  intro c s hs
  have hm := (Made.start hs).next
  refine .bind (.here (.bind (.current ?_)))
  split
  · rename_i name hk
    refine .bind (.pure (.bind (.advance (.node fun span => ?_))))
    exact ⟨hm.node rfl span, .name (.inr (hs.isOwnName hk))⟩
  · refine .bind (.pure (.bind (.advance (.node fun span => ?_))))
    exact ⟨hm.node rfl span, .name (.inl rfl)⟩
  · exact .bind (.read (.ite (fun _ => .bind .unexpected) fun _ => .bind .fail))
  · exact .bind .unexpected

/-- A name that stands where any name may stand. -/
theorem ensures_anyName {c : Context} {s : State} (hs : s.Normal) :
    Ensures Parser.anyName c s fun name s' => s' = s.next ∧ IsAnyName name := by
  refine .bind (.current ?_)
  split
  · rename_i name hk
    exact .bind (.advance (.pure ⟨rfl, hs.isAnyName hk⟩))
  · exact .unexpected

end EsModule.Syntax
