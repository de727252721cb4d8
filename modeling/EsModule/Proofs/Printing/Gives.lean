import EsModule.Proofs.Grammar.Reading
import EsModule.Proofs.Printing.Lexeme

/-!
# What a rule gives

`Gives p c s Q` says that the rule `p` comes to an end from the state `s`, with a result that
satisfies `Q` together with the state behind it. Unlike `Ensures`, it has to know which branch a
rule takes, so the lemmas about tokens ask what the current token is.

What is read is compared with what was printed by its `shape`, the tree without its numbers and
spans.
-/

namespace EsModule.Syntax

/-! ## Shapes -/

namespace Node

/-- The tree without its numbers and spans. -/
def shape : Node → Node := fold fun _ _ kind => .mk 0 ⟨0, 0⟩ kind

theorem shape_mk (id : Nat) (span : Span) (kind : Kind Node) :
    (mk id span kind).shape = .mk 0 ⟨0, 0⟩ (kind.map shape) := by
  rw [shape, fold, para_eq, Kind.map_map]
  rfl

theorem shape_kind (n : Node) : n.shape.kind = n.kind.map shape := by
  obtain ⟨id, span, kind⟩ := n
  rw [shape_mk]
  rfl

/-- Two nodes have the same shape if their kinds have, child by child. -/
theorem shape_congr {id id' : Nat} {span span' : Span} {kind kind' : Kind Node}
    (h : kind.map shape = kind'.map shape) :
    (mk id span kind).shape = (mk id' span' kind').shape := by
  rw [shape_mk, shape_mk, h]

/-- The shape tells whether a node can be assigned to and read. -/
theorem isSimpleTarget_of_shape {n m : Node} (h : n.shape = m.shape) :
    n.isSimpleTarget = m.isSimpleTarget := by
  have hkind : ∀ n : Node, n.isSimpleTarget = n.shape.isSimpleTarget := by
    intro n
    rw [isSimpleTarget, isSimpleTarget, shape_kind]
    cases n.kind <;> rfl
  rw [hkind n, hkind m, h]

/-- What can be assigned to and read is a target as it is. -/
theorem toTarget?_of_isSimpleTarget {n : Node} (h : n.isSimpleTarget = true) :
    n.toTarget? = some n := by
  obtain ⟨id, span, kind⟩ := n
  rw [toTarget?, patternReading_eq]
  cases kind with
  | identifier | memberExpression => rfl
  | _ => cases h

end Node

/-! ## The calculus -/

/-- The rule comes to an end, and what it gives satisfies `Q`, together with the state behind it. -/
def Gives {α : Type} (p : Parser α) (c : Context) (s : State) (Q : α → State → Prop) : Prop :=
  ∃ a s', p c s = .ok (a, s') ∧ Q a s'

namespace Gives

variable {α β : Type} {c : Context} {s : State}

theorem mono {p : Parser α} {P Q : α → State → Prop} (h : Gives p c s P)
    (hpq : ∀ a s', P a s' → Q a s') : Gives p c s Q := by
  obtain ⟨a, s', hp, ha⟩ := h
  exact ⟨a, s', hp, hpq a s' ha⟩

theorem pure {a : α} {Q : α → State → Prop} (h : Q a s) : Gives (Pure.pure a) c s Q :=
  ⟨a, s, rfl, h⟩

theorem bind {p : Parser α} {f : α → Parser β} {Q : β → State → Prop}
    (h : Gives p c s fun a s' => Gives (f a) c s' Q) : Gives (p >>= f) c s Q := by
  obtain ⟨a, s', hp, b, s'', hf, hb⟩ := h
  refine ⟨b, s'', ?_, hb⟩
  change Except.bind (p c s) (fun r => f r.1 c r.2) = .ok (b, s'')
  rw [hp]
  exact hf

theorem step {p : Parser α} {f : α → Parser β} {P : α → State → Prop} {Q : β → State → Prop}
    (h : Gives p c s P) (hf : ∀ a s', P a s' → Gives (f a) c s' Q) : Gives (p >>= f) c s Q :=
  bind (h.mono hf)

theorem get {Q : State → State → Prop} (h : Q s s) : Gives MonadState.get c s Q :=
  ⟨s, s, rfl, h⟩

theorem read {Q : Context → State → Prop} (h : Q c s) : Gives MonadReader.read c s Q :=
  ⟨c, s, rfl, h⟩

theorem iteTrue {b : Prop} [Decidable b] {p q : Parser α} {Q : α → State → Prop} (hb : b)
    (h : Gives p c s Q) : Gives (if b then p else q) c s Q := by
  rwa [if_pos hb]

theorem iteFalse {b : Prop} [Decidable b] {p q : Parser α} {Q : α → State → Prop} (hb : ¬ b)
    (h : Gives q c s Q) : Gives (if b then p else q) c s Q := by
  rwa [if_neg hb]

theorem current {Q : Token → State → Prop} (h : Q s.current s) : Gives Parser.current c s Q :=
  bind (get (pure h))

theorem here {Q : Nat → State → Prop} (h : Q s.current.span.start s) : Gives Parser.here c s Q :=
  bind (current (pure h))

theorem withIn {allowIn : Bool} {p : Parser α} {Q : α → State → Prop}
    (h : Gives p { c with allowIn } s Q) : Gives (Parser.withIn allowIn p) c s Q := h

/-! ### Tokens -/

theorem advance {Q : Unit → State → Prop} (h : Q () s.next) : Gives Parser.advance c s Q :=
  ⟨(), s.next, rfl, h⟩

theorem peek {Q : Token → State → Prop} (h : Q (nextToken s.behind).1 s) :
    Gives Parser.peek c s Q := bind (get (pure h))

theorem sees {mark : Punctuator} {Q : Bool → State → Prop}
    (h : Q (decide (s.current.kind = .punctuator mark)) s) : Gives (Parser.sees mark) c s Q :=
  bind (current (pure h))

theorem seesWord {word : Keyword} {Q : Bool → State → Prop}
    (h : Q (decide (s.current.kind = .keyword word)) s) : Gives (Parser.seesWord word) c s Q :=
  bind (current (pure h))

theorem seesName {name : String} {Q : Bool → State → Prop}
    (h : Q (decide (s.current.kind = .identifier name)) s) :
    Gives (Parser.seesName name) c s Q :=
  bind (current (pure h))

/-- A mark that is there is moved over. -/
theorem eat {mark : Punctuator} {Q : Bool → State → Prop}
    (hk : s.current.kind = .punctuator mark) (h : Q true s.next) : Gives (Parser.eat mark) c s Q :=
  bind (sees (iteTrue (decide_eq_true hk) (bind (advance (pure h)))))

/-- A mark that is not there is not. -/
theorem eatNot {mark : Punctuator} {Q : Bool → State → Prop}
    (hk : s.current.kind ≠ .punctuator mark) (h : Q false s) : Gives (Parser.eat mark) c s Q :=
  bind (sees (iteFalse (fun hd => hk (of_decide_eq_true hd)) (pure h)))

theorem eatWord {word : Keyword} {Q : Bool → State → Prop}
    (hk : s.current.kind = .keyword word) (h : Q true s.next) :
    Gives (Parser.eatWord word) c s Q :=
  bind (seesWord (iteTrue (decide_eq_true hk) (bind (advance (pure h)))))

theorem eatWordNot {word : Keyword} {Q : Bool → State → Prop}
    (hk : s.current.kind ≠ .keyword word) (h : Q false s) : Gives (Parser.eatWord word) c s Q :=
  bind (seesWord (iteFalse (fun hd => hk (of_decide_eq_true hd)) (pure h)))

theorem expect {mark : Punctuator} {Q : Unit → State → Prop}
    (hk : s.current.kind = .punctuator mark) (h : Q () s.next) :
    Gives (Parser.expect mark) c s Q :=
  bind (eat hk (iteTrue rfl (pure h)))

theorem expectWord {word : Keyword} {Q : Unit → State → Prop}
    (hk : s.current.kind = .keyword word) (h : Q () s.next) :
    Gives (Parser.expectWord word) c s Q :=
  bind (eatWord hk (iteTrue rfl (pure h)))

theorem semicolon {Q : Unit → State → Prop} (hk : s.current.kind = .punctuator .semicolon)
    (h : Q () s.next) : Gives Parser.semicolon c s Q :=
  bind (eat hk (iteTrue rfl (pure h)))

theorem node {kind : Kind Node} {start : Nat} {Q : Node → State → Prop}
    (h : ∀ span, Q (.mk s.nextId span kind) s.counted) : Gives (Parser.node kind start) c s Q :=
  bind (get ⟨_, _, rfl, h _⟩)

/-! ### Repetitions -/

/-- A round that goes on, or the last one. -/
theorem round {a : α} {step : α → Parser (Round α β)} {bound : Nat} {Q : β → State → Prop}
    (h : Gives (step a) c s fun r s' =>
      match r with
      | .again a' => Gives (Parser.loopWithin step bound a') c s' Q
      | .finish b => Q b s') :
    Gives (Parser.loopWithin step (bound + 1) a) c s Q := by
  refine bind (h.mono fun r s' hr => ?_)
  cases r with
  | again a' => exact hr
  | finish b => exact pure hr

theorem loop {a : α} {step : α → Parser (Round α β)} {Q : β → State → Prop}
    (h : Gives (Parser.loopWithin step c.bound a) c s Q) : Gives (Parser.loop a step) c s Q :=
  bind (read h)

end Gives

end EsModule.Syntax
