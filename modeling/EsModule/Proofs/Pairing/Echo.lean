import EsModule.Proofs.Grammar.Rounds
import EsModule.Proofs.Pairing.Basic

/-!
# One run goes along with another

`Echoes` says that the second run of a pairing goes along with the first one: if that comes to an
end, so does this, and what it gives is the same, with other numbers and places. It also counts how
much is left to read. A rule that starts where less than `l` characters are left ends where less
than `m` are, so one that moves over a token ends below where it started. There every repetition has
rounds enough, for in each round it moves over a token.

For each operation that rules are made of there is one lemma that says how it echoes. Lemmas about
what asks for the token and goes on are stated for both together, so that the state is known where
the rule goes on. A rule `Follows` if it echoes wherever it starts.
-/

namespace EsModule.Syntax

open EsModule.Text

/-- Contexts that differ in nothing but their bounds, and these are no bounds from the state on. -/
structure Context.Suits (s : State) (c c' : Context) : Prop where
  allowIn : c'.allowIn = c.allowIn
  inGenerator : c'.inGenerator = c.inGenerator
  bound : s.left < c.bound
  bound' : s.left < c'.bound

theorem Context.Suits.mono {s s' : State} {c c' : Context} (h : c.Suits s c')
    (hle : s'.left ≤ s.left) : c.Suits s' c' :=
  ⟨h.allowIn, h.inGenerator, Nat.lt_of_le_of_lt hle h.bound, Nat.lt_of_le_of_lt hle h.bound'⟩

/-- Bounds above the length of the source are no bounds. -/
theorem State.Placed.suits {source : List Char} {s : State} (h : s.Placed source)
    {allowIn inGenerator : Bool} {bound bound' : Nat} (hbound : source.length < bound)
    (hbound' : source.length < bound') :
    Context.Suits s ⟨allowIn, inGenerator, bound⟩ ⟨allowIn, inGenerator, bound'⟩ :=
  ⟨rfl, rfl, Nat.lt_of_le_of_lt h.left_le hbound, Nat.lt_of_le_of_lt h.left_le hbound'⟩

/-- If `p` comes to an end from the state `s`, so does `p'` in the second run, and what it gives
is what `p` gives, changed by `f`. If less than `l` characters are left in front, less than `m` are
left behind. And if `p` fails, it fails at the token of a state of the run. -/
def Echoes {α β : Type} (i : Pairing) (l : Nat) (m : α → Nat) (s : State) (p : Parser α)
    (p' : Parser β) (f : α → β) : Prop :=
  s.left < l → i.Tracked s → ∀ c c' : Context, c.Suits s c' →
    (∀ a s', p c s = .ok (a, s') → i.Tracked s' ∧ s'.left ≤ s.left ∧ s'.left < m a ∧
      (i.Clear s' → i.Clear s ∧ p' c' (i.state s) = .ok (f a, i.state s'))) ∧
    ∀ e, p c s = .error e →
      (i.deep → e.fault ≠ .nestingBound) ∧ (i.exact → p' c' (i.state s) = .error e) ∧
        ∃ s', i.Tracked s' ∧ e.At s'

/-- A rule that echoes from every state where at most `n` characters are left, and moves over `k`
tokens or more. -/
def Follows {α β : Type} (i : Pairing) (n k : Nat) (p : Parser α) (p' : Parser β) (f : α → β) :
    Prop :=
  ∀ s l, l ≤ n → Echoes i l (fun _ => l - k) s p p' f

/-- A round with its value and its result changed. -/
def Round.map {α β γ δ : Type} (f : α → γ) (g : β → δ) : Round α β → Round γ δ
  | .again a => .again (f a)
  | .finish b => .finish (g b)

/-- What may be left behind a round that starts where less than `l` characters are left: if it goes
on, it has to move over a token, and at the end over `k` of them. -/
def Round.level {α β : Type} (k l : Nat) : Round α β → Nat
  | .again _ => l - 1
  | .finish _ => l - k

section

variable {i : Pairing} {n k : Nat} {α β : Type} {f : α → β} {p : Parser α} {p' : Parser β}

theorem Follows.on (h : Follows i n k p p' f) (s : State) {l : Nat} (hl : l ≤ n) :
    Echoes i l (fun _ => l - k) s p p' f := h s l hl

theorem Follows.echoes {l : Nat} (h : Follows i l k p p' f) (s : State) :
    Echoes i l (fun _ => l - k) s p p' f := h s l (Nat.le_refl l)

theorem Follows.mono (h : Follows i n k p p' f) {n' : Nat} (hn : n' ≤ n) : Follows i n' k p p' f :=
  fun s l hl => h s l (Nat.le_trans hl hn)

end

namespace Echoes

variable {i : Pairing} {l : Nat} {s : State} {α β γ δ : Type} {f : α → β} {g : γ → δ}
  {m : α → Nat} {m' : γ → Nat}

/-! ## Rules put together -/

theorem pure {a : α} {b : β} (h : b = f a) (hl : l ≤ m a) :
    Echoes i l m s (Pure.pure a) (Pure.pure b) f := by
  intro hs ht c c' _
  refine ⟨?_, fun e he => by cases he⟩
  intro a' s' hp
  obtain ⟨rfl, rfl⟩ := Prod.mk.inj (Except.ok.inj hp)
  refine ⟨ht, Nat.le_refl _, Nat.lt_of_lt_of_le hs hl, fun hclear => ⟨hclear, ?_⟩⟩
  exact congrArg (fun b => Except.ok (b, _)) h

/-- What is left of a rule that fails. -/
theorem refuses {p : Parser α} {p' : Parser β}
    (h : ∀ c c', ∃ e : Failure, e.fault ≠ .nestingBound ∧ e.At s ∧ p c s = .error e ∧
      (i.state s = s → p' c' s = .error e)) : Echoes i l m s p p' f := by
  intro _ ht c c' _
  obtain ⟨e, he, hat, hp, hp'⟩ := h c c'
  rw [hp]
  refine ⟨nofun, ?_⟩
  intro e' hrun
  obtain rfl : e = e' := Except.error.inj hrun
  refine ⟨fun _ => he, fun hexact => ?_, s, ht, hat⟩
  have hsame := (i.same hexact ht).2
  rw [hsame]
  exact hp' hsame

theorem failAt {fault : SyntaxFault} (h : fault ≠ .nestingBound)
    (hat : Failure.At ⟨fault, s.current.span.start⟩ s) :
    Echoes i l m s (Parser.fail fault) (Parser.fail fault) f :=
  refuses fun _ _ => ⟨⟨fault, s.current.span.start⟩, h, hat, rfl, fun _ => rfl⟩

theorem ne_nestingBound {fault : SyntaxFault} (h : ¬fault.Telling) : fault ≠ .nestingBound := by
  rintro rfl
  exact h .nestingBound

theorem fail {fault : SyntaxFault} (h : ¬fault.Telling) :
    Echoes i l m s (Parser.fail fault) (Parser.fail fault) f :=
  failAt (ne_nestingBound h) ⟨rfl, fun htell => absurd htell h⟩

/-- Nothing follows where a rule fails. -/
theorem failThen {fault : SyntaxFault} {ε ζ : Type} {k : ε → Parser α} {k' : ζ → Parser β}
    (h : ¬fault.Telling) :
    Echoes i l m s (Parser.fail fault >>= k) (Parser.fail fault >>= k') f :=
  refuses fun _ _ => ⟨⟨fault, s.current.span.start⟩, ne_nestingBound h,
    ⟨rfl, fun htell => absurd htell h⟩, rfl, fun _ => rfl⟩

theorem unexpected_eq (c : Context) (s : State) : (Parser.unexpected : Parser α) c s =
    .error ⟨s.current.kind.fault s.text, s.current.span.start⟩ := by
  obtain ⟨⟨kind, span, newline⟩, before, behind, previous, nextId, read⟩ := s
  cases kind <;> rfl

theorem unexpected : Echoes i l m s Parser.unexpected Parser.unexpected f :=
  refuses fun c c' => ⟨_, TokenKind.fault_ne _ _, ⟨rfl, fun _ _ => rfl⟩, unexpected_eq c s,
    fun _ => unexpected_eq c' s⟩

theorem unexpectedThen {ε ζ : Type} {k : ε → Parser α} {k' : ζ → Parser β} :
    Echoes i l m s (Parser.unexpected >>= k) (Parser.unexpected >>= k') f := by
  refine refuses fun c c' => ⟨⟨s.current.kind.fault s.text, s.current.span.start⟩,
    TokenKind.fault_ne _ _, ⟨rfl, fun _ _ => rfl⟩, ?_, fun _ => ?_⟩
  · show Except.bind (Parser.unexpected c s) _ = _
    rw [unexpected_eq]
    rfl
  · show Except.bind (Parser.unexpected c' s) _ = _
    rw [unexpected_eq]
    rfl

/-- What the first rule ensures is known where the second one starts. -/
theorem step {p : Parser α} {p' : Parser β} {k : α → Parser γ} {k' : β → Parser δ}
    {P : α → State → Prop} (hp : Echoes i l m s p p' f) (hP : ∀ c, Ensures p c s P)
    (hk : ∀ a s', P a s' → Echoes i (m a) m' s' (k a) (k' (f a)) g) :
    Echoes i l m' s (p >>= k) (p' >>= k') g := by
  intro hs ht c c' hc
  obtain ⟨hok, herror⟩ := hp hs ht c c' hc
  show (∀ b s'', Except.bind (p c s) (fun r => k r.1 c r.2) = .ok (b, s'') → _) ∧
    ∀ e, Except.bind (p c s) (fun r => k r.1 c r.2) = .error e → _ ∧ (_ →
      Except.bind (p' c' (i.state s)) (fun r => k' r.1 c' r.2) = .error e) ∧ _
  cases hr : p c s with
  | error e =>
    refine ⟨nofun, ?_⟩
    intro e' he
    obtain rfl : e = e' := Except.error.inj he
    obtain ⟨hdeep, hexact, hat⟩ := herror e hr
    refine ⟨hdeep, fun h => ?_, hat⟩
    rw [hexact h]
    rfl
  | ok r =>
    obtain ⟨a, s'⟩ := r
    obtain ⟨ht', hle, hlt, hfirst⟩ := hok a s' hr
    obtain ⟨hok', herror'⟩ := hk a s' (hP c a s' hr) hlt ht' c c' (hc.mono hle)
    refine ⟨?_, ?_⟩
    · intro b s'' hrun
      obtain ⟨ht'', hle', hlt', hthen⟩ := hok' b s'' hrun
      refine ⟨ht'', Nat.le_trans hle' hle, hlt', ?_⟩
      intro hclear
      -- the condition is handed back from the end of the second rule to its start, and on
      obtain ⟨hclear', hrun'⟩ := hthen hclear
      obtain ⟨hclear'', hr'⟩ := hfirst hclear'
      refine ⟨hclear'', ?_⟩
      show Except.bind (p' c' (i.state s)) (fun r => k' r.1 c' r.2) = _
      rw [hr']
      exact hrun'
    · intro e he
      obtain ⟨hdeep, hexact, hat⟩ := herror' e he
      refine ⟨hdeep, fun h => ?_, hat⟩
      rw [(hfirst (i.same h ht').1).2]
      exact hexact h

theorem bind {p : Parser α} {p' : Parser β} {k : α → Parser γ} {k' : β → Parser δ}
    (hp : Echoes i l m s p p' f) (hk : ∀ a s', Echoes i (m a) m' s' (k a) (k' (f a)) g) :
    Echoes i l m' s (p >>= k) (p' >>= k') g :=
  hp.step (fun _ _ _ _ => trivial) fun a s' _ => hk a s'

theorem bindPure {a : α} {b : β} {k : α → Parser γ} {k' : β → Parser δ}
    (h : Echoes i l m' s (k a) (k' b) g) :
    Echoes i l m' s (Pure.pure a >>= k) (Pure.pure b >>= k') g := h

theorem ite {b : Prop} [Decidable b] {p q : Parser α} {p' q' : Parser β}
    (hp : b → Echoes i l m s p p' f) (hq : ¬b → Echoes i l m s q q' f) :
    Echoes i l m s (if b then p else q) (if b then p' else q') f := by
  split
  · exact hp ‹_›
  · exact hq ‹_›

theorem tracked {p : Parser α} {p' : Parser β} (h : i.Tracked s → Echoes i l m s p p' f) :
    Echoes i l m s p p' f := fun hs ht => h ht hs ht

/-- Less may be left in front, and more behind. -/
theorem widen {p : Parser α} {p' : Parser β} {l₀ : Nat} {m₀ : α → Nat}
    (h : Echoes i l₀ m₀ s p p' f) (hl : l ≤ l₀) (hm : ∀ a, m₀ a ≤ m a) :
    Echoes i l m s p p' f := by
  intro hs ht c c' hc
  obtain ⟨hok, herror⟩ := h (Nat.lt_of_lt_of_le hs hl) ht c c' hc
  refine ⟨fun a s' hp => ?_, herror⟩
  obtain ⟨ht', hle, hlt, hthen⟩ := hok a s' hp
  exact ⟨ht', hle, Nat.lt_of_lt_of_le hlt (hm a), hthen⟩

theorem get {k : State → Parser γ} {k' : State → Parser δ}
    (h : Echoes i l m' s (k s) (k' (i.state s)) g) :
    Echoes i l m' s (MonadState.get >>= k) (MonadState.get >>= k') g := h

theorem read {k : Context → Parser γ} {k' : Context → Parser δ}
    (h : ∀ c c', c.Suits s c' → Echoes i l m' s (k c) (k' c') g) :
    Echoes i l m' s (MonadReader.read >>= k) (MonadReader.read >>= k') g :=
  fun hs ht c c' hc => h c c' hc hs ht c c' hc

theorem withIn {allowIn : Bool} {p : Parser α} {p' : Parser β} (h : Echoes i l m s p p' f) :
    Echoes i l m s (Parser.withIn allowIn p) (Parser.withIn allowIn p') f :=
  fun hs ht _ _ hc => h hs ht _ _ ⟨rfl, hc.inGenerator, hc.bound, hc.bound'⟩

theorem inFunction {isGenerator : Bool} {p : Parser α} {p' : Parser β}
    (h : Echoes i l m s p p' f) :
    Echoes i l m s (Parser.inFunction isGenerator p) (Parser.inFunction isGenerator p') f :=
  fun hs ht _ _ hc => h hs ht _ _ ⟨rfl, rfl, hc.bound, hc.bound'⟩

/-! ## Repeating -/

theorem again {a : α} {b : β} {k l' : Nat} (h : b = f a) (hl : l ≤ l' - 1) :
    Echoes i l (Round.level k l') s (Pure.pure (.again a)) (Pure.pure (.again b))
      (Round.map f g) := pure (congrArg Round.again h) hl

theorem finish {c : γ} {d : δ} {k l' : Nat} (h : d = g c) (hl : l ≤ l' - k) :
    Echoes i l (Round.level k l') s (Pure.pure (.finish c)) (Pure.pure (.finish d))
      (Round.map f g) := pure (congrArg Round.finish h) hl

/-- Each round that goes on moves over a token, so there are never too few rounds. -/
theorem loop {a : α} {b : β} {k : Nat} {step : α → Parser (Round α γ)}
    {step' : β → Parser (Round β δ)} (hb : b = f a)
    (h : ∀ a s l', l' ≤ l →
      Echoes i l' (Round.level k l') s (step a) (step' (f a)) (Round.map f g)) :
    Echoes i l (fun _ => l - k) s (Parser.loop a step) (Parser.loop b step') g := by
  subst hb
  have hwithin : ∀ bound bound' a s, s.left < bound → s.left < bound' →
      Echoes i l (fun _ => l - k) s (Parser.loopWithin step bound a)
        (Parser.loopWithin step' bound' (f a)) g := by
    intro bound
    induction bound with
    | zero => exact fun _ _ _ hlt => absurd hlt (Nat.not_lt_zero _)
    | succ bound ih =>
      intro bound' a s hlt hlt'
      obtain ⟨bound', rfl⟩ : ∃ n, bound' = n + 1 := ⟨bound' - 1, by omega⟩
      intro hs
      refine ((h a s (s.left + 1) hs).bind ?_) (Nat.lt_succ_self _)
      intro r s'
      cases r with
      | again a =>
        intro hless
        have hless : s'.left < s.left := hless
        exact ih bound' a s' (by omega) (by omega) (by omega)
      | finish b => exact pure rfl (Nat.sub_le_sub_right hs k)
  exact .read fun c c' hc => hwithin _ _ a s hc.bound hc.bound'

theorem listRound {ends : TokenKind → Bool} {item : Parser (List α × Bool)}
    {item' : Parser (List β × Bool)} (h : Follows i l 1 item item' (Prod.map (List.map f) id))
    (items : List α) :
    Echoes i l (Round.level 0 l) s (Grammar.listRound ends item items)
      (Grammar.listRound ends item' (items.map f)) (Round.map (List.map f) (List.map f)) := by
  refine .ite (fun _ => finish rfl (by omega)) fun _ => .bind (h.echoes s) ?_
  intro r s'
  obtain ⟨more, goesOn⟩ := r
  refine .ite (fun _ => again ?_ (by omega)) fun _ => finish ?_ (by omega)
  all_goals simp

theorem listUntil {ends : TokenKind → Bool} {item : Parser (List α × Bool)}
    {item' : Parser (List β × Bool)} (h : Follows i l 1 item item' (Prod.map (List.map f) id)) :
    Echoes i l (fun _ => l) s (Parser.listUntil ends item) (Parser.listUntil ends item')
      (List.map f) :=
  loop (f := List.map f) (k := 0) rfl fun items _ _ hl => listRound (h.mono hl) items

/-! ## The token to look at -/

theorem here {k : Nat → Parser γ} {k' : Nat → Parser δ}
    (h : Echoes i l m' s (k s.current.span.start) (k' (i.start s.current.span.start)) g) :
    Echoes i l m' s (Parser.here >>= k) (Parser.here >>= k') g := by
  rw [← i.span_start] at h
  exact h

theorem current {k : Token → Parser γ} {k' : Token → Parser δ}
    (h : Echoes i l m' s (k s.current) (k' (i.token s.current)) g) :
    Echoes i l m' s (Parser.current >>= k) (Parser.current >>= k') g := h

theorem sees {mark : Punctuator} {k : Bool → Parser γ} {k' : Bool → Parser δ}
    (h : Echoes i l m' s (k (decide (s.current.kind = .punctuator mark)))
      (k' (decide (s.current.kind = .punctuator mark))) g) :
    Echoes i l m' s (Parser.sees mark >>= k) (Parser.sees mark >>= k') g := h

theorem seesWord {word : Keyword} {k : Bool → Parser γ} {k' : Bool → Parser δ}
    (h : Echoes i l m' s (k (decide (s.current.kind = .keyword word)))
      (k' (decide (s.current.kind = .keyword word))) g) :
    Echoes i l m' s (Parser.seesWord word >>= k) (Parser.seesWord word >>= k') g := h

theorem seesName {name : String} {k : Bool → Parser γ} {k' : Bool → Parser δ}
    (h : Echoes i l m' s (k (decide (s.current.kind = .identifier name)))
      (k' (decide (s.current.kind = .identifier name))) g) :
    Echoes i l m' s (Parser.seesName name >>= k) (Parser.seesName name >>= k') g := h

/-- What a rule asks of a state without changing it, it asks of the state of the other run. -/
theorem ask {p : Parser α} {p' : Parser β} {b : State → α} {b' : State → β} {k : α → Parser γ}
    {k' : β → Parser δ} (hp : ∀ c s, p c s = .ok (b s, s)) (hp' : ∀ c s, p' c s = .ok (b' s, s))
    (hb : i.Tracked s → i.Clear s → b' (i.state s) = f (b s))
    (h : Echoes i l m' s (k (b s)) (k' (f (b s))) g) :
    Echoes i l m' s (p >>= k) (p' >>= k') g := by
  refine step (P := fun a s' => a = b s ∧ s' = s) (f := f) (m := fun _ => l) ?_ ?_ ?_
  · intro hs ht c c' _
    rw [hp]
    refine ⟨?_, nofun⟩
    intro a s' hrun
    obtain ⟨rfl, rfl⟩ := Prod.mk.inj (Except.ok.inj hrun)
    exact ⟨ht, Nat.le_refl _, hs, fun hclear => ⟨hclear, by rw [hp', hb ht hclear]⟩⟩
  · intro c a s' hrun
    rw [hp] at hrun
    obtain ⟨rfl, rfl⟩ := Prod.mk.inj (Except.ok.inj hrun)
    exact ⟨rfl, rfl⟩
  · intro a s' h'
    obtain ⟨rfl, rfl⟩ := h'
    exact h

theorem currentText {k : String → Parser γ} {k' : String → Parser δ}
    (h : Echoes i l m' s (k s.text) (k' s.text) g) :
    Echoes i l m' s (Parser.currentText >>= k) (Parser.currentText >>= k') g :=
  ask (f := id) (fun _ _ => rfl) (fun _ _ => rfl) (fun ht hclear => i.textOf ht hclear) h

/-- The token behind the current one, unless one looks no further. -/
theorem peek {k : Token → Parser γ} {k' : Token → Parser δ} (hk : s.current.kind.isLast = false)
    (h : Echoes i l m' s (k (nextToken s.behind).1) (k' (i.token (nextToken s.behind).1)) g) :
    Echoes i l m' s (Parser.peek >>= k) (Parser.peek >>= k') g :=
  ask (f := i.token) (fun _ _ => rfl) (fun _ _ => rfl)
    (fun ht hclear => congrArg Prod.fst (i.ahead ht hclear hk)) h

/-- The token behind is asked for in any case, but it matters only where `b` holds. -/
theorem andPeek {b : Bool} {asked : Token → Bool} {p q : Parser γ} {p' q' : Parser δ}
    (hb : b = true → s.current.kind.isLast = false) (hasked : ∀ t, asked (i.token t) = asked t)
    (h1 : b = true → Echoes i l m' s p p' g) (h0 : Echoes i l m' s q q' g) :
    Echoes i l m' s (Parser.peek >>= fun t => if (b && asked t) = true then p else q)
      (Parser.peek >>= fun t => if (b && asked t) = true then p' else q') g := by
  cases b with
  | false => exact h0
  | true =>
    refine peek (hb rfl) ?_
    rw [hasked]
    exact ite (fun _ => h1 rfl) fun _ => h0

/-! ## Moving on -/

theorem advance {k : Unit → Parser γ} {k' : Unit → Parser δ} (hk : s.current.kind.isText = true)
    (h : Echoes i (l - 1) m' s.next (k ()) (k' ()) g) :
    Echoes i l m' s (Parser.advance >>= k) (Parser.advance >>= k') g := by
  intro hs ht c c' hc
  have hlt := State.left_next_lt (i.placed ht) (i.text ht hk)
  obtain ⟨hok, herror⟩ := h (by omega) (i.next ht hk) c c' (hc.mono (by omega))
  refine ⟨?_, ?_⟩
  · intro a s' hrun
    obtain ⟨ht', hle, hless, hthen⟩ := hok a s' hrun
    refine ⟨ht', by omega, hless, ?_⟩
    intro hclear
    obtain ⟨hclear', hrun'⟩ := hthen hclear
    obtain ⟨hclear'', hstate⟩ := i.of_next ht hk hclear'
    rw [hstate] at hrun'
    exact ⟨hclear'', hrun'⟩
  · intro e he
    obtain ⟨hdeep, hexact, hat⟩ := herror e he
    refine ⟨hdeep, fun hsame => ?_, hat⟩
    have hrun' := hexact hsame
    rw [(i.of_next ht hk (i.same hsame (i.next ht hk)).1).2] at hrun'
    exact hrun'

/-- A token is moved over if a test holds of it. -/
theorem eatIf {test test' : Parser Bool} {b b' : State → Bool} {k : Bool → Parser γ}
    {k' : Bool → Parser δ} (ht : ∀ c s, test c s = .ok (b s, s))
    (ht' : ∀ c s, test' c s = .ok (b' s, s))
    (hb : i.Tracked s → i.Clear s → b' (i.state s) = b s)
    (hk : b s = true → s.current.kind.isText = true)
    (h1 : b s = true → Echoes i (l - 1) m' s.next (k true) (k' true) g)
    (h0 : b s = false → Echoes i l m' s (k false) (k' false) g) :
    Echoes i l m' s (Parser.eatIf test >>= k) (Parser.eatIf test' >>= k') g := by
  rw [Parser.eatIf, Parser.eatIf, bind_assoc, bind_assoc]
  refine ask (f := id) ht ht' hb ?_
  cases hbs : b s with
  | true =>
    show Echoes i l m' s ((Parser.advance >>= fun _ => Pure.pure true) >>= k)
      ((Parser.advance >>= fun _ => Pure.pure true) >>= k') g
    rw [bind_assoc, bind_assoc]
    exact advance (hk hbs) (bindPure (h1 hbs))
  | false => exact h0 hbs

theorem eat {mark : Punctuator} {k : Bool → Parser γ} {k' : Bool → Parser δ}
    (h1 : s.current.kind = .punctuator mark → Echoes i (l - 1) m' s.next (k true) (k' true) g)
    (h0 : s.current.kind ≠ .punctuator mark → Echoes i l m' s (k false) (k' false) g) :
    Echoes i l m' s (Parser.eat mark >>= k) (Parser.eat mark >>= k') g := by
  refine eatIf (b := fun s => decide (s.current.kind = .punctuator mark)) (fun _ _ => rfl)
    (fun _ _ => rfl) (fun _ _ => rfl) ?_ (fun h => h1 (of_decide_eq_true h))
    (fun h => h0 (of_decide_eq_false h))
  intro h
  rw [of_decide_eq_true h]
  rfl

theorem eatWord {word : Keyword} {k : Bool → Parser γ} {k' : Bool → Parser δ}
    (h1 : s.current.kind = .keyword word → Echoes i (l - 1) m' s.next (k true) (k' true) g)
    (h0 : s.current.kind ≠ .keyword word → Echoes i l m' s (k false) (k' false) g) :
    Echoes i l m' s (Parser.eatWord word >>= k) (Parser.eatWord word >>= k') g := by
  refine eatIf (b := fun s => decide (s.current.kind = .keyword word)) (fun _ _ => rfl)
    (fun _ _ => rfl) (fun _ _ => rfl) ?_ (fun h => h1 (of_decide_eq_true h))
    (fun h => h0 (of_decide_eq_false h))
  intro h
  rw [of_decide_eq_true h]
  rfl

theorem eatName {name : String} {k : Bool → Parser γ} {k' : Bool → Parser δ}
    (h1 : s.current.kind = .identifier name → Echoes i (l - 1) m' s.next (k true) (k' true) g)
    (h0 : s.current.kind ≠ .identifier name → Echoes i l m' s (k false) (k' false) g) :
    Echoes i l m' s (Parser.eatName name >>= k) (Parser.eatName name >>= k') g := by
  refine eatIf (b := fun s => decide (s.current.kind = .identifier name)) (fun _ _ => rfl)
    (fun _ _ => rfl) (fun _ _ => rfl) ?_ (fun h => h1 (of_decide_eq_true h))
    (fun h => h0 (of_decide_eq_false h))
  intro h
  rw [of_decide_eq_true h]
  rfl

section

variable {p q : Parser γ} {p' q' : Parser δ}

theorem ifEat {mark : Punctuator}
    (h1 : s.current.kind = .punctuator mark → Echoes i (l - 1) m' s.next p p' g)
    (h0 : s.current.kind ≠ .punctuator mark → Echoes i l m' s q q' g) :
    Echoes i l m' s (Parser.eat mark >>= fun b => if b = true then p else q)
      (Parser.eat mark >>= fun b => if b = true then p' else q') g := eat h1 h0

theorem ifEatWord {word : Keyword}
    (h1 : s.current.kind = .keyword word → Echoes i (l - 1) m' s.next p p' g)
    (h0 : s.current.kind ≠ .keyword word → Echoes i l m' s q q' g) :
    Echoes i l m' s (Parser.eatWord word >>= fun b => if b = true then p else q)
      (Parser.eatWord word >>= fun b => if b = true then p' else q') g := eatWord h1 h0

theorem ifEatName {name : String}
    (h1 : s.current.kind = .identifier name → Echoes i (l - 1) m' s.next p p' g)
    (h0 : s.current.kind ≠ .identifier name → Echoes i l m' s q q' g) :
    Echoes i l m' s (Parser.eatName name >>= fun b => if b = true then p else q)
      (Parser.eatName name >>= fun b => if b = true then p' else q') g := eatName h1 h0

theorem ifSees {mark : Punctuator}
    (h1 : s.current.kind = .punctuator mark → Echoes i l m' s p p' g)
    (h0 : s.current.kind ≠ .punctuator mark → Echoes i l m' s q q' g) :
    Echoes i l m' s (Parser.sees mark >>= fun b => if b = true then p else q)
      (Parser.sees mark >>= fun b => if b = true then p' else q') g :=
  sees (ite (fun h => h1 (of_decide_eq_true h)) fun h => h0 fun hk => h (decide_eq_true hk))

end

/-! ## Tokens that have to be there -/

theorem expect {mark : Punctuator} {k : Unit → Parser γ} {k' : Unit → Parser δ}
    (h : s.current.kind = .punctuator mark → Echoes i (l - 1) m' s.next (k ()) (k' ()) g) :
    Echoes i l m' s (Parser.expect mark >>= k) (Parser.expect mark >>= k') g := by
  rw [Parser.expect, bind_assoc, bind_assoc]
  exact eat (fun hk => bindPure (h hk)) fun _ => unexpectedThen

theorem expectWord {word : Keyword} {k : Unit → Parser γ} {k' : Unit → Parser δ}
    (h : s.current.kind = .keyword word → Echoes i (l - 1) m' s.next (k ()) (k' ()) g) :
    Echoes i l m' s (Parser.expectWord word >>= k) (Parser.expectWord word >>= k') g := by
  rw [Parser.expectWord, bind_assoc, bind_assoc]
  exact eatWord (fun hk => bindPure (h hk)) fun _ => unexpectedThen

theorem expectName {name : String} {k : Unit → Parser γ} {k' : Unit → Parser δ}
    (h : s.current.kind = .identifier name → Echoes i (l - 1) m' s.next (k ()) (k' ()) g) :
    Echoes i l m' s (Parser.expectName name >>= k) (Parser.expectName name >>= k') g := by
  rw [Parser.expectName, bind_assoc, bind_assoc]
  exact eatName (fun hk => bindPure (h hk)) fun _ => failThen nofun

/-- A semicolon, or a place where it may be left out. -/
theorem semicolon {k : Unit → Parser γ} {k' : Unit → Parser δ}
    (h : ∀ s', Echoes i l m' s' (k ()) (k' ()) g) :
    Echoes i l m' s (Parser.semicolon >>= k) (Parser.semicolon >>= k') g := by
  have hplain : Echoes i l (fun _ => l) s Parser.semicolon Parser.semicolon id :=
    ifEat (fun _ => pure rfl (by omega)) fun _ =>
      current (ite (fun _ => pure rfl (by omega)) fun _ => unexpected)
  exact .bind hplain fun _ s' => h s'

/-- A mark that may be read again is read so in the second run. -/
theorem rescan {f' : Cursor → TokenKind × Cursor} {rule : Nat → Cursor → Token × Cursor}
    {mark : Punctuator} (hr : ReadsAgain f' rule mark) (hk : s.current.kind = .punctuator mark)
    {k : Token → Parser γ} {k' : Token → Parser δ}
    (h : Echoes i l m' (s.rescanned rule) (k (s.rescanned rule).current)
      (k' (i.token (s.rescanned rule).current)) g) :
    Echoes i l m' s (Parser.rescan rule >>= k) (Parser.rescan rule >>= k') g := by
  intro hs ht c c' hc
  -- the token starts where it did, so as much is left
  have hleft : (s.rescanned rule).left = s.left := rfl
  have htr := i.rescanned ht hr hk
  have htoken : ∀ {r : State}, i.state (s.rescanned rule) = r →
      i.token (s.rescanned rule).current = r.current := fun h => congrArg State.current h
  obtain ⟨hok, herror⟩ := h hs htr c c' (hc.mono (Nat.le_of_eq hleft))
  refine ⟨?_, ?_⟩
  · intro a s' hrun
    obtain ⟨ht', hle, hless, hthen⟩ := hok a s' hrun
    refine ⟨ht', hle, hless, ?_⟩
    intro hclear
    obtain ⟨hclear', hrun'⟩ := hthen hclear
    obtain ⟨hclear'', hstate⟩ := i.of_rescanned ht hr hk hclear'
    rw [htoken hstate, hstate] at hrun'
    exact ⟨hclear'', hrun'⟩
  · intro e he
    obtain ⟨hdeep, hexact, hat⟩ := herror e he
    refine ⟨hdeep, fun hsame => ?_, hat⟩
    have hrun' := hexact hsame
    have hstate := (i.of_rescanned ht hr hk (i.same hsame htr).1).2
    rw [htoken hstate, hstate] at hrun'
    exact hrun'

end Echoes

section

variable {i : Pairing} {n : Nat}

/-- Whether a token was moved over is the same in both runs. -/
theorem follows_eat (mark : Punctuator) :
    Follows i n 0 (Parser.eat mark) (Parser.eat mark) id := by
  intro s l hl
  rw [← bind_pure (Parser.eat mark)]
  exact .eat (fun _ => .pure rfl (by omega)) fun _ => .pure rfl (by omega)

theorem follows_eatWord (word : Keyword) :
    Follows i n 0 (Parser.eatWord word) (Parser.eatWord word) id := by
  intro s l hl
  rw [← bind_pure (Parser.eatWord word)]
  exact .eatWord (fun _ => .pure rfl (by omega)) fun _ => .pure rfl (by omega)

theorem follows_expect (mark : Punctuator) :
    Follows i n 1 (Parser.expect mark) (Parser.expect mark) id :=
  fun _ _ _ => .ifEat (fun _ => .pure rfl (by omega)) fun _ => .unexpected

end

end EsModule.Syntax
