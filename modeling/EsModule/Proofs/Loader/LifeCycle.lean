import EsModule.Proofs.Loader.Effects

/-!
# The life cycle of a store id

What is known of a store id changes in few ways only (`Moves`): an unknown module is asked for and
becomes pending, or a host gives it compiled, and the end of its task settles it or makes it unknown
again. Since a slot is pending for the one task that compiles its module, a module whose text was
fetched is not fetched again before its compilation has failed (`Course.lifeCycle`), whatever
happens in between. Fetches are what a graph counts as its requests (`Effect.requests`).
-/

namespace EsModule.Loader.Graph

variable {g g' : Graph} {t : Nat} {task : Task} {s : String}

/-! ## Moves of a slot -/

/-- How what is known of a store id may change. -/
inductive Moves (g g' : Graph) (s : String) : Prop where
  /-- It stays as it is. -/
  | stays (h : g'.slots[s]? = g.slots[s]?)
  /-- The module was unknown, and is asked for. -/
  | asked {t : Nat} (hslot : g.slots[s]? = none) (hslot' : g'.slots[s]? = some (.pending t))
  /-- The module was unknown, and a host gives it compiled. -/
  | preloaded {resource : Resource} (hslot : g.slots[s]? = none)
    (hslot' : g'.slots[s]? = some (.ready resource)) (h : g' = (g.preload resource).2)
  /-- The task of the module ends, and the module is compiled. -/
  | compiled {t : Nat} {c : Compiled} (hslot : g.slots[s]? = some (.pending t))
    (hslot' : g'.slots[s]? = some (.ready c.resource)) (ho : g'.outcome? t = some (.ok (some c)))
  /-- The task of the module ends, and there is no text to compile. -/
  | missing {t : Nat} (hslot : g.slots[s]? = some (.pending t))
    (hslot' : g'.slots[s]? = some .absent) (ho : g'.outcome? t = some (.ok none))
  /-- The task of the module ends in an error, and the module is unknown again. -/
  | failed {t : Nat} {e : LoadError} (hslot : g.slots[s]? = some (.pending t))
    (hslot' : g'.slots[s]? = none) (ho : g'.outcome? t = some (.error e))

namespace Moves

theorem of_slots (h : g'.slots[s]? = g.slots[s]? ∨
    g.slots[s]? = none ∧ ∃ t, g'.slots[s]? = some (.pending t)) : Moves g g' s := by
  rcases h with heq | ⟨hnone, t, hs⟩
  · exact .stays heq
  · exact .asked hnone hs

/-- The end of a task moves the slot of its own module only. -/
theorem finish {g₁ : Graph} (hassigned : g.Assigned) (hask : AsksFor g g₁)
    (ht : g.tasks[t]? = some task) (hnot : ∀ o, task.progress ≠ .done o) (outcome : Outcome)
    (s : String) : Moves g (g₁.finish t outcome) s := by
  have ht₁ := hask.keeps t task ht
  have hslots := slots_finish (s := s) ht₁ outcome
  have ho : (g₁.finish t outcome).outcome? t = some outcome :=
    outcome?_eq_some.mpr ⟨_, tasks_finish_self ht₁ outcome, rfl⟩
  split at hslots
  · rename_i hown
    have hpending := hassigned.pending ⟨task, ht, hown.1, hown.2, hnot⟩
    rcases outcome with e | _ | c
    · exact .failed hpending hslots ho
    · exact .missing hpending hslots ho
    · exact .compiled hpending hslots ho
  · exact .of_slots (hslots ▸ hask.slots s)

theorem preload (g : Graph) (resource : Resource) (s : String) :
    Moves g (g.preload resource).2 s := by
  have hslots := slots_preload g resource s
  split at hslots
  · rename_i hnew
    exact .preloaded hnew.2 hslots rfl
  · exact .stays hslots

/-- What is settled stays as it is. -/
theorem lasts (h : Moves g g' s) {slot : Slot} (hslot : g.slots[s]? = some slot)
    (hsettled : ∀ t, slot ≠ .pending t) : g'.slots[s]? = some slot := by
  have hvacant : ¬ g.slots[s]? = none := fun hnone => nomatch hslot.symm.trans hnone
  have hnot : ∀ t, ¬ g.slots[s]? = some (.pending t) := fun t hpending =>
    hsettled t (Option.some.inj (hslot.symm.trans hpending))
  cases h with
  | stays h => exact h.trans hslot
  | asked hnone => exact absurd hnone hvacant
  | preloaded hnone => exact absurd hnone hvacant
  | compiled hpending => exact absurd hpending (hnot _)
  | missing hpending => exact absurd hpending (hnot _)
  | failed hpending => exact absurd hpending (hnot _)

end Moves

theorem Effect.moves (h : Effect g g') (hassigned : g.Assigned) (s : String) : Moves g g' s := by
  cases h with
  | asked hask => exact .of_slots (hask.slots s)
  | fetched _ _ h => exact .stays (h ▸ rfl)
  | advanced hask _ h =>
    subst h
    exact .of_slots (hask.slots s)
  | ended hask ht h hnot =>
    subst h
    exact .finish hassigned hask ht hnot _ s
  | provided h => exact .stays (h ▸ rfl)
  | preloaded resource h =>
    subst h
    exact .preload g resource s

/-! ## Fetches and failures -/

theorem requests_finish (g : Graph) (t : Nat) (outcome : Outcome) :
    (g.finish t outcome).requests = g.requests := by
  unfold finish settle
  split
  · rfl
  · dsimp only
    split
    · rfl
    · split <;> rfl

/-- The text of a module is fetched: a task that compiles it makes its request. -/
def Fetches (g g' : Graph) (s : String) : Prop :=
  ∃ (t : Nat) (task : Task) (delay : Nat) (answer : Except LoadError Response),
    g.tasks[t]? = some task ∧ task.storeId = s ∧ task.progress = .idle ∧
      g'.progress? t = some (.fetching delay answer)

/-- The compilation of a module fails: a task that is in flight for it ends in an error. -/
def Fails (g g' : Graph) (s : String) : Prop :=
  ∃ (t : Nat) (e : LoadError), g.InFlight s t ∧ g'.outcome? t = some (.error e)

theorem not_fetches (hkeeps : ∀ t, Keeps g g' t) (s : String) : ¬ Fetches g g' s := by
  intro hfetches
  obtain ⟨t, task, delay, answer, ht, -, hidle, hprogress⟩ := hfetches
  rw [progress?, hkeeps t task ht] at hprogress
  cases hidle.symm.trans (Option.some.inj hprogress)

/-- A request is made where the text of a module is fetched, and nowhere else. -/
theorem Effect.requests (h : Effect g g') :
    (g'.requests = g.requests ∧ ∀ s, ¬ Fetches g g' s) ∨
      (g'.requests = g.requests + 1 ∧ ∃ s, Fetches g g' s) := by
  cases h with
  | asked hask => exact .inl ⟨hask.requests, not_fetches hask.keeps⟩
  | @fetched t task delay answer ht hidle h =>
    subst h
    refine .inr ⟨rfl, task.storeId, t, task, delay, answer, ht, rfl, hidle, ?_⟩
    rw [progress?, tasks_setProgress_self (g := { g with requests := g.requests + 1 }) ht]
    rfl
  | @advanced g₁ t task p hask ht h hbegun =>
    subst h
    refine .inl ⟨hask.requests, fun s hfetches => ?_⟩
    obtain ⟨t', task', delay, answer, ht', hs, hidle, hprogress⟩ := hfetches
    have hne : t ≠ t' := by
      intro heq
      subst heq
      obtain rfl : task = task' := Option.some.inj (ht.symm.trans ht')
      exact hbegun hidle
    rw [progress?, tasks_setProgress, if_neg hne] at hprogress
    exact not_fetches hask.keeps s ⟨t', task', delay, answer, ht', hs, hidle, hprogress⟩
  | @ended g₁ t task outcome hask ht h =>
    subst h
    refine .inl ⟨(requests_finish g₁ t outcome).trans hask.requests, fun s hfetches => ?_⟩
    obtain ⟨t', task', delay, answer, ht', hs, hidle, hprogress⟩ := hfetches
    rw [progress?, tasks_finish_of (hask.keeps t task ht)] at hprogress
    split at hprogress
    · cases hprogress
    · exact not_fetches hask.keeps s ⟨t', task', delay, answer, ht', hs, hidle, hprogress⟩
  | provided h =>
    subst h
    exact .inl ⟨rfl, not_fetches fun t => keeps_newTask _⟩
  | preloaded resource h =>
    subst h
    refine .inl ⟨?_, not_fetches fun t task ht => (tasks_preload g resource).symm ▸ ht⟩
    unfold preload
    split <;> rfl

/-- A task that has made its request is in flight. -/
def Begun (g : Graph) (s : String) (t : Nat) : Prop :=
  ∃ task, g.tasks[t]? = some task ∧ task.Compiles s ∧ task.progress ≠ .idle

theorem Begun.inFlight (h : g.Begun s t) : g.InFlight s t := by
  obtain ⟨task, ht, hcompiles, -⟩ := h
  exact ⟨task, ht, hcompiles⟩

/-- A fetch is made by a task that is in flight, before and after. -/
theorem Fetches.inFlight (h : Fetches g g' s) (heffect : Effect g g') (hassigned : g.Assigned) :
    ∃ t task, g.tasks[t]? = some task ∧ task.progress = .idle ∧ task.Compiles s ∧
      g'.Begun s t := by
  obtain ⟨t, task, delay, answer, ht, rfl, hidle, hprogress⟩ := h
  have hslot := hassigned.slotted t task ht hidle
  refine ⟨t, task, ht, hidle, ⟨rfl, hslot, by simp [hidle]⟩, ?_⟩
  obtain ⟨p, ht', -⟩ := heffect.stage ht
  rw [progress?, ht'] at hprogress
  obtain rfl : p = .fetching delay answer := Option.some.inj hprogress
  exact ⟨_, ht', ⟨rfl, hslot, by simp⟩, by simp⟩

/-- A task that has made its request stays in flight, unless it ends. -/
theorem Begun.step (h : g.Begun s t) (heffect : Effect g g') (hassigned : g.Assigned) :
    g'.Begun s t ∨ Fails g g' s ∨
      ∃ slot, g'.slots[s]? = some slot ∧ ∀ t, slot ≠ .pending t := by
  have hpending := hassigned.pending h.inFlight
  obtain ⟨task, ht, hcompiles, hbegun⟩ := h
  cases heffect.moves hassigned s with
  | stays heq =>
    -- the slot is still pending for the task, so that the task is still in flight
    obtain ⟨task', ht', hcompiles'⟩ :=
      (heffect.assigned hassigned).inFlight s t (heq.trans hpending)
    obtain ⟨p, htask, hp⟩ := heffect.stage ht
    obtain rfl := Option.some.inj (htask.symm.trans ht')
    exact .inl ⟨_, ht', hcompiles', fun hidle => hp.elim (fun heq => hbegun (heq ▸ hidle))
      (fun hne => hne hidle)⟩
  | asked hnone => exact nomatch hpending.symm.trans hnone
  | preloaded hnone => exact nomatch hpending.symm.trans hnone
  | compiled _ hslot' => exact .inr (.inr ⟨_, hslot', nofun⟩)
  | missing _ hslot' => exact .inr (.inr ⟨_, hslot', nofun⟩)
  | failed hslot _ ho =>
    obtain rfl : t = _ := Slot.pending.inj (Option.some.inj (hpending.symm.trans hslot))
    exact .inr (.inl ⟨t, _, ⟨task, ht, hcompiles⟩, ho⟩)

/-! ## Courses -/

/-- A course of what happens to the graph of a loader: it starts empty, and at each moment it takes
any turn, or none. -/
structure Course (run : Nat → Graph) : Prop where
  start : run 0 = .empty
  turn : ∀ i, run (i + 1) = run i ∨ (run i).Turn (run (i + 1))

/-- The life cycle of a store id in the course of a graph. -/
structure LifeCycle (run : Nat → Graph) (s : String) : Prop where
  /-- What is known of it changes in the ways that are listed only. -/
  moves : ∀ i, Moves (run i) (run (i + 1)) s
  /-- Once it is compiled or absent, it stays so for ever. -/
  lasts : ∀ i j slot, i ≤ j → (run i).slots[s]? = some slot → (∀ t, slot ≠ .pending t) →
    (run j).slots[s]? = some slot
  /-- At most one task is in flight for it. -/
  single : ∀ i t t', (run i).InFlight s t → (run i).InFlight s t' → t = t'
  /-- Between any two fetches of its text, its compilation fails. -/
  refetched : ∀ i j, i < j → Fetches (run i) (run (i + 1)) s → Fetches (run j) (run (j + 1)) s →
    ∃ k, i < k ∧ k < j ∧ Fails (run k) (run (k + 1)) s

namespace Course

variable {run : Nat → Graph} (h : Course run)
include h

theorem effect (i : Nat) : Effect (run i) (run (i + 1)) := by
  rcases h.turn i with heq | hturn
  · exact heq ▸ .asked (.refl _)
  · exact hturn.effect

theorem assigned (i : Nat) : (run i).Assigned := by
  induction i with
  | zero => exact h.start ▸ assigned_empty
  | succ i ih => exact (h.effect i).assigned ih

theorem lasts {i j : Nat} (hij : i ≤ j) {slot : Slot} (hslot : (run i).slots[s]? = some slot)
    (hsettled : ∀ t, slot ≠ .pending t) : (run j).slots[s]? = some slot := by
  induction hij with
  | refl => exact hslot
  | @step j _ ih => exact ((h.effect j).moves (h.assigned j) s).lasts ih hsettled

/-- A task that has made its request is in flight until its module has failed or is settled. -/
theorem begun {i j : Nat} (hij : i ≤ j) (hbegun : (run i).Begun s t) :
    (run j).Begun s t ∨ (∃ k, i ≤ k ∧ k < j ∧ Fails (run k) (run (k + 1)) s) ∨
      ∃ slot, (run j).slots[s]? = some slot ∧ ∀ t, slot ≠ .pending t := by
  induction hij with
  | refl => exact .inl hbegun
  | @step j hij ih =>
    rcases ih with hstill | ⟨k, hik, hkj, hfails⟩ | ⟨slot, hslot, hsettled⟩
    · rcases hstill.step (h.effect j) (h.assigned j) with hstill' | hfails | hsettled
      · exact .inl hstill'
      · exact .inr (.inl ⟨j, hij, Nat.lt_succ_self j, hfails⟩)
      · exact .inr (.inr hsettled)
    · exact .inr (.inl ⟨k, hik, Nat.lt_succ_of_lt hkj, hfails⟩)
    · exact .inr (.inr ⟨slot, h.lasts (Nat.le_succ j) hslot hsettled, hsettled⟩)

theorem refetched {i j : Nat} (hij : i < j) (hfirst : Fetches (run i) (run (i + 1)) s)
    (hsecond : Fetches (run j) (run (j + 1)) s) :
    ∃ k, i < k ∧ k < j ∧ Fails (run k) (run (k + 1)) s := by
  obtain ⟨t, -, -, -, -, hbegun⟩ := hfirst.inFlight (h.effect i) (h.assigned i)
  obtain ⟨t', task', ht', hidle, hcompiles, -⟩ := hsecond.inFlight (h.effect j) (h.assigned j)
  have hpending := (h.assigned j).pending ⟨task', ht', hcompiles⟩
  rcases h.begun hij hbegun with hstill | hfailed | ⟨slot, hslot, hsettled⟩
  · -- one task would make both requests, but it is not idle when it makes the second one
    have hpending' := (h.assigned j).pending hstill.inFlight
    obtain rfl : t = t' := Slot.pending.inj (Option.some.inj (hpending'.symm.trans hpending))
    obtain ⟨task, ht, -, hbegun⟩ := hstill
    obtain rfl : task = task' := Option.some.inj (ht.symm.trans ht')
    exact absurd hidle hbegun
  · exact hfailed
  · exact absurd (Option.some.inj (hslot.symm.trans hpending)) (hsettled t')

/-- Whatever happens to the graph of a loader until it is torn down, each store id lives through
its life cycle. -/
theorem lifeCycle (s : String) : LifeCycle run s where
  moves i := (h.effect i).moves (h.assigned i) s
  lasts _ _ _ hij hslot hsettled := h.lasts hij hslot hsettled
  single i _ _ hflight hflight' :=
    Slot.pending.inj (Option.some.inj
      (((h.assigned i).pending hflight).symm.trans ((h.assigned i).pending hflight')))
  refetched _ _ hij hfirst hsecond := h.refetched hij hfirst hsecond

omit h in
/-- A text that is no module at first, and is not there when it is asked for again: it is fetched
twice, since its compilation has failed in between. -/
theorem lifeCycle_again : ∃ run : Nat → Graph, Course run ∧ (run 3).requests = 1 ∧
    (run 3).slots.contains "app:a" = false ∧ (run 6).requests = 2 ∧ (run 6).absent = ["app:a"] ∧
    LifeCycle run "app:a" := by
  let url : Url := ⟨"app", none, .opaqueText "a", none, none⟩
  let site (sources : List (String × String)) : Site :=
    ⟨⟨none, .standard, ["app"]⟩, { Fetcher.empty with sources := .ofList sources }⟩
  let asked := (empty.ensure "app:a" url none).2
  let fetched := asked.begin (site [("app:a", "(")]) 0
  let failed := fetched.receive 0
  let askedAgain := (failed.ensure "app:a" url none).2
  let fetchedAgain := askedAgain.begin (site []) 1
  let missing := fetchedAgain.receive 1
  let run : Nat → Graph
    | 0 => empty
    | 1 => asked
    | 2 => fetched
    | 3 => failed
    | 4 => askedAgain
    | 5 => fetchedAgain
    | _ => missing
  have hcourse : Course run := by
    refine ⟨rfl, fun i => ?_⟩
    match i with
    | 0 => exact .inr (.ensure "app:a" url none)
    | 1 => exact .inr (.task (.begin 0))
    | 2 => exact .inr (.task (.receive 0 : TaskStep (site []) fetched failed))
    | 3 => exact .inr (.ensure "app:a" url none)
    | 4 => exact .inr (.task (.begin 1))
    | 5 => exact .inr (.task (.receive 1 : TaskStep (site []) fetchedAgain missing))
    | i + 6 => exact .inl rfl
  exact ⟨run, hcourse, by decide +kernel, by decide +kernel, by decide +kernel,
    by decide +kernel, hcourse.lifeCycle "app:a"⟩

end Course

end EsModule.Loader.Graph
