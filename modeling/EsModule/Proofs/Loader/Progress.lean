import EsModule.Proofs.Loader.Following

/-!
# Asking for a task gets it on

For every module behind an entry there is only so much to be done: its request is made, its answer
comes nearer each time it is asked for in vain, and then its task waits for as many tasks as the
module names others (`work`). Whoever asks for the outcome of a task gets it, or it ends in an
error, or less is left to be done afterwards (`Follows.ask_advances`).
-/

namespace EsModule.Loader

open EsModule.Compile Relation

namespace Graph

/-! ## What is left to be done -/

section
variable (site : Site)

/-- How often the answer for a module is asked for in vain. -/
def delayOf (u : Url) : Nat := (site.fetcher.delays[u.text]?).getD 0

/-- How many modules a module names. -/
def widthOf (u : Url) : Nat :=
  ((site.module? u).map fun m => m.interface.dependencies.length).getD 0

/-- How much is left to be done for a module whose task is at a stage. -/
def stageWork (u : Url) : Progress → Nat
  | .idle => delayOf site u + widthOf site u + 4
  | .fetching delay _ => delay + widthOf site u + 3
  | .waiting a => a.awaits.length + 1
  | .done _ => 0

/-- How much is left to be done for a module. -/
def work (g : Graph) (u : Url) : Nat :=
  match g.slots[u.text]? with
  | none => delayOf site u + widthOf site u + 5
  | some (.pending t) => ((g.progress? t).map (stageWork site u)).getD 0
  | some _ => 0

/-- For no module behind an entry is more left to be done than before. -/
def Shrinks (entry : Url) (g g' : Graph) : Prop :=
  ∀ u, site.Reaches entry u → work site g' u ≤ work site g u

/-- For some module behind an entry, less is left to be done than before. -/
def ShrinksSome (entry : Url) (g g' : Graph) : Prop :=
  ∃ u, site.Reaches entry u ∧ work site g' u < work site g u

/-- What asking for the outcome of a task gets on: it ends in an error, or it is done, or less is
left to be done. -/
def Advances (entry : Url) (g : Graph) : Option Outcome × Graph → Prop
  | (some (.error _), _) => True
  | (some (.ok _), g') => Shrinks site entry g g'
  | (none, g') => Shrinks site entry g g' ∧ ShrinksSome site entry g g'

end

variable {site : Site} {entry u v : Url} {E : Url → List String} {g g' g'' : Graph} {t : Nat}
  {task : Task}

theorem Shrinks.refl (g : Graph) : Shrinks site entry g g := fun _ _ => Nat.le_refl _

theorem Shrinks.trans (h : Shrinks site entry g g') (h' : Shrinks site entry g' g'') :
    Shrinks site entry g g'' :=
  fun u hu => Nat.le_trans (h' u hu) (h u hu)

theorem ShrinksSome.before (h : Shrinks site entry g g') (h' : ShrinksSome site entry g' g'') :
    ShrinksSome site entry g g'' := by
  obtain ⟨u, hu, hlt⟩ := h'
  exact ⟨u, hu, Nat.lt_of_lt_of_le hlt (h u hu)⟩

theorem ShrinksSome.after (h : ShrinksSome site entry g g') (h' : Shrinks site entry g' g'') :
    ShrinksSome site entry g g'' := by
  obtain ⟨u, hu, hlt⟩ := h
  exact ⟨u, hu, Nat.lt_of_le_of_lt (h' u hu) hlt⟩

theorem Shrinks.of_eq (hslots : g'.slots = g.slots) (htasks : g'.tasks = g.tasks) :
    Shrinks site entry g g' := by
  intro u _
  unfold work progress?
  rw [hslots, htasks]

theorem Advances.of_shrinks {result : Option Outcome × Graph}
    (h : Shrinks site entry g result.2) (h' : ShrinksSome site entry g result.2) :
    Advances site entry g result := by
  obtain ⟨_ | _ | _, g'⟩ := result
  · exact ⟨h, h'⟩
  · trivial
  · exact h

theorem Advances.before {result : Option Outcome × Graph} (h : Shrinks site entry g g')
    (h' : Advances site entry g' result) : Advances site entry g result := by
  obtain ⟨_ | _ | _, g''⟩ := result
  · exact ⟨h.trans h'.1, .before h h'.2⟩
  · trivial
  · exact h.trans h'

/-! ## Steps of one task -/

namespace Follows

variable (h : Follows site entry E g) (hp : site.Plain entry)
include h

/-- The work for a module whose task is not done is that of the stage of the task. -/
theorem work_eq (ht : g.tasks[t]? = some task) (hnot : ∀ o, task.progress ≠ .done o) :
    work site g task.request = stageWork site task.request task.progress := by
  have hfits := h.tasks t task ht
  unfold work progress?
  rw [← hfits.storeId, hfits.pending hnot]
  dsimp only
  rw [ht]
  rfl

include hp

/-- Where one task and its slot change, the work for other modules stays the same. -/
theorem work_other (ht : g.tasks[t]? = some task)
    (htasks : ∀ s, t ≠ s → g'.tasks[s]? = g.tasks[s]?)
    (hslots : ∀ s, task.storeId ≠ s → g'.slots[s]? = g.slots[s]?)
    (hu : site.Reaches entry u) (hne : task.request ≠ u) : work site g' u = work site g u := by
  have hfits := h.tasks t task ht
  have htext : task.storeId ≠ u.text := fun heq =>
    hne (hp.text_inj hfits.reached hu (hfits.storeId.symm.trans heq))
  unfold work
  rw [hslots _ htext]
  cases hslot : g.slots[u.text]? with
  | none => rfl
  | some slot =>
    cases slot with
    | pending s =>
      -- the slot of another module is that of another task
      obtain ⟨task', ht', hstoreId, -⟩ := h.slots _ _ hslot
      have hts : t ≠ s := by
        rintro rfl
        obtain rfl := Option.some.inj (ht.symm.trans ht')
        exact htext hstoreId
      dsimp only
      unfold progress?
      rw [htasks s hts]
    | ready | absent => rfl

/-- If a step changes one task and its slot, and leaves no more to be done for its module, then it
leaves no more to be done for any module. -/
theorem shrinks_update (ht : g.tasks[t]? = some task)
    (htasks : ∀ s, t ≠ s → g'.tasks[s]? = g.tasks[s]?)
    (hslots : ∀ s, task.storeId ≠ s → g'.slots[s]? = g.slots[s]?)
    (hwork : work site g' task.request ≤ work site g task.request) : Shrinks site entry g g' := by
  intro u hu
  by_cases hne : task.request = u
  · exact hne ▸ hwork
  · exact Nat.le_of_eq (h.work_other hp ht htasks hslots hu hne)

omit hp in
/-- After a task went to another stage, as much is left to be done as there is at that stage. -/
theorem work_setProgress (ht : g.tasks[t]? = some task) (hnot : ∀ o, task.progress ≠ .done o)
    (p : Progress) :
    work site (g.setProgress t p) task.request = stageWork site task.request p := by
  have hfits := h.tasks t task ht
  unfold work progress?
  rw [slots_setProgress, ← hfits.storeId, hfits.pending hnot]
  dsimp only
  rw [tasks_setProgress, if_pos rfl, ht]
  rfl

theorem shrinks_setProgress (ht : g.tasks[t]? = some task) (hnot : ∀ o, task.progress ≠ .done o)
    {p : Progress} (hwork : stageWork site task.request p ≤
      stageWork site task.request task.progress) : Shrinks site entry g (g.setProgress t p) := by
  refine h.shrinks_update hp ht (fun s hts => ?_) (fun _ _ => rfl) ?_
  · rw [tasks_setProgress, if_neg hts]
  · rw [h.work_setProgress ht hnot, h.work_eq ht hnot]
    exact hwork

omit hp in
theorem shrinksSome_setProgress (ht : g.tasks[t]? = some task)
    (hnot : ∀ o, task.progress ≠ .done o) {p : Progress} (hwork : stageWork site task.request p <
      stageWork site task.request task.progress) :
    ShrinksSome site entry g (g.setProgress t p) := by
  refine ⟨task.request, (h.tasks t task ht).reached, ?_⟩
  rw [h.work_setProgress ht hnot, h.work_eq ht hnot]
  exact hwork

/-- Nothing is left to be done for a module whose task has ended well. -/
theorem shrinks_finish (ht : g.tasks[t]? = some task) (c : Option Compiled) :
    Shrinks site entry g (g.finish t (.ok c)) := by
  have hfits := h.tasks t task ht
  have hslots : ∀ s, (g.finish t (.ok c)).slots[s]? =
      if task.storeId = s then slotOf? (.ok c) else g.slots[s]? := by
    intro s
    rw [slots_finish ht]
    simp only [hfits.slot, and_true]
  refine h.shrinks_update hp ht (fun s hts => ?_) (fun s hs => ?_) ?_
  · rw [tasks_finish, if_neg hts]
  · rw [hslots, if_neg hs]
  · have hzero : work site (g.finish t (.ok c)) task.request = 0 := by
      unfold work
      rw [hslots, if_pos hfits.storeId]
      cases c <;> rfl
    rw [hzero]
    exact Nat.zero_le _

theorem shrinks_begin (t : Nat) : Shrinks site entry g (g.begin site t) := by
  unfold Graph.begin
  split
  · rename_i storeId request isInline ht
    rw [if_pos (hp.allowed _ (h.tasks t _ ht).reached)]
    have hsame : Follows site entry E { g with requests := g.requests + 1 } :=
      h.of_eq rfl rfl fun w hw => .inl hw
    have hcounted : Shrinks site entry g { g with requests := g.requests + 1 } := .of_eq rfl rfl
    refine hcounted.trans (hsame.shrinks_setProgress hp ht nofun ?_)
    exact Nat.le_succ _
  · exact .refl g

/-- An answer that is asked for in vain comes nearer. -/
theorem tick_advances (hdelayed : g.isDelayed t = true) :
    Shrinks site entry g (g.tick t) ∧ ShrinksSome site entry g (g.tick t) := by
  unfold isDelayed at hdelayed
  split at hdelayed
  · rename_i delay answer hprogress
    unfold Graph.tick
    rw [hprogress]
    dsimp only
    obtain ⟨task, ht, hprogress⟩ := Option.map_eq_some_iff.mp hprogress
    have hnot : ∀ o, task.progress ≠ .done o := by rw [hprogress]; nofun
    have hlt : stageWork site task.request (.fetching delay answer) <
        stageWork site task.request task.progress := by
      rw [hprogress]
      simp only [stageWork]
      omega
    exact ⟨h.shrinks_setProgress hp ht hnot (Nat.le_of_lt hlt),
      h.shrinksSome_setProgress ht hnot hlt⟩
  · cases hdelayed

theorem shrinks_arrive (t : Nat) (b : Await) : Shrinks site entry g (g.arrive t b) := by
  unfold Graph.arrive
  split
  · rename_i storeId request isInline a ht
    have hle : (a.awaits.erase b).length ≤ a.awaits.length := List.length_erase_le
    have hset := h.shrinks_setProgress hp ht nofun
      (p := .waiting { a with awaits := a.awaits.erase b }) (Nat.succ_le_succ hle)
    exact hset.trans (.of_eq rfl rfl)
  · exact .refl g

end Follows

/-! ## Asking for modules -/

/-- Every slot that is pending has a task. -/
def Held (g : Graph) : Prop :=
  ∀ (s : String) (t : Nat), g.slots[s]? = some (.pending t) → t < g.tasks.size

theorem Follows.held (h : Follows site entry E g) : g.Held := by
  intro s t hs
  obtain ⟨task, ht, -⟩ := h.slots s _ hs
  exact (Array.getElem?_eq_some_iff.mp ht).1

/-- A new task is a part of the work that was to be done. -/
theorem Held.taskFor (h : g.Held) (site : Site) (storeId : String) (request : Url) :
    (g.taskFor storeId request).2.Held ∧
      ∀ u, work site (g.taskFor storeId request).2 u ≤ work site g u := by
  unfold Graph.taskFor
  cases hslot : g.slots[storeId]? with
  | some slot => cases slot <;> exact ⟨h, fun _ => Nat.le_refl _⟩
  | none =>
    have hslots : ∀ s, (g.slots.insert storeId (.pending g.tasks.size))[s]? =
        if storeId = s then some (.pending g.tasks.size) else g.slots[s]? :=
      fun s => Table.getElem?_insert ..
    refine ⟨fun s t hs => ?_, fun u => ?_⟩
    · have hsize : (g.tasks.push ⟨storeId, request, false, .idle⟩).size = g.tasks.size + 1 :=
        Array.size_push _
      refine lt_of_lt_of_eq ?_ hsize.symm
      have hs' := (hslots s).symm.trans hs
      split at hs'
      · cases hs'
        exact Nat.lt_succ_self _
      · exact Nat.lt_succ_of_lt (h s t hs')
    · unfold work progress? newTask
      dsimp only
      rw [hslots]
      by_cases hs : storeId = u.text
      · rw [if_pos hs, ← hs, hslot]
        dsimp only
        rw [Array.getElem?_push_size]
        exact Nat.le_succ _
      · rw [if_neg hs]
        cases hu : g.slots[u.text]? with
        | none => exact Nat.le_refl _
        | some slot =>
          cases slot with
          | pending t =>
            dsimp only
            rw [Array.getElem?_push_lt (h _ t hu), Array.getElem?_eq_getElem (h _ t hu)]
          | ready | absent => exact Nat.le_refl _

theorem Held.ensure (h : g.Held) (site : Site) (storeId : String) (request : Url)
    (waiter : Option String) :
    (g.ensure storeId request waiter).2.Held ∧
      ∀ u, work site (g.ensure storeId request waiter).2 u ≤ work site g u := by
  have htask := h.taskFor site storeId request
  unfold Held work progress? at htask ⊢
  rw [slots_ensure, tasks_ensure]
  exact htask

/-- What comes of asking for modules leaves no more to be done, and no more to wait for than there
are modules. -/
theorem Held.askForAll (h : g.Held) (site : Site) (storeId : String) (realUrl : Url)
    {specifiers : List String} {before children : Children}
    (hall : askForAll storeId realUrl specifiers before g = (.ok children, g')) :
    (∀ u, work site g' u ≤ work site g u) ∧
      children.awaits.length ≤ before.awaits.length + specifiers.length := by
  induction specifiers generalizing before g with
  | nil =>
    cases hall
    exact ⟨fun _ => Nat.le_refl _, Nat.le_refl _⟩
  | cons specifier specifiers ih =>
    unfold Graph.askForAll at hall
    split at hall
    · rename_i child request _ _
      have hensure := h.ensure site child.text request (some storeId)
      generalize g.ensure child.text request (some storeId) = asked at hall hensure
      obtain ⟨await, g₁⟩ := asked
      obtain ⟨hwork, hlength⟩ := ih hensure.1 hall
      refine ⟨fun u => Nat.le_trans (hwork u) (hensure.2 u), ?_⟩
      have hone : await.toList.length ≤ 1 := by cases await <;> simp
      simp only [List.length_append, List.length_cons] at hlength ⊢
      omega
    · cases hall
    · cases hall

namespace Follows

variable (h : Follows site entry E g) (hp : site.Plain entry)
include h hp

/-- A module whose text is there waits for no more modules than it names. -/
theorem shrinks_receive (t : Nat) : Shrinks site entry g (g.receive t) := by
  unfold Graph.receive
  split
  · rename_i storeId request isInline answer ht
    split
    · rename_i r
      split
      · obtain ⟨m, children, g₁, g', ha, heq⟩ := h.analyse_eq hp ht rfl ‹_›
        dsimp only at heq ha
        rw [heq]
        have hsame : Shrinks site entry g g₁ := .of_eq ha.slots ha.tasks
        have hheld : g₁.Held := by
          unfold Held
          rw [ha.slots, ha.tasks]
          exact h.held
        -- what is new was to be done anyhow, and what is waited for was counted by the width
        obtain ⟨hwork, hlength⟩ := hheld.askForAll site _ _ ha.asked
        refine hsame.trans (Shrinks.trans (fun u _ => hwork u) ?_)
        refine ha.asks.follows.shrinks_setProgress hp ha.task nofun ?_
        have hwidth : widthOf site request = m.interface.dependencies.length := by
          rw [widthOf, ha.module]
          rfl
        simp only [List.length_nil] at hlength
        simp only [stageWork, hwidth]
        omega
      · exact h.shrinks_finish hp ht none
    · exact h.shrinks_finish hp ht none
  · exact .refl g

end Follows

/-! ## Asking for the outcome of a task -/

theorem outcome?_finish (ht : g.tasks[t]? = some task) (outcome : Outcome) :
    (g.finish t outcome).outcome? t = some outcome :=
  outcome?_eq_some.mpr ⟨_, tasks_finish_self ht outcome, rfl⟩

/-- A task that has begun is not idle. -/
theorem progress_begin (site : Site) (ht : g.tasks[t]? = some task) :
    ∃ task', (g.begin site t).tasks[t]? = some task' ∧ task'.progress ≠ .idle := by
  unfold Graph.begin
  split
  · split
    · exact ⟨_, tasks_setProgress_self ht _, nofun⟩
    · exact ⟨_, tasks_finish_self ht _, nofun⟩
  · rename_i hnot
    refine ⟨task, ht, fun hidle => ?_⟩
    obtain ⟨storeId, request, isInline, progress⟩ := task
    obtain rfl : progress = .idle := hidle
    exact hnot _ _ _ ht

/-- A task whose answer was taken waits for others, or is done. -/
theorem Follows.outcome?_receive (h : Follows site entry E g) (hp : site.Plain entry)
    (ht : g.tasks[t]? = some task) (hidle : task.progress ≠ .idle)
    (hdelayed : g.isDelayed t = false) (hnone : (g.receive t).awaitsOf t = none) :
    ∃ o, (g.receive t).outcome? t = some o := by
  unfold Graph.isDelayed progress? at hdelayed
  rw [ht] at hdelayed
  obtain ⟨storeId, request, isInline, progress⟩ := task
  cases progress with
  | idle => exact absurd rfl hidle
  | done o =>
    have hreceive : g.receive t = g := by unfold Graph.receive; rw [ht]
    exact ⟨o, by rw [hreceive, outcome?_eq_some]; exact ⟨_, ht, rfl⟩⟩
  | waiting a =>
    have hreceive : g.receive t = g := by unfold Graph.receive; rw [ht]
    have hwaiting := awaitsOf_eq_some.mpr ⟨_, a, ht, rfl, rfl⟩
    rw [hreceive] at hnone
    exact nomatch hnone.symm.trans hwaiting
  | fetching delay answer =>
    cases delay with
    | succ => cases hdelayed
    | zero =>
      cases answer with
      | error =>
        have hreceive : g.receive t = g.finish t (.ok none) := by
          unfold Graph.receive
          rw [ht]
          rfl
        exact ⟨_, hreceive ▸ outcome?_finish ht _⟩
      | ok r =>
        have hreceive : g.receive t =
            if r.isSuccess then g.analyse t storeId r else g.finish t (.ok none) := by
          unfold Graph.receive
          rw [ht]
          rfl
        rw [hreceive] at hnone ⊢
        by_cases hsuccess : r.isSuccess = true
        · obtain ⟨m, children, g₁, g', ha, heq⟩ := h.analyse_eq hp ht rfl hsuccess
          have hwaiting := awaitsOf_eq_some.mpr ⟨_, _, tasks_setProgress_self ha.task
            (.waiting ⟨m, request, children.dependencies, children.awaits⟩), rfl, rfl⟩
          rw [if_pos hsuccess, heq] at hnone
          exact nomatch hnone.symm.trans hwaiting
        · refine ⟨.ok none, ?_⟩
          rw [if_neg hsuccess]
          exact outcome?_finish ht _

/-- A task that another one waits for is that of a module that the module of the other one names. -/
theorem Follows.depends_of_await {awaits : List Await} {b : Await} (h : Follows site entry E g)
    (ht : g.tasks[t]? = some task) (ha : g.awaitsOf t = some awaits) (hmem : b ∈ awaits) :
    ∃ task', g.tasks[b.task]? = some task' ∧ site.Depends task.request task'.request := by
  obtain ⟨task', a, ht', hprogress, rfl⟩ := awaitsOf_eq_some.mp ha
  obtain rfl := Option.some.inj (ht.symm.trans ht')
  have hfits := (h.tasks t task ht).progress
  rw [hprogress] at hfits
  obtain ⟨_, task', hdep, -, ht', rfl⟩ := hfits.awaits b hmem
  exact ⟨task', ht', hdep⟩

/-- What comes of asking the tasks that a task waits for: one of them ends in an error, or all are
done, or less is left to be done. -/
def AsksOn (site : Site) (entry : Url) (all : Bool) (g : Graph) : Asked × Graph → Prop
  | (.failed _, _) => True
  | (.allDone, g') => all = true ∧ Shrinks site entry g g'
  | (.notYet, g') => Shrinks site entry g g' ∧ (all = true → ShrinksSome site entry g g')

namespace AsksOn

variable {all : Bool} {result : Asked × Graph}

theorem before (h : Shrinks site entry g g') (h' : AsksOn site entry all g' result) :
    AsksOn site entry all g result := by
  obtain ⟨_ | _ | _, g''⟩ := result
  · exact ⟨h'.1, h.trans h'.2⟩
  · exact ⟨h.trans h'.1, fun hall => .before h (h'.2 hall)⟩
  · trivial

/-- If one that was asked before is not done, not all are done. -/
theorem after (h : Shrinks site entry g g') (h' : ShrinksSome site entry g g')
    (hrest : AsksOn site entry false g' result) : AsksOn site entry all g result := by
  obtain ⟨_ | _ | _, g''⟩ := result
  · exact absurd hrest.1 nofun
  · exact ⟨h.trans hrest.1, fun _ => h'.after hrest.1⟩
  · trivial

end AsksOn

section
variable {ask : Nat → Graph → Option Outcome × Graph} {asking : List Nat}

/-- Asking the tasks that a task waits for gets on, if asking each of them does. -/
theorem Follows.askAwaits_asksOn (h : Follows site entry E g) (hp : site.Plain entry)
    (hE : site.ExportLists entry E) (hdrives : Drives site asking ask) (ht : t ∈ asking)
    (htask : ∃ task, g.tasks[t]? = some task ∧ task.request = u)
    (hask : ∀ g', Follows site entry E g' → Grows g g' → ∀ s task, g'.tasks[s]? = some task →
      site.Depends u task.request → Advances site entry g' (ask s g'))
    {kept awaits : List Await} {all : Bool} (hw : g.WaitsFor t kept awaits) :
    AsksOn site entry all g (askAwaits ask t awaits all g) := by
  induction awaits generalizing g kept all with
  | nil =>
    unfold askAwaits
    cases all with
    | false => exact ⟨.refl g, fun hall => absurd hall Bool.false_ne_true⟩
    | true => exact ⟨rfl, .refl g⟩
  | cons a awaits ih =>
    obtain ⟨task, ht', rfl⟩ := htask
    -- the task that is asked is that of a module that is named
    obtain ⟨current, hcurrent, hmem⟩ := hw.mem
    obtain ⟨s, hs, hdep⟩ := h.depends_of_await ht' hcurrent hmem
    have hadvances := hask g h (.refl g) a.task s hs hdep
    have hsteps := hdrives.steps a.task g
    have hkeeps := hw.keeps (hdrives.keeps a.task g t ht)
    have houtcome := hdrives.outcome a.task g
    unfold askAwaits
    split
    all_goals
      rename_i g' hasked
      rw [hasked] at hadvances hsteps hkeeps houtcome
      obtain ⟨hfollows, hgrows⟩ := h.steps hp hE hsteps
    · have htask' := hgrows.tasks t task ht'
      have hrest : AsksOn site entry false g' (askAwaits ask t awaits false g') :=
        ih hfollows htask' (fun g'' h' hg => hask g'' h' (hgrows.trans hg)) hkeeps.keep
      exact .after hadvances.1 hadvances.2 hrest
    · obtain ⟨current', hcurrent', hmem'⟩ := hkeeps.mem
      have hstep : TaskStep site g' (g'.arrive t a) := .arrive hcurrent' hmem' (houtcome _ rfl)
      obtain ⟨hfollows', hgrows'⟩ := hfollows.step hp hE hstep
      have hrest : AsksOn site entry all _ (askAwaits ask t awaits all (g'.arrive t a)) :=
        ih hfollows' ((hgrows.trans hgrows').tasks t task ht')
          (fun g'' h' hg => hask g'' h' ((hgrows.trans hgrows').trans hg)) hkeeps.arrive
      exact .before (Shrinks.trans hadvances (hfollows.shrinks_arrive hp t a)) hrest
    · trivial

/-- Asking a task that waits for others gets on, if asking them does. -/
theorem Follows.conclude_advances (h : Follows site entry E g) (hp : site.Plain entry)
    (hE : site.ExportLists entry E) {result : Asked × Graph}
    (hspec : AskedAwaits site t true g result) (hasks : AsksOn site entry true g result) :
    Advances site entry g
      ((result.2.conclude t result.1).outcome? t, result.2.conclude t result.1) := by
  obtain ⟨hfollows, -⟩ := h.steps hp hE hspec.steps
  obtain ⟨_ | _ | e, g'⟩ := result
  · obtain ⟨⟨storeId, request, isInline, _⟩, a, ht', rfl, hawaits⟩ :=
      awaitsOf_eq_some.mp (hspec.allDone rfl).2
    have hcomplete : g'.complete t = g'.finish t (g'.outcomeOf storeId a) := by
      unfold Graph.complete
      rw [ht']
      dsimp only
      rw [hawaits]
      rfl
    dsimp only [Graph.conclude] at hfollows ⊢
    rw [hcomplete, outcome?_finish ht']
    cases g'.outcomeOf storeId a with
    | error => trivial
    | ok c => exact Shrinks.trans hasks.2 (hfollows.shrinks_finish hp ht' c)
  · exact .of_shrinks hasks.1 (hasks.2 rfl)
  · obtain ⟨awaits, b, ha, -, -⟩ := hspec.failed e rfl
    obtain ⟨⟨storeId, request, isInline, _⟩, a, ht', rfl, -⟩ := awaitsOf_eq_some.mp ha
    have hgiveUp : (g'.giveUp t e).outcome? t = some (.error e) := by
      have hsame : (a.awaits.foldl (fun g b => g.removeWait ⟨storeId, b.target⟩) g').tasks[t]? =
          some ⟨storeId, request, isInline, .waiting a⟩ := by
        rw [tasks_removeWaits, ht']
      unfold Graph.giveUp
      rw [ht']
      exact outcome?_finish hsame _
    dsimp only [Graph.conclude]
    rw [hgiveUp]
    trivial

end

/-- Some tasks are those of modules that depend on one module. -/
def AskedFrom (site : Site) (g : Graph) (asking : List Nat) (u : Url) : Prop :=
  ∀ s ∈ asking, ∃ task, g.tasks[s]? = some task ∧ TransGen site.Depends task.request u

namespace AskedFrom

variable {asking : List Nat}

/-- Who asks on behalf of such tasks does not ask one of them. -/
theorem notMem (h : AskedFrom site g asking task.request) (hp : site.Plain entry)
    (hu : site.Reaches entry task.request) (ht : g.tasks[t]? = some task) : t ∉ asking := by
  intro hmem
  obtain ⟨task', ht', hdep⟩ := h t hmem
  obtain rfl := Option.some.inj (ht.symm.trans ht')
  exact hp.acyclic _ hu hdep

/-- A task asks those of the modules that its module names. -/
theorem cons (h : AskedFrom site g asking task.request) (ht : g.tasks[t]? = some task)
    (hdep : site.Depends task.request v) : AskedFrom site g (t :: asking) v := by
  intro s hs
  rcases List.mem_cons.mp hs with rfl | hs
  · exact ⟨task, ht, .single hdep⟩
  · obtain ⟨task', ht', hdep'⟩ := h s hs
    exact ⟨task', ht', hdep'.tail hdep⟩

theorem mono (h : AskedFrom site g asking u) (hg : Grows g g') : AskedFrom site g' asking u := by
  intro s hs
  obtain ⟨task, ht, hdep⟩ := h s hs
  obtain ⟨task', ht', hrequest⟩ := hg.tasks s task ht
  exact ⟨task', ht', hrequest.symm ▸ hdep⟩

end AskedFrom

/-- Asking for the outcome of a task gets it on. The depth that is needed is how high the module is
in the dependency graph. -/
theorem Follows.ask_advances (hp : site.Plain entry) (hE : site.ExportLists entry E)
    {height : Url → Nat}
    (hheight : ∀ u, site.Reaches entry u → ∀ v, site.Depends u v → height v < height u)
    {depth : Nat} {asking : List Nat} (h : Follows site entry E g) (ht : g.tasks[t]? = some task)
    (hdepth : height task.request < depth) (hasking : AskedFrom site g asking task.request) :
    Advances site entry g (ask site depth asking t g) := by
  -- a task asks on behalf of itself, and only for modules that are lower
  induction depth generalizing asking t g task with
  | zero => exact absurd hdepth (Nat.not_lt_zero _)
  | succ depth ih =>
    have hreached := (h.tasks t task ht).reached
    rw [ask_of_notMem (hasking.notMem hp hreached ht)]
    obtain ⟨hbegun, hgrows⟩ := h.begin hp t
    obtain ⟨task₁, ht₁, hidle⟩ := progress_begin site ht
    refine .before (h.shrinks_begin hp t) ?_
    by_cases hdelayed : (g.begin site t).isDelayed t = true
    · rw [if_pos hdelayed]
      exact hbegun.tick_advances hp hdelayed
    rw [if_neg hdelayed]
    obtain ⟨hreceived, hgrows'⟩ := hbegun.receive hp t
    refine .before (hbegun.shrinks_receive hp t) ?_
    obtain ⟨task₂, ht₂, hrequest⟩ := (hgrows.trans hgrows').tasks t task ht
    have hasking' := hasking.mono (hgrows.trans hgrows')
    rw [← hrequest] at hdepth hreached hasking'
    generalize hg₂ : (g.begin site t).receive t = g₂ at *
    split
    -- the task waits for others, or it is done since nothing is served
    · rename_i awaits ha
      have hdrives := ask_drives site depth (t :: asking)
      have hwaits := WaitsFor.of_awaitsOf ha
      have hspec : AskedAwaits site t true g₂ _ :=
        askAwaits_spec hdrives List.mem_cons_self hwaits fun _ => rfl
      refine hreceived.conclude_advances hp hE hspec ?_
      refine hreceived.askAwaits_asksOn hp hE hdrives List.mem_cons_self ⟨task₂, ht₂, rfl⟩
        (fun g' h' hg s task' hs hdep => ?_) hwaits
      have hlower := hheight _ hreached _ hdep
      exact ih h' hs (by omega) ((hasking'.cons ht₂ hdep).mono hg)
    · rename_i hnone
      have hdone := hbegun.outcome?_receive hp ht₁ hidle (Bool.eq_false_iff.mpr hdelayed)
      rw [hg₂] at hdone
      obtain ⟨o, ho⟩ := hdone hnone
      rw [ho]
      cases o with
      | error => trivial
      | ok c => exact .refl g₂

end Graph

end EsModule.Loader
