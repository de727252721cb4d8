import EsModule.Proofs.Loader.Acyclic
import EsModule.Proofs.Loader.Tied

/-!
# A call that succeeds leaves nothing half loaded

Where nothing is under way (`Clean`), a call that compiles a module makes a task for it, and each
further task is made by an earlier one, which waits for it. So a task that is not successful makes
an earlier one wait or fail, and when the first task is successful all tasks are
(`Loads.successful`). With them everything goes that belongs to tasks that wait. After a call,
nothing is under way again unless the call fails since the task of its module does
(`World.request_clean`). Then a module may stay pending that nobody compiles
(`World.request_unclean`).
-/

namespace EsModule.Loader

namespace Graph

variable {site : Site} {g g' : Graph} {root t : Nat} {task : Task}

/-- Nothing is under way. -/
structure Clean (g : Graph) : Prop where
  /-- All tasks are done. -/
  done : ∀ (t : Nat) (task : Task), g.tasks[t]? = some task → ∃ o, task.progress = .done o
  /-- No module is pending. -/
  settled : ∀ (s : String) (t : Nat), ¬ g.slots[s]? = some (.pending t)
  /-- Nothing is declared in advance. -/
  declared : ∀ s : String, g.declared[s]? = none
  /-- Nobody waits. -/
  waits : g.waits = []

/-! ## The beginning and the end -/

theorem clean_empty : empty.Clean where
  done _ _ ht := nomatch ht
  settled _ _ hs := nomatch hs
  declared _ := Std.TreeMap.getElem?_emptyc
  waits := rfl

theorem Clean.assigned (h : g.Clean) : g.Assigned where
  owned t task ht _ hnot := by
    obtain ⟨o, ho⟩ := h.done t task ht
    exact absurd ho (hnot o)
  inFlight s t hs := absurd hs (h.settled s t)
  slotted t task ht hidle := by
    obtain ⟨o, ho⟩ := h.done t task ht
    exact nomatch hidle.symm.trans ho

/-- If the first task is successful, so are all that were made since. -/
theorem Loads.successful (h : Loads root g) {c : Option Compiled}
    (hroot : g.outcome? root = some (.ok c)) (ht : g.tasks[t]? = some task) (hle : root ≤ t) :
    ∃ c, task.progress = .done (.ok c) := by
  induction t using Nat.strongRecOn generalizing task with
  | ind t ih =>
    obtain ⟨first, hfirst, hdone⟩ := outcome?_eq_some.mp hroot
    rcases Nat.eq_or_lt_of_le hle with rfl | hlt
    · obtain rfl : first = task := Option.some.inj (hfirst.symm.trans ht)
      exact ⟨c, hdone⟩
    · by_contra hbad
      obtain ⟨u, hu, hut, hheeds⟩ := h.heeded t task ht hlt fun c hc => hbad ⟨c, hc⟩
      rcases hheeds with ⟨s, awaits, ⟨waiter, analysis, hwaiter, -, hwaiting, -⟩, -⟩ | ⟨e, he⟩
      · obtain ⟨c, hc⟩ := ih u hut hwaiter hu
        exact nomatch hwaiting.symm.trans hc
      · obtain ⟨failed, hfailed, herror⟩ := outcome?_eq_some.mp he
        obtain ⟨c, hc⟩ := ih u hut hfailed hu
        exact nomatch herror.symm.trans hc

theorem Loads.clean (h : Loads root g) {c : Option Compiled}
    (hroot : g.outcome? root = some (.ok c)) : g.Clean := by
  have hdone : ∀ (t : Nat) (task : Task), g.tasks[t]? = some task →
      ∃ o, task.progress = .done o := by
    intro t task ht
    rcases Nat.lt_or_ge t root with hlt | hle
    · exact h.earlier t task ht hlt
    · obtain ⟨c, hc⟩ := h.successful hroot ht hle
      exact ⟨_, hc⟩
  have hnobody : ∀ t s awaits, ¬ g.Waiting t s awaits := by
    intro t s awaits hwaiting
    obtain ⟨task, analysis, ht, -, hprogress, -⟩ := hwaiting
    obtain ⟨o, ho⟩ := hdone t task ht
    exact nomatch hprogress.symm.trans ho
  refine ⟨hdone, fun s t hs => ?_, fun s => ?_, List.eq_nil_iff_forall_not_mem.mpr fun w hw => ?_⟩
  · obtain ⟨task, ht, -, -, hnot⟩ := h.assigned.inFlight s t hs
    obtain ⟨o, ho⟩ := hdone t task ht
    exact hnot o ho
  · by_contra hs
    obtain ⟨t, awaits, hwaiting⟩ := h.declared s hs
    exact hnobody t s awaits hwaiting
  · obtain ⟨t, awaits, hwaiting, -⟩ := h.waits w hw
    exact hnobody t _ awaits hwaiting

/-- A module that is unknown where nothing is under way gets the first task. -/
theorem Clean.loads (h : g.Clean) {storeId : String} (hslot : g.slots[storeId]? = none)
    (request : Url) : (g.ensure storeId request none).1 = some ⟨g.tasks.size, storeId⟩ ∧
      Loads g.tasks.size (g.ensure storeId request none).2 := by
  have htaskFor : (g.taskFor storeId request).1 = some g.tasks.size := by
    unfold taskFor
    rw [hslot]
    rfl
  have hensure : g.ensure storeId request none =
      (some ⟨g.tasks.size, storeId⟩, (g.taskFor storeId request).2) := by
    unfold Graph.ensure
    generalize g.taskFor storeId request = result at htaskFor
    obtain ⟨_, g'⟩ := result
    subst htaskFor
    rfl
  rw [hensure]
  have htasks : (g.taskFor storeId request).2.tasks =
      g.tasks.push ⟨storeId, request, false, .idle⟩ := by rw [tasks_taskFor, hslot]
  have hnew : ∀ (t : Nat) (task : Task), (g.taskFor storeId request).2.tasks[t]? = some task →
      g.tasks[t]? = some task ∧ t < g.tasks.size ∨
        t = g.tasks.size ∧ task = ⟨storeId, request, false, .idle⟩ := by
    intro t task ht
    rw [htasks, Array.getElem?_push] at ht
    split at ht
    · rename_i heq
      exact .inr ⟨heq, (Option.some.inj ht).symm⟩
    · exact .inl ⟨ht, (Array.getElem?_eq_some_iff.mp ht).1⟩
  refine ⟨rfl, h.assigned.taskFor storeId request, fun t task ht hlt => ?_, fun t task ht hle => ?_,
    fun w hw => ?_, fun s hs => ?_, fun t task ht hlt => ?_⟩
  · rcases hnew t task ht with ⟨ht, -⟩ | ⟨rfl, -⟩
    · exact h.done t task ht
    · exact absurd hlt (Nat.lt_irrefl _)
  · rcases hnew t task ht with ⟨-, hlt⟩ | ⟨-, rfl⟩
    · exact absurd hle (Nat.not_le_of_lt hlt)
    · rfl
  · rw [waits_taskFor, h.waits] at hw
    cases hw
  · rw [declared_taskFor] at hs
    exact absurd (h.declared s) hs
  · rcases hnew t task ht with ⟨-, hlt'⟩ | ⟨rfl, -⟩
    · exact absurd hlt (Nat.lt_asymm hlt')
    · exact absurd hlt (Nat.lt_irrefl _)

/-- Where nothing is under way, no step does anything. -/
theorem TaskStep.eq_of_clean (hs : TaskStep site g g') (h : g.Clean) : g' = g := by
  have hends : ∀ {t : Nat} {task : Task} {p : Progress}, g.tasks[t]? = some task →
      task.progress = p → ∃ o, p = .done o := by
    intro t task p ht hp
    exact hp ▸ h.done t task ht
  cases hs.acts with
  | nothing => rfl
  | request ht hprogress => exact nomatch hends ht hprogress
  | nearer ht hprogress => exact nomatch hends ht hprogress
  | finish ht hnot =>
    obtain ⟨o, ho⟩ := h.done _ _ ht
    exact absurd ho (hnot o)
  | analyse ht hprogress => exact nomatch hends ht hprogress
  | arrive ht hprogress => exact nomatch hends ht hprogress
  | giveUp ht hprogress => exact nomatch hends ht hprogress

theorem TaskSteps.eq_of_clean (hs : TaskSteps site g g') (h : g.Clean) : g' = g := by
  induction hs with
  | refl => rfl
  | tail _ hstep ih => exact (ih ▸ hstep).eq_of_clean h

end Graph

/-! ## Calls -/

/-- How a call stands that was made where nothing was under way. -/
def Call.Tidy (root : Nat) (g : Graph) : Call → Prop
  | .asked request => g.Clean ∧ g.tasks.size = root ∧
    ∀ code id url, request ≠ .importCode code id url
  | .compiling t _ => t = root ∧ g.Loads root
  | .settling .. => g.Clean
  | .done result => g.Clean ∨ ∃ e, result = .error e ∧ g.outcome? root = some (.error e)

theorem Call.eq_done {call : Call} {result : Except LoadError (Option Namespace)}
    (h : call.result? = some result) : call = .done result := by
  cases call with
  | done => rw [Option.some.inj h]
  | _ => cases h

namespace World

variable {w w' : World} {root : Nat} {call : Call}

theorem beginCompile_tidy (h : w.graph.Clean) (store request : Url) (goal : Goal) :
    (w.beginCompile store request goal).1.Tidy w.graph.tasks.size
      (w.beginCompile store request goal).2.graph := by
  unfold beginCompile
  cases hslot : w.graph.slots[store.text]? with
  | none =>
    obtain ⟨hasked, hloads⟩ := h.loads hslot request
    generalize w.graph.ensure store.text request none = asked at hasked hloads
    obtain ⟨await, g⟩ := asked
    subst hasked
    exact ⟨rfl, hloads⟩
  | some slot =>
    have hensure : w.graph.ensure store.text request none = (none, w.graph) := by
      unfold Graph.ensure Graph.taskFor
      rw [hslot]
      cases slot with
      | pending t => exact absurd hslot (h.settled _ t)
      | _ => rfl
    rw [hensure]
    cases goal with
    | run => exact h
    | _ => exact .inl h

theorem runTarget_tidy (h : w.graph.Clean) (target : Target) :
    (w.runTarget target).1.Tidy root (w.runTarget target).2.graph := by
  rw [graph_runTarget]
  unfold runTarget
  dsimp only
  split
  · exact .inl h
  · exact .inl h

theorem beginImport_tidy (h : w.graph.Clean) (id : String) (url : Option String) :
    (w.beginImport id url).1.Tidy w.graph.tasks.size (w.beginImport id url).2.graph := by
  unfold beginImport
  split
  · exact .inl h
  split
  · exact .inl h
  split
  · exact runTarget_tidy h _
  split
  · exact .inl h
  · exact beginCompile_tidy h _ _ _

theorem beginTarget_tidy (h : w.graph.Clean) (target : Except LoadError (Url × Url)) :
    (w.beginTarget target).1.Tidy w.graph.tasks.size (w.beginTarget target).2.graph := by
  cases target with
  | ok target => exact beginImport_tidy h _ _
  | error e => exact .inl h

theorem begin_tidy (h : w.graph.Clean) {request : Request}
    (hcode : ∀ code id url, request ≠ .importCode code id url) :
    (w.begin request).1.Tidy w.graph.tasks.size (w.begin request).2.graph := by
  cases request with
  | compile id url =>
    unfold World.begin
    dsimp only
    split
    · exact .inl h
    split
    · exact .inl h
    · exact beginCompile_tidy h _ _ _
  | importUrl id url => exact beginImport_tidy h id url
  | importCode code id url => exact absurd rfl (hcode code id url)
  | importDynamic specifier importer => exact beginTarget_tidy h _
  | importWith caps specifier => exact beginTarget_tidy h _

theorem afterTask_tidy {g : Graph} (h : g.Loads root) (goal : Goal) {outcome : Outcome}
    (ho : g.outcome? root = some outcome) : (afterTask goal outcome).Tidy root g := by
  cases outcome with
  | error e => exact .inr ⟨e, rfl, ho⟩
  | ok c =>
    have hclean := Graph.Loads.clean h ho
    cases goal with
    | compile => exact .inl hclean
    | run => exact hclean
    | runInline =>
      cases c with
      | none => exact .inl hclean
      | some c => exact hclean

theorem advance_tidy (h : call.Tidy root w.graph) (depth : Nat) :
    (w.advance depth call).1.1.Tidy root (w.advance depth call).2.graph := by
  cases call with
  | asked request =>
    obtain ⟨hclean, rfl, hcode⟩ := h
    exact begin_tidy hclean hcode
  | compiling t goal =>
    obtain ⟨rfl, hloads⟩ := h
    have hdrives := Graph.ask_drives w.site depth []
    have hasked := (hdrives.steps t w.graph).loads hloads
    have houtcome := hdrives.outcome t w.graph
    unfold advance World.ask
    dsimp only
    generalize Graph.ask w.site depth [] t w.graph = result at hasked houtcome
    obtain ⟨outcome, g⟩ := result
    cases outcome with
    | some outcome => exact afterTask_tidy hasked goal (houtcome outcome rfl)
    | none => exact ⟨rfl, hasked⟩
  | settling tasks roots target =>
    have hasked := (askAll_steps (Graph.ask_drives w.site depth []) tasks w.graph).eq_of_clean h
    unfold advance World.askAll
    dsimp only
    generalize Graph.askAll (Graph.ask w.site depth []) tasks w.graph = result at hasked
    obtain ⟨left, g⟩ := result
    obtain rfl : g = w.graph := hasked
    split
    all_goals
      rename_i heq
      cases heq
    · exact .inl h
    · exact h
    · dsimp only
      split
      · exact runTarget_tidy h _
      · exact h
  | done result => exact h

/-- What every step of a call keeps, asking for its result keeps. -/
theorem poll_induct {P : World → Call → Prop} {depth : Nat}
    (hadvance : ∀ {w call}, P w call → P (w.advance depth call).2 (w.advance depth call).1.1)
    (h : P w call) (steps : Nat) : P (poll depth steps call w).2 (poll depth steps call w).1 := by
  induction steps generalizing call w with
  | zero => exact h
  | succ steps ih =>
    have hadvanced := hadvance h
    unfold poll
    split
    all_goals
      rename_i heq
      rw [heq] at hadvanced
    · exact ih hadvanced
    · exact hadvanced

/-- What every step of a call keeps holds when the call is done. -/
theorem drive_induct {P : World → Call → Prop}
    (hadvance : ∀ {w call} (depth : Nat), P w call →
      P (w.advance depth call).2 (w.advance depth call).1.1)
    (h : P w call) {bound rounds : Nat} {result : Except LoadError (Option Namespace)}
    (hdrive : drive bound rounds [call] w = ([some result], w')) : P w' (.done result) := by
  induction rounds generalizing call w with
  | zero =>
    obtain ⟨hresults, rfl⟩ := Prod.mk.inj hdrive
    obtain rfl := Call.eq_done (List.cons.inj hresults).1
    exact h
  | succ rounds ih =>
    cases hresult : call.result? with
    | none =>
      rw [drive_succ hresult] at hdrive
      exact ih (poll_induct (hadvance bound) h bound) hdrive
    | some result' =>
      obtain rfl := Call.eq_done hresult
      rw [drive_done] at hdrive
      cases hdrive
      exact h

/-- A call that a host makes where nothing is under way leaves nothing under way, unless it fails
since the module that it is to compile does. Code that the host gives has no slot and is left out
here. -/
theorem request_clean (hclean : w.graph.Clean) {request : Request}
    (hcode : ∀ code id url, request ≠ .importCode code id url)
    {result : Except LoadError (Option Namespace)}
    (h : w.request [request] = ([some result], w')) : w'.graph.Clean ∨
      ∃ e, result = .error e ∧ w'.graph.outcome? w.graph.tasks.size = some (.error e) := by
  have htidy : (Call.asked request).Tidy w.graph.tasks.size w.graph := ⟨hclean, rfl, hcode⟩
  exact drive_induct (P := fun v call => call.Tidy w.graph.tasks.size v.graph)
    (fun depth htidy => advance_tidy htidy depth) htidy h

/-- A module that depends on two others, neither of which can be compiled: the call fails at the
first one, and the second one stays pending. -/
theorem request_unclean : ∃ (w : World) (request : Request) (e : LoadError) (t : Nat),
    w.graph.Clean ∧ (w.request [request]).1 = [some (.error e)] ∧
      (w.request [request]).2.graph.pendingTask? "app:/worse.js" = some t := by
  let sources : Table String := .ofList [
    ("app:/main.js", "import './bad.js'; import './worse.js';"),
    ("app:/bad.js", "let z; let z;"), ("app:/worse.js", "let y; let y;")]
  let w : World := { World.closed { Fetcher.empty with sources := sources } ∅ with
    config := ⟨none, .standard, ["app"]⟩ }
  let request : Request := .compile "app:/main.js" none
  let e : LoadError := .compile (.redeclaration "z" "app:/bad.js")
  have hrun : ((w.request [request]).1,
      (w.request [request]).2.graph.pendingTask? "app:/worse.js") =
        ([some (.error e)], some 2) := by
    decide +kernel
  obtain ⟨hresult, hpending⟩ := Prod.mk.inj hrun
  exact ⟨w, request, e, 2, Graph.clean_empty, hresult, hpending⟩

end World

end EsModule.Loader
