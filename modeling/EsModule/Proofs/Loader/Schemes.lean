import EsModule.Proofs.Loader.Effects

/-!
# Over which schemes modules come

A request is made only if the scheme of its address is allowed, whoever asks for the module and
however deep in the graph. The text comes from where redirections lead, if these are not too many
(`Fetcher.retrieve_redirected`), and this address is kept with the compiled module: what the module
names is requested relative to it. It is not looked at again, so the addresses that are kept are as
good as the answers to allowed requests (`Service.realUrls_answered`). They have allowed schemes if
redirections do not leave these (`Service.realUrls_allowed`), and a redirection that does leave them
is followed (`World.realUrl_redirected`).
-/

namespace EsModule.Loader

open Relation

/-! ## Where redirections lead -/

namespace Fetcher

variable {f : Fetcher} {request url next last : Url} {n : Nat}

/-- So many redirections lead from one address to another, each joined to the address where it was
found. -/
inductive Chain (f : Fetcher) : Nat → Url → Url → Prop where
  | here {url : Url} : Chain f 0 url url
  | redirect {n : Nat} {url next last : Url} {target : String}
      (htarget : f.redirects[url.text]? = some target) (hnext : url.join target = .ok next)
      (h : Chain f n next last) : Chain f (n + 1) url last

/-- Whether so many redirections lead from an address to one that is not redirected. -/
def LeadsTo (f : Fetcher) (n : Nat) (url last : Url) : Prop :=
  f.Chain n url last ∧ f.redirects[last.text]? = none

/-- Whether each redirection that is found on the way from an address can be joined. -/
def Resolvable (f : Fetcher) (url : Url) : Prop :=
  ∀ (n : Nat) (last : Url) (target : String), f.Chain n url last →
    f.redirects[last.text]? = some target → ∃ next, last.join target = .ok next

theorem Resolvable.joined (h : f.Resolvable url) {target : String}
    (htarget : f.redirects[url.text]? = some target) (hnext : url.join target = .ok next) :
    f.Resolvable next :=
  fun n last target' hchain => h (n + 1) last target' (.redirect htarget hnext hchain)

/-- An address that is not redirected is led to by no redirection. -/
theorem leadsTo_of_none (hurl : f.redirects[url.text]? = none) :
    f.LeadsTo n url last ↔ n = 0 ∧ url = last := by
  constructor
  · rintro ⟨hchain, -⟩
    cases hchain with
    | here => exact ⟨rfl, rfl⟩
    | redirect htarget => exact nomatch hurl.symm.trans htarget
  · rintro ⟨rfl, rfl⟩
    exact ⟨.here, hurl⟩

/-- From an address that is redirected, one redirection less leads from where the first one goes. -/
theorem leadsTo_of_some {target : String} (htarget : f.redirects[url.text]? = some target)
    (hnext : url.join target = .ok next) :
    f.LeadsTo n url last ↔ ∃ m, n = m + 1 ∧ f.LeadsTo m next last := by
  constructor
  · rintro ⟨hchain, hlast⟩
    cases hchain with
    | here => exact nomatch hlast.symm.trans htarget
    | redirect htarget' hnext' h =>
      cases htarget.symm.trans htarget'
      cases hnext.symm.trans hnext'
      exact ⟨_, rfl, h, hlast⟩
  · rintro ⟨m, rfl, hchain, hlast⟩
    exact ⟨.redirect htarget hnext hchain, hlast⟩

/-- Following redirections comes to the end of the way, if there are more lookups than redirections
on it; otherwise there are too many redirections. -/
theorem follow_spec (lookups : Nat) (h : f.Resolvable url) :
    (∀ n last, f.LeadsTo n url last → n < lookups →
      f.follow request lookups url = .ok (f.held last)) ∧
    ((∀ n last, f.LeadsTo n url last → lookups ≤ n) →
      f.follow request lookups url =
        .error (.transport ("Too many redirects: " ++ request.text))) := by
  induction lookups generalizing url with
  | zero => exact ⟨fun n _ _ hlt => absurd hlt (Nat.not_lt_zero n), fun _ => rfl⟩
  | succ lookups ih =>
    unfold follow
    cases htarget : f.redirects[url.text]? with
    | none =>
      simp only [leadsTo_of_none htarget]
      refine ⟨?_, fun hlong => ?_⟩
      · rintro n last ⟨rfl, rfl⟩ -
        rfl
      · exact absurd (hlong 0 url ⟨rfl, rfl⟩) (Nat.not_succ_le_zero lookups)
    | some target =>
      obtain ⟨next, hnext⟩ := h 0 url target .here htarget
      obtain ⟨hshort, hlong⟩ := ih (h.joined htarget hnext)
      simp only [leadsTo_of_some htarget hnext, hnext]
      refine ⟨?_, fun hmany => hlong fun n last hleads => ?_⟩
      · rintro n last ⟨m, rfl, hleads⟩ hlt
        exact hshort m last hleads (Nat.lt_of_succ_lt_succ hlt)
      · exact Nat.le_of_succ_le_succ (hmany (n + 1) last ⟨n, rfl, hleads⟩)

/-- A request is answered from the end of the redirections if there are fewer of them than
addresses that are looked up. It fails if there are as many or more, also if they never end. -/
theorem retrieve_redirected (hfixed : f.fixed? url = none) (h : f.Resolvable url) :
    (∀ n last, f.LeadsTo n url last → n < maxLookups → f.retrieve url = .ok (f.held last)) ∧
    ((∀ n last, f.LeadsTo n url last → maxLookups ≤ n) → f.retrieve url =
      .error (.transport ("Too many redirects: " ++ url.text))) := by
  unfold retrieve
  rw [hfixed]
  exact follow_spec maxLookups h

/-- The tenth redirection is one too many. -/
example :
    let page (n : Nat) : Url := ⟨"app", none, .parts [toString n], none, none⟩
    let f : Fetcher := { Fetcher.empty with
      redirects := .ofEntries ((List.range 10).map fun n => ((page n).text, (page (n + 1)).text)) }
    f.retrieve (page 1) = .ok ⟨404, page 10, ""⟩ ∧
      f.retrieve (page 0) = .error (.transport "Too many redirects: app:/0") := by
  decide +kernel

end Fetcher

variable {good : Url → Prop} {site : Site}

/-! ## Where answers come from -/

/-- Whether the texts that are served for allowed requests come from addresses of some kind. -/
def Site.AnswersFrom (site : Site) (good : Url → Prop) : Prop :=
  ∀ request r, site.config.allows request.scheme = true → site.fetcher.retrieve request = .ok r →
    r.isSuccess = true → good r.finalUrl

/-- Whether redirections lead from allowed schemes to allowed ones only. -/
def Site.RedirectsWithin (site : Site) : Prop :=
  ∀ (url : Url) (target : String) (next : Url), site.config.allows url.scheme = true →
    site.fetcher.redirects[url.text]? = some target → url.join target = .ok next →
    site.config.allows next.scheme = true

theorem Site.RedirectsWithin.follow (h : site.RedirectsWithin) {request : Url} (lookups : Nat)
    {url : Url} {r : Response} (hurl : site.config.allows url.scheme = true)
    (hr : site.fetcher.follow request lookups url = .ok r) :
    site.config.allows r.finalUrl.scheme = true := by
  induction lookups generalizing url with
  | zero => cases hr
  | succ lookups ih =>
    unfold Fetcher.follow at hr
    split at hr
    · rename_i target htarget
      obtain ⟨next, hnext, hr⟩ := Scope.bind_eq_ok.mp hr
      exact ih (h url target next hurl htarget (Scope.mapError_eq_ok.mp hnext)) hr
    · cases hr
      unfold Fetcher.held
      split <;> exact hurl

/-- Then texts that are requested over allowed schemes are served over allowed schemes. -/
theorem Site.RedirectsWithin.answersFrom (h : site.RedirectsWithin) :
    site.AnswersFrom fun url => site.config.allows url.scheme = true := by
  intro request r hrequest hr _
  unfold Fetcher.retrieve at hr
  split at hr
  · cases hr
  · cases hr
    exact hrequest
  · exact h.follow _ hrequest hr

/-! ## Where modules come from -/

/-- Whether the text of a task that has it, or is about to get it, comes from a good address. -/
def Progress.ServedFrom (good : Url → Prop) : Progress → Prop
  | .fetching _ (.ok r) => r.isSuccess = true → good r.finalUrl
  | .waiting analysis => good analysis.realUrl
  | _ => True

/-- Whether a compiled module was served at a good address. -/
def Resource.ServedFrom (good : Url → Prop) (resource : Resource) : Prop :=
  ∃ url, resource.realUrl = url.text ∧ good url

namespace Graph

/-- Whether all modules with slots, compiled or not, come from good addresses. -/
structure ServedFrom (good : Url → Prop) (g : Graph) : Prop where
  /-- So do the texts of tasks, -/
  tasks : ∀ (t : Nat) (task : Task), g.tasks[t]? = some task → task.isInline = false →
    task.progress.ServedFrom good
  /-- and the compiled modules. -/
  slots : ∀ (s : String) (resource : Resource), g.slots[s]? = some (.ready resource) →
    resource.ServedFrom good

variable {g g' : Graph} {t : Nat} {task : Task}

namespace ServedFrom

theorem empty : ServedFrom good Graph.empty where
  tasks _ _ ht := nomatch ht
  slots _ _ hs := nomatch hs

variable (h : g.ServedFrom good)
include h

theorem of_eq (hslots : g'.slots = g.slots) (htasks : g'.tasks = g.tasks) : g'.ServedFrom good where
  tasks t task ht := h.tasks t task (htasks ▸ ht)
  slots s resource hs := h.slots s resource (hslots ▸ hs)

theorem setProgress (ht : g.tasks[t]? = some task) {p : Progress}
    (hp : task.isInline = false → p.ServedFrom good) : (g.setProgress t p).ServedFrom good where
  tasks s task' ht' hslot := by
    rw [tasks_setProgress_of ht] at ht'
    split at ht'
    · cases ht'
      exact hp hslot
    · exact h.tasks s task' ht' hslot
  slots := h.slots

theorem finish (ht : g.tasks[t]? = some task) {outcome : Outcome}
    (ho : task.isInline = false → ∀ c, outcome = .ok (some c) → c.resource.ServedFrom good) :
    (g.finish t outcome).ServedFrom good where
  tasks s task' ht' hslot := by
    rw [tasks_finish_of ht] at ht'
    split at ht'
    · cases ht'
      trivial
    · exact h.tasks s task' ht' hslot
  slots s resource hs := by
    rw [slots_finish ht] at hs
    split at hs
    · rename_i hown
      rcases outcome with e | _ | c
      · cases hs
      · cases hs
      · cases hs
        exact ho hown.2 c rfl
    · exact h.slots s resource hs

theorem abandon (ht : g.tasks[t]? = some task) (storeId : String) (awaits : List Await)
    (e : LoadError) : (g.abandon t storeId awaits e).ServedFrom good := by
  have htasks := tasks_removeWaits g storeId awaits
  exact (h.of_eq (slots_removeWaits g storeId awaits) htasks).finish (htasks ▸ ht) nofun

/-- A task that is made for a module has no text yet. -/
theorem ensure (storeId : String) (request : Url) (waiter : Option String) :
    (g.ensure storeId request waiter).2.ServedFrom good := by
  have htaskFor : (g.taskFor storeId request).2.ServedFrom good := by
    refine ⟨fun t task ht => ?_, fun s resource hs => ?_⟩
    · rw [tasks_taskFor] at ht
      split at ht
      · rw [Array.getElem?_push] at ht
        split at ht
        · cases ht
          exact fun _ => trivial
        · exact h.tasks t task ht
      · exact h.tasks t task ht
    · rw [slots_taskFor] at hs
      split at hs
      · cases hs
      · exact h.slots s resource hs
  exact htaskFor.of_eq (slots_ensure g storeId request waiter) (tasks_ensure g storeId request waiter)

theorem askForAll (storeId : String) (realUrl : Url) (specifiers : List String)
    (children : Children) : (askForAll storeId realUrl specifiers children g).2.ServedFrom good := by
  induction specifiers generalizing children g with
  | nil => exact h
  | cons specifier specifiers ih =>
    unfold Graph.askForAll
    split
    · exact ih (h.ensure _ _ _) _
    · exact h
    · exact h

/-- A module that is read waits with the address where its text was served. -/
theorem analyse (ht : g.tasks[t]? = some task) (storeId : String) {r : Response}
    (hr : task.isInline = false → good r.finalUrl) : (g.analyse t storeId r).ServedFrom good := by
  unfold Graph.analyse
  split
  · exact h.finish ht nofun
  · rename_i m _
    have hstart : AsksFor g (if hasStars m.interface then g
        else { g with declared := g.declared.insert storeId m.interface.declared }) := by
      split <;> exact .of_eq rfl rfl rfl
    have hserved : ServedFrom good (if hasStars m.interface then g
        else { g with declared := g.declared.insert storeId m.interface.declared }) := by
      split
      · exact h
      · exact h.of_eq rfl rfl
    have hask := (hstart.trans
      (.askForAll _ storeId r.finalUrl m.interface.dependencies ⟨[], []⟩)).keeps t task ht
    have hasked := hserved.askForAll storeId r.finalUrl m.interface.dependencies ⟨[], []⟩
    dsimp only
    split
    all_goals
      rename_i heq
      rw [heq] at hask hasked
    · exact hasked.setProgress hask hr
    · exact hasked.abandon hask _ _ _

end ServedFrom

/-- A step of a task keeps where modules come from, if the answers to allowed requests are good. -/
theorem TaskStep.servedFrom (hsite : site.AnswersFrom good) (hs : TaskStep site g g')
    (h : g.ServedFrom good) : g'.ServedFrom good := by
  cases hs with
  | begin t =>
    unfold Graph.begin
    split
    · rename_i storeId request isInline ht
      split
      · rename_i hallowed
        refine ServedFrom.setProgress (g := { g with requests := g.requests + 1 })
          (h.of_eq rfl rfl) ht fun _ => ?_
        cases hanswer : site.fetcher.retrieve request with
        | error e => trivial
        | ok r => exact hsite request r hallowed hanswer
      · exact h.finish ht nofun
    · exact h
  | tick t =>
    unfold Graph.tick
    split
    · rename_i delay answer hprogress
      obtain ⟨task, ht, heq⟩ := Option.map_eq_some_iff.mp hprogress
      refine h.setProgress ht fun hslot => ?_
      have hserved := h.tasks t task ht hslot
      rw [heq] at hserved
      cases answer with
      | error e => trivial
      | ok r => exact hserved
    · exact h
  | receive t =>
    unfold Graph.receive
    split
    · rename_i ht
      split
      · split
        · rename_i hsuccess
          exact h.analyse ht _ fun hslot => h.tasks t _ ht hslot hsuccess
        · exact h.finish ht nofun
      · exact h.finish ht nofun
    · exact h
  | arrive =>
    unfold Graph.arrive
    split
    · rename_i analysis ht
      have hnext (awaits : List Await) := h.setProgress ht
        (p := .waiting { analysis with awaits := awaits }) fun hslot => h.tasks _ _ ht hslot
      exact (hnext _).of_eq rfl rfl
    · exact h
  | giveUp =>
    unfold Graph.giveUp
    split
    · rename_i ht
      exact h.abandon ht _ _ _
    · exact h
  | complete t =>
    unfold Graph.complete
    split
    · rename_i storeId _ _ analysis ht
      split
      · refine h.finish ht fun hslot c hc => ?_
        unfold outcomeOf at hc
        split at hc
        · cases hc
          exact ⟨analysis.realUrl, rfl, h.tasks t _ ht hslot⟩
        · cases hc
      · exact h
    · exact h

theorem stable_servedFrom (hsite : site.AnswersFrom good) : Stable site (ServedFrom good) where
  task hs h := hs.servedFrom hsite h
  ensure _ storeId request h := h.ensure storeId request none
  provide g storeId served code h := by
    refine ⟨fun t task ht hslot => ?_, h.slots⟩
    -- the new task has no slot
    have htasks : (g.tasks.push (inlineTask storeId served code))[t]? = some task := ht
    rw [Array.getElem?_push] at htasks
    split at htasks
    · cases htasks
      cases hslot
    · exact h.tasks t task htasks hslot

end Graph

/-! ## Loaders that fetch their modules -/

/-- What a service may do if no compiled module is given, while texts come from sites of some
kind. -/
inductive Service.Fetches (P : Site → Prop) : Service → Service → Prop where
  /-- A call is taken one step on. -/
  | advance {w : World} (hsite : P w.site) (before : List (Request × Call)) (request : Request)
    (call : Call) (after : List (Request × Call)) (depth : Nat) :
    Fetches P ⟨w, before ++ (request, call) :: after⟩
      ⟨(w.advance depth call).2, before ++ (request, (w.advance depth call).1.1) :: after⟩
  /-- A task takes a step. -/
  | task {w : World} (hsite : P w.site) {g : Graph} (h : Graph.TaskStep w.site w.graph g)
    (calls : List (Request × Call)) : Fetches P ⟨w, calls⟩ ⟨{ w with graph := g }, calls⟩
  /-- Anything else that leaves the modules as they are. -/
  | aside {s s' : Service} (h : Service.Step s s') (hslots : s'.world.graph.slots = s.world.graph.slots)
    (htasks : s'.world.graph.tasks = s.world.graph.tasks) : Fetches P s s'

variable {P : Site → Prop} {s s' : Service}

/-- These are all steps but those in which a module is given of which nothing is known. -/
theorem Service.Step.fetches_or_preload (h : Service.Step s s') (hsite : P s.world.site) :
    Service.Fetches P s s' ∨ ∃ resource : Resource,
      s.world.graph.slots[resource.storeId]? = none ∧
      s' = ⟨{ s.world with graph := (s.world.graph.preload resource).2 }, s.calls⟩ := by
  have hstep := h
  cases h with
  | advance w before request call after depth => exact .inl (.advance hsite _ _ _ _ _)
  | task h => exact .inl (.task hsite h _)
  | importModule w id =>
    have hgraph : (w.importModule id).2.graph = w.graph := graph_importAt w.importDepth id w
    exact .inl (.aside hstep (congrArg Graph.slots hgraph) (congrArg Graph.tasks hgraph))
  | runWith w caps body =>
    have hgraph : (w.runWith caps body).2.graph = w.graph :=
      World.graph_runBody (graph_importAt w.importDepth) w caps body
    exact .inl (.aside hstep (congrArg Graph.slots hgraph) (congrArg Graph.tasks hgraph))
  | preload w resource calls =>
    cases hslot : w.graph.slots[resource.storeId]? with
    | none => exact .inr ⟨resource, hslot, rfl⟩
    | some slot =>
      have hsame : (w.graph.preload resource).2 = w.graph := by
        rw [Graph.preload, Std.TreeMap.contains_eq_isSome_getElem?, hslot]
        rfl
      exact .inl (.aside hstep (congrArg Graph.slots hsame) (congrArg Graph.tasks hsame))
  | drop | ask | namespaceOf | get | store | around | sweep => exact .inl (.aside hstep rfl rfl)

theorem Service.Fetches.servedFrom (h : Service.Fetches P s s')
    (hP : ∀ site, P site → site.AnswersFrom good) (hs : s.world.graph.ServedFrom good) :
    s'.world.graph.ServedFrom good := by
  cases h with
  | advance hsite before request call after depth =>
    exact World.advance_stable (Graph.stable_servedFrom (hP _ hsite)) hs depth call
  | task hsite h => exact h.servedFrom (hP _ hsite) hs
  | aside _ hslots htasks => exact hs.of_eq hslots htasks

theorem Service.Fetches.resources (hempty : s.world.graph = .empty)
    (h : ReflTransGen (Service.Fetches P) s s') (hP : ∀ site, P site → site.AnswersFrom good) :
    ∀ resource ∈ s'.world.graph.resources, resource.ServedFrom good := by
  have hserved : s'.world.graph.ServedFrom good := by
    induction h with
    | refl => exact hempty ▸ .empty
    | tail _ hstep ih => exact hstep.servedFrom hP ih
  intro resource hmem
  obtain ⟨storeId, -, hresource⟩ := List.mem_filterMap.mp hmem
  unfold Graph.resource? at hresource
  split at hresource
  · rename_i hslot
    cases hresource
    exact hserved.slots storeId _ hslot
  · cases hresource

/-- Whatever a loader does without being given compiled modules, each that it has was served in
answer to an allowed request, and keeps the address behind the redirections. -/
theorem Service.realUrls_answered (hempty : s.world.graph = .empty)
    (h : ReflTransGen (Service.Fetches P) s s') : ∀ resource ∈ s'.world.graph.resources,
      ∃ site request r, P site ∧ site.config.allows request.scheme = true ∧
        site.fetcher.retrieve request = .ok r ∧ r.isSuccess = true ∧
        resource.realUrl = r.finalUrl.text := by
  intro resource hmem
  have hserved : resource.ServedFrom fun url => ∃ site request r, P site ∧
      site.config.allows request.scheme = true ∧ site.fetcher.retrieve request = .ok r ∧
      r.isSuccess = true ∧ r.finalUrl = url :=
    Service.Fetches.resources hempty h (fun site hsite request r hallowed hanswer hsuccess =>
      ⟨site, request, r, hsite, hallowed, hanswer, hsuccess, rfl⟩) resource hmem
  obtain ⟨_, hreal, site, request, r, hsite, hallowed, hanswer, hsuccess, rfl⟩ := hserved
  exact ⟨site, request, r, hsite, hallowed, hanswer, hsuccess, hreal⟩

/-- These addresses have allowed schemes as long as redirections do not leave the allowed ones. -/
theorem Service.realUrls_allowed {config : Config} (hempty : s.world.graph = .empty)
    (h : ReflTransGen
      (Service.Fetches fun site => site.config = config ∧ site.RedirectsWithin) s s') :
    ∀ resource ∈ s'.world.graph.resources, ∃ url : Url,
      resource.realUrl = url.text ∧ config.allows url.scheme = true :=
  Service.Fetches.resources hempty h fun _ hsite => hsite.1 ▸ hsite.2.answersFrom

/-- A module that imports another one, over a scheme without redirections. -/
theorem Service.realUrls_allowed_pair : ∃ s s' : Service, s.world.graph = .empty ∧
    ReflTransGen (Service.Fetches fun site => site.config = s.world.config ∧ site.RedirectsWithin)
      s s' ∧
    s'.world.graph.resources.map (·.realUrl) = ["app:/a.js", "app:/b.js"] ∧
    ∀ resource ∈ s'.world.graph.resources, ∃ url : Url,
      resource.realUrl = url.text ∧ s.world.config.allows url.scheme = true := by
  let w : World := { World.closed .empty ∅ with
    config := { Config.standard with allowedSchemes := ["app"] }
    fetcher := { Fetcher.empty with
      sources := .ofEntries [("app:/a.js", "import './b.js';"), ("app:/b.js", "1;")] } }
  let request : Request := .compile "app:/a.js" none
  let url : Url := ⟨"app", none, .parts ["a.js"], none, none⟩
  let begun : World := { w with graph := (w.graph.ensure url.text url none).2 }
  let driven := begun.advance 3 (.compiling 0 .compile)
  have hid : resolveId w.base "app:/a.js" = .ok url := by decide +kernel
  have hbegun : w.advance 3 (.asked request) = ((.compiling 0 .compile, true), begun) := by
    have hbegin : w.begin request = w.beginCompile url url .compile := by
      simp only [request, World.begin, hid, World.requestFor]
    rw [World.advance, hbegin]
    rfl
  have hsite : w.site.config = w.config ∧ w.site.RedirectsWithin :=
    ⟨rfl, fun _ _ _ _ htarget => nomatch htarget.symm.trans Std.TreeMap.getElem?_emptyc⟩
  have hasked : Service.Fetches (fun site => site.config = w.config ∧ site.RedirectsWithin)
      ⟨w, [(request, .asked request)]⟩ ⟨begun, [(request, .compiling 0 .compile)]⟩ := by
    have hstep := Service.Fetches.advance
      (P := fun site => site.config = w.config ∧ site.RedirectsWithin) hsite [] request
      (.asked request) [] 3
    rw [hbegun] at hstep
    exact hstep
  have hrun : ReflTransGen
      (Service.Fetches fun site => site.config = w.config ∧ site.RedirectsWithin)
      ⟨w, []⟩ ⟨driven.2, [(request, driven.1.1)]⟩ :=
    ((ReflTransGen.single (.aside (.ask w [] request) rfl rfl)).tail hasked).tail
      (.advance (w := begun) hsite [] request _ [] 3)
  exact ⟨⟨w, []⟩, _, rfl, hrun, by decide +kernel, Service.realUrls_allowed rfl hrun⟩

/-- A redirection to another scheme is followed, and the address behind it is kept. -/
theorem World.realUrl_redirected : ∃ (w : World) (resource : Resource), w.graph = .empty ∧
    w.config.allows "app" = true ∧ w.config.allows "lib" = false ∧
    (w.request [.compile "app:/a.js" none]).2.graph.resource? "app:/a.js" = some resource ∧
    resource.realUrl = "lib:/a.js" := by
  let w : World := { World.closed .empty ∅ with
    config := { Config.standard with allowedSchemes := ["app"] }
    fetcher := { Fetcher.empty with
      sources := .ofEntries [("lib:/a.js", "1;")]
      redirects := .ofEntries [("app:/a.js", "lib:/a.js")] } }
  have hreal : ((w.request [.compile "app:/a.js" none]).2.graph.resource? "app:/a.js").map
      (·.realUrl) = some "lib:/a.js" := by
    decide +kernel
  obtain ⟨resource, hresource, hreal⟩ := Option.map_eq_some_iff.mp hreal
  exact ⟨w, resource, rfl, by decide +kernel, by decide +kernel, hresource, hreal⟩

end EsModule.Loader
