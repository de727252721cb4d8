import EsModule.Loader.Graph
import EsModule.Proofs.Compile.Linking
import Mathlib.Data.Finset.Card
import Mathlib.Logic.Relation

/-!
# The dependency graph that a site serves

What a module depends on is fixed by the texts that a site serves: the specifiers of a module are
resolved against its own address. If nothing is redirected, every text can be read and no module
depends on itself, then the export lists of all modules are fixed as well (`ExportLists`): the list
of a module is computed from the lists of the modules behind its specifiers.
-/

namespace EsModule.Loader

open EsModule.Compile EsModule.Scope Relation

/-- Where redirections end, the answer is what is held there. -/
theorem Fetcher.exists_held {f : Fetcher} {request url : Url} {lookups : Nat} {r : Response}
    (h : f.follow request lookups url = .ok r) : ∃ url', r = f.held url' := by
  induction lookups generalizing url with
  | zero => cases h
  | succ lookups ih =>
    unfold follow at h
    split at h
    · obtain ⟨next, -, h⟩ := bind_eq_ok.mp h
      exact ih h
    · exact ⟨url, (Except.ok.inj h).symm⟩

namespace Site

/-! ## What is served -/

/-- The text that is served at an address. -/
def source? (site : Site) (url : Url) : Option String :=
  match site.fetcher.retrieve url with
  | .ok r => if r.isSuccess then some r.body else none
  | .error _ => none

/-- The module that is served at an address. -/
def module? (site : Site) (url : Url) : Option Module :=
  (site.source? url).bind fun body => (Module.ofSource body url.text).toOption

/-- One module names another one by one of its specifiers. -/
def Depends (site : Site) (u v : Url) : Prop :=
  ∃ m specifier, site.module? u = some m ∧ specifier ∈ m.interface.dependencies ∧
    resolve u.text specifier = .ok v

/-- A module depends on another one, perhaps through others. Each one depends on itself. -/
abbrev Reaches (site : Site) : Url → Url → Prop := ReflTransGen site.Depends

/-- A site whose modules, as far as an entry depends on them, are served in the plainest way. -/
structure Plain (site : Site) (entry : Url) : Prop where
  /-- Every scheme is allowed. -/
  allowed : ∀ u, site.Reaches entry u → site.config.allows u.scheme = true
  /-- Nothing is redirected. -/
  direct : ∀ u, site.Reaches entry u → ∀ r, site.fetcher.retrieve u = .ok r → r.finalUrl = u
  /-- A written address is read as the same address again, as it is with all addresses that were
  read before. -/
  canonical : ∀ u, site.Reaches entry u → Url.parse u.text = .ok u
  /-- Every text that is served is that of a module, without a name that is declared twice. -/
  readable : ∀ u, site.Reaches entry u → ∀ body, site.source? u = some body →
    ∃ m, Module.ofSource body u.text = .ok m
  /-- Every specifier stands for an address. -/
  resolvable : ∀ u, site.Reaches entry u → ∀ m, site.module? u = some m →
    ∀ specifier ∈ m.interface.dependencies, ∃ v, resolve u.text specifier = .ok v
  /-- No module depends on itself. -/
  acyclic : ∀ u, site.Reaches entry u → ¬ TransGen site.Depends u u

/-! ## Export lists -/

/-- What a module can look up, if the modules that are served have some export lists: nothing is
known of a module that is not served. -/
def lookup (site : Site) (E : Url → List String) (u : Url) : ExportLookup := fun specifier =>
  match resolve u.text specifier with
  | .ok v => (site.source? v).map fun _ => E v
  | .error _ => none

/-- The export lists of all modules that an entry depends on, each computed from those of the
modules that it names. -/
def ExportLists (site : Site) (entry : Url) (E : Url → List String) : Prop :=
  ∀ u m, site.Reaches entry u → site.module? u = some m → E u = m.exportList (site.lookup E u)

/-- Every name that a module imports or exports from a module that is served is in the export list
of that one. -/
def LinksAt (site : Site) (E : Url → List String) (u : Url) : Prop :=
  ∀ m, site.module? u = some m → ∀ specifier name,
    (specifier, name) ∈ requiredNames (itemsOf m.root) →
    ∀ v, resolve u.text specifier = .ok v → (site.source? v).isSome → name ∈ E v

/-- Every name that the modules behind an entry require of a module that is served is there. -/
def Links (site : Site) (entry : Url) (E : Url → List String) : Prop :=
  ∀ u, site.Reaches entry u → site.LinksAt E u

variable {site : Site} {entry u v : Url} {E E' : Url → List String} {m : Module}

theorem linksAt_iff (hm : site.module? u = some m) :
    site.LinksAt E u ↔ m.Links (site.lookup E u) := by
  constructor
  · rintro h ⟨specifier, name⟩ hrequired ⟨names, hnames, hmissing⟩
    unfold lookup at hnames
    dsimp only at hnames
    split at hnames
    · rename_i v hv
      obtain ⟨_, hserved, rfl⟩ := Option.map_eq_some_iff.mp hnames
      exact hmissing (h m hm specifier name hrequired v hv (by rw [hserved]; rfl))
    · cases hnames
  · intro h m' hm' specifier name hrequired v hv hserved
    obtain rfl : m = m' := Option.some.inj (hm.symm.trans hm')
    by_contra hmissing
    obtain ⟨_, hserved⟩ := Option.isSome_iff_exists.mp hserved
    exact h _ hrequired ⟨E v, by simp only [lookup, hv, hserved, Option.map_some], hmissing⟩

/-- Whatever is looked up agrees if the export lists of the modules that are named and served agree.
-/
theorem lookup_congr (hm : site.module? u = some m)
    (h : ∀ v, site.Depends u v → (site.source? v).isSome → E v = E' v) :
    ∀ specifier ∈ m.interface.dependencies,
      site.lookup E u specifier = site.lookup E' u specifier := by
  intro specifier hs
  unfold lookup
  split
  · rename_i v hv
    cases hserved : site.source? v with
    | none => rfl
    | some body => rw [h v ⟨m, specifier, hm, hs, hv⟩ (by rw [hserved]; rfl)]
  · rfl

/-! ## The modules that an entry depends on -/

theorem source?_of_module? (hm : site.module? u = some m) : ∃ body, site.source? u = some body ∧
    Module.ofSource body u.text = .ok m := by
  obtain ⟨body, hbody, hm⟩ := Option.bind_eq_some_iff.mp hm
  refine ⟨body, hbody, ?_⟩
  cases h : Module.ofSource body u.text with
  | error => rw [h] at hm; cases hm
  | ok m' => rw [h] at hm; cases hm; rfl

theorem module?_of_source? {body : String} (hbody : site.source? u = some body)
    (hm : Module.ofSource body u.text = .ok m) : site.module? u = some m := by
  rw [module?, hbody, Option.bind_some, hm]
  rfl

theorem retrieve_of_source? {body : String} (h : site.source? u = some body) :
    ∃ r, site.fetcher.retrieve u = .ok r ∧ r.isSuccess = true ∧ r.body = body := by
  unfold source? at h
  split at h
  · rename_i r hr
    split at h
    · rename_i hsuccess
      exact ⟨r, hr, hsuccess, Option.some.inj h⟩
    · cases h
  · cases h

/-- The modules that a module names. -/
def children (site : Site) (u : Url) : List Url :=
  ((site.module? u).map fun m =>
    m.interface.dependencies.filterMap fun s => (resolve u.text s).toOption).getD []

theorem mem_children : v ∈ site.children u ↔ site.Depends u v := by
  unfold children Depends
  cases hm : site.module? u with
  | none => simp
  | some m =>
    simp only [Option.map_some, Option.getD_some, List.mem_filterMap, Option.some.injEq]
    constructor
    · rintro ⟨specifier, hs, hv⟩
      refine ⟨m, specifier, rfl, hs, ?_⟩
      cases h : resolve u.text specifier with
      | error => rw [h] at hv; cases hv
      | ok v' => rw [h] at hv; cases hv; rfl
    · rintro ⟨_, specifier, rfl, hs, hv⟩
      exact ⟨specifier, hs, by rw [hv]; rfl⟩

namespace Plain

variable (hp : site.Plain entry)
include hp

/-- The written form of an address tells which one it is. -/
theorem text_inj (hu : site.Reaches entry u) (hv : site.Reaches entry v) (h : u.text = v.text) :
    u = v :=
  Except.ok.inj ((hp.canonical u hu).symm.trans (h ▸ hp.canonical v hv))

/-- A module is there exactly if a text is. -/
theorem isSome_module? (hu : site.Reaches entry u) :
    (site.module? u).isSome = (site.source? u).isSome := by
  cases hbody : site.source? u with
  | none => rw [module?, hbody]; rfl
  | some body =>
    obtain ⟨m, hm⟩ := hp.readable u hu body hbody
    rw [module?_of_source? hbody hm]
    rfl

theorem source?_eq_none (hu : site.Reaches entry u) (hm : site.module? u = none) :
    site.source? u = none := by
  have hsome := hp.isSome_module? hu
  rw [hm] at hsome
  exact Option.isNone_iff_eq_none.mp (Option.isSome_eq_false_iff.mp hsome.symm)

/-- A text that is served is held under its own address, or is the answer that is fixed for it. -/
theorem text_mem_of_module? (hu : site.Reaches entry u) (hm : site.module? u = some m) :
    u.text ∈ site.fetcher.sources.keys ++ site.fetcher.status.keys := by
  obtain ⟨body, hbody, -⟩ := source?_of_module? hm
  obtain ⟨r, hr, hsuccess, -⟩ := retrieve_of_source? hbody
  have hdirect := hp.direct u hu r hr
  unfold Fetcher.retrieve at hr
  rw [List.mem_append]
  split at hr
  · cases hr
  · rename_i hfixed
    unfold Fetcher.fixed? at hfixed
    split at hfixed
    · cases hfixed
    · exact .inr (Table.mem_keys ‹_›)
    · cases hfixed
  · obtain ⟨url, rfl⟩ := Fetcher.exists_held hr
    refine .inl ?_
    unfold Fetcher.held at hdirect hsuccess
    split at hsuccess
    · rename_i hsource
      rw [hsource] at hdirect
      obtain rfl : url = u := hdirect
      exact Table.mem_keys hsource
    · cases hsuccess

/-- Only finitely many modules are behind an entry. -/
theorem exists_finset : ∃ R : Finset Url, ∀ u, site.Reaches entry u → u ∈ R := by
  classical
  let served : List Url := (site.fetcher.sources.keys ++ site.fetcher.status.keys).filterMap
    fun text => (Url.parse text).toOption
  refine ⟨(entry :: served.flatMap site.children).toFinset, fun u hu => ?_⟩
  rw [List.mem_toFinset]
  cases hu with
  | refl => exact List.mem_cons_self
  | @tail v _ hv hdep =>
    obtain ⟨m, _, hm, -, -⟩ := id hdep
    refine List.mem_cons_of_mem _ (List.mem_flatMap.mpr ⟨v, ?_, mem_children.mpr hdep⟩)
    refine List.mem_filterMap.mpr ⟨v.text, hp.text_mem_of_module? hv hm, ?_⟩
    rw [hp.canonical v hv]
    rfl

/-- The modules behind an entry have heights, such that a module is higher than those that it
names. -/
theorem exists_height : ∃ height : Url → Nat,
    ∀ u, site.Reaches entry u → ∀ v, site.Depends u v → height v < height u := by
  classical
  obtain ⟨R, hR⟩ := hp.exists_finset
  -- the height counts what is behind a module, and no module is behind itself
  refine ⟨fun u => (R.filter fun v => TransGen site.Depends u v).card, fun u hu v hdep => ?_⟩
  refine Finset.card_lt_card ⟨fun x hx => ?_, fun hsub => ?_⟩
  · obtain ⟨hxR, hx⟩ := Finset.mem_filter.mp hx
    exact Finset.mem_filter.mpr ⟨hxR, .head hdep hx⟩
  · have hv := hu.tail hdep
    have hself := hsub (Finset.mem_filter.mpr ⟨hR v hv, .single hdep⟩)
    exact hp.acyclic v hv (Finset.mem_filter.mp hself).2

end Plain

/-! ## The export lists are fixed -/

/-- Export lists by recursion on the graph, as far as so many rounds go. -/
def exportsWithin (site : Site) : Nat → Url → List String
  | 0, _ => []
  | rounds + 1, u =>
    match site.module? u with
    | some m => m.exportList (site.lookup (site.exportsWithin rounds) u)
    | none => []

/-- Once there are more rounds than a module is high, its list does not change any more. -/
theorem exportsWithin_congr {height : Url → Nat}
    (hheight : ∀ u, site.Reaches entry u → ∀ v, site.Depends u v → height v < height u)
    {rounds rounds' : Nat} (hu : site.Reaches entry u) (h : height u < rounds)
    (h' : height u < rounds') : site.exportsWithin rounds u = site.exportsWithin rounds' u := by
  induction rounds generalizing rounds' u with
  | zero => exact absurd h (Nat.not_lt_zero _)
  | succ rounds ih =>
    cases rounds' with
    | zero => exact absurd h' (Nat.not_lt_zero _)
    | succ rounds' =>
      unfold exportsWithin
      split
      · rename_i m hm
        refine Module.exportList_congr (lookup_congr hm fun v hdep _ => ?_)
        have hlt := hheight u hu v hdep
        exact ih (hu.tail hdep) (by omega) (by omega)
      · rfl

/-- There are export lists. -/
theorem exists_exportLists (hp : site.Plain entry) : ∃ E, site.ExportLists entry E := by
  obtain ⟨height, hheight⟩ := hp.exists_height
  refine ⟨fun u => site.exportsWithin (height u + 1) u, fun u m hu hm => ?_⟩
  have hlookup : ∀ v, site.Depends u v → (site.source? v).isSome →
      site.exportsWithin (height u) v = site.exportsWithin (height v + 1) v := fun v hdep _ =>
    exportsWithin_congr hheight (hu.tail hdep) (hheight u hu v hdep) (Nat.lt_succ_self _)
  refine Eq.trans ?_ (Module.exportList_congr (lookup_congr hm hlookup))
  simp only [exportsWithin, hm]

/-- And there are no others. -/
theorem exportLists_unique (hp : site.Plain entry) (hE : site.ExportLists entry E)
    (hE' : site.ExportLists entry E') (hu : site.Reaches entry u)
    (hserved : (site.source? u).isSome) : E u = E' u := by
  obtain ⟨height, hheight⟩ := hp.exists_height
  induction hn : height u using Nat.strong_induction_on generalizing u with
  | _ n ih =>
    obtain ⟨m, hm⟩ := Option.isSome_iff_exists.mp ((hp.isSome_module? hu).trans hserved)
    rw [hE u m hu hm, hE' u m hu hm]
    refine Module.exportList_congr (lookup_congr hm fun v hdep hserved => ?_)
    exact ih (height v) (hn ▸ hheight u hu v hdep) (hu.tail hdep) hserved rfl

/-! ## Checking that a site is plain -/

/-- Some addresses are in such an order that every module names only modules at later ones. -/
def Descends (site : Site) : List Url → Prop
  | [] => True
  | u :: rest => (∀ v ∈ site.children u, v ∈ rest) ∧ site.Descends rest

instance decidableDescends (site : Site) : ∀ list, Decidable (site.Descends list)
  | [] => inferInstanceAs (Decidable True)
  | u :: rest =>
    have := decidableDescends site rest
    inferInstanceAs (Decidable ((∀ v ∈ site.children u, v ∈ rest) ∧ site.Descends rest))

/-- Whether a module, if it is there, can be read, and every specifier in it stands for an address.
-/
def isReadableAt (site : Site) (u : Url) : Bool :=
  match site.source? u with
  | some body =>
    match Module.ofSource body u.text with
    | .ok m => m.interface.dependencies.all fun s => (resolve u.text s).isOk
    | .error _ => false
  | none => true

/-- Whether an address is allowed, written in one way and not redirected. -/
def isDirectAt (site : Site) (u : Url) : Bool :=
  site.config.allows u.scheme && decide (Url.parse u.text = .ok u) &&
    match site.fetcher.retrieve u with
    | .ok r => r.finalUrl = u
    | .error _ => true

namespace Descends

variable {list : List Url} (h : site.Descends list)
include h

theorem mem_of_depends (hu : u ∈ list) (hdep : site.Depends u v) : v ∈ list := by
  induction list with
  | nil => cases hu
  | cons w rest ih =>
    refine List.mem_cons_of_mem w ?_
    rcases List.mem_cons.mp hu with rfl | hu
    · exact h.1 v (mem_children.mpr hdep)
    · exact ih h.2 hu

theorem mem_of_reaches (hu : u ∈ list) (hv : site.Reaches u v) : v ∈ list := by
  induction hv with
  | refl => exact hu
  | tail _ hdep ih => exact h.mem_of_depends ih hdep

theorem not_transGen (hu : u ∈ list) : ¬ TransGen site.Depends u u := by
  induction list with
  | nil => cases hu
  | cons w rest ih =>
    intro hself
    rcases List.mem_cons.mp hu with rfl | hu
    · -- what comes behind the first one is found among the others, and so is the first one again
      obtain ⟨v, hdep, hback⟩ := TransGen.head'_iff.mp hself
      have hrest := mem_of_reaches h.2 (h.1 v (mem_children.mpr hdep)) hback
      exact ih h.2 hrest hself
    · exact ih h.2 hu hself

/-- A site is plain if it is at each of some addresses in such an order. -/
theorem plain (hentry : entry ∈ list) (hdirect : ∀ u ∈ list, site.isDirectAt u = true)
    (hreadable : ∀ u ∈ list, site.isReadableAt u = true) : site.Plain entry := by
  have hmem : ∀ u, site.Reaches entry u → u ∈ list := fun u => h.mem_of_reaches hentry
  have hparts : ∀ u, site.Reaches entry u → (site.config.allows u.scheme = true ∧
      Url.parse u.text = .ok u) ∧ ∀ r, site.fetcher.retrieve u = .ok r → r.finalUrl = u := by
    intro u hu
    have hdirect := hdirect u (hmem u hu)
    rw [isDirectAt, Bool.and_eq_true, Bool.and_eq_true, decide_eq_true_iff] at hdirect
    refine ⟨hdirect.1, fun r hr => ?_⟩
    rw [hr] at hdirect
    exact of_decide_eq_true hdirect.2
  refine ⟨fun u hu => (hparts u hu).1.1, fun u hu => (hparts u hu).2,
    fun u hu => (hparts u hu).1.2, fun u hu body hbody => ?_, fun u hu m hm specifier hs => ?_,
    fun u hu => h.not_transGen (hmem u hu)⟩
  · have hread := hreadable u (hmem u hu)
    rw [isReadableAt, hbody] at hread
    dsimp only at hread
    split at hread
    · exact ⟨_, ‹_›⟩
    · cases hread
  · obtain ⟨body, hbody, hm⟩ := source?_of_module? hm
    have hread := hreadable u (hmem u hu)
    rw [isReadableAt, hbody] at hread
    dsimp only at hread
    rw [hm] at hread
    exact exists_of_isOk (List.all_eq_true.mp hread specifier hs)

end Descends

end Site

end EsModule.Loader
