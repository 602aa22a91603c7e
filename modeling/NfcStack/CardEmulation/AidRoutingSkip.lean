import NfcStack.CardEmulation.AidRouting

/- When a call of `configureRouting` that commits nothing may report success.

   A call is skipped when the routes and powers it computes are those that are
   remembered, or when no check after the loop finds a change. What is
   remembered is what the last call computed, whether or not its table fit and
   was committed, and it holds neither qualifiers nor the entries that depend
   on AIDs of the default route.

   What is proved:
     1. `skip_sound`: in every run in which each skipped call follows a call
        whose table the controller has, and shows it the same entries, every
        call that reports success leaves in the controller the table that its
        map and default route determine.
     2. `retry_not_committed`: a call repeated after the table was full reports
        success, and nothing was committed. -/
namespace NfcStack.CardEmulation

open Lib

structure Routing where
  mgr : Manager
  committed : List Row
  last : Option Call

def Routing.init (routes : DefaultRoutes) : Routing :=
  { mgr := ⟨routes, 0, [], []⟩, committed := [], last := none }

def Routing.step (env : Env) (s : Routing) (c : Call) : Option Routing :=
  let out := configureRouting env s.mgr c
  some
    { mgr := out.mgr
      committed := match out.sent with
        | some rows => if c.commitOk then rows else s.committed
        | none => s.committed
      last :=
        if unchanged s.mgr c then s.last
        else if out.result = .success then some c else none }

/-- The table that the call's map and default route determine. -/
def Call.determined (env : Env) (c : Call) : List Row :=
  (c.tried env 0).aidRoutingTableCache.map row

def Same {α : Type} (a b : List α) : Prop := ∀ x, x ∈ a ↔ x ∈ b

/-- The entries that are not on the default route. -/
def offDefault (m : Entries) (d : Nat) : Entries := m.filter fun p => decide (p.2.route ≠ d)

/-- The default-route AIDs that a prefix-only controller needs in the table. -/
def shadowed (m : Entries) (d : Nat) : Entries :=
  m.filter fun p => decide (p.2.route = d) && hasShorter m d p.1

/-- With the default route `d`, the two calls show the controller the same
entries: those off the default route, in prefix-only mode also those of the
default route that extend one of them, and no off-host AID of the default
route has a power state of its own. -/
structure ShowSame (env : Env) (c₀ c : Call) (d : Nat) : Prop where
  nci : c₀.options.nciVersion = c.options.nciVersion
  se : c₀.options.getRouteForSecureElement = c.options.getRouteForSecureElement
  off : offDefault c₀.routed d = offDefault c.routed d
  shadowed : env.aidMatchingSupport = .prefixOnly →
    Same (shadowed c₀.routed d) (shadowed c.routed d)
  power : env.ownPower c₀.options c₀.routed d = false

/-- The call is not skipped, or the controller has the table of the last call
that was not, and that call read the same options and entries (where the maps
are found equal) or showed the same entries (where the checks find nothing). -/
structure SkipOk (env : Env) (s : Routing) (c : Call) : Prop where
  early : unchanged s.mgr c = true →
    ∃ c₀, s.last = some c₀ ∧ c₀.options = c.options ∧ c₀.routed = c.routed
  late : unchanged s.mgr c = false → updateRequired env s.mgr c = false →
    ∃ c₀, s.last = some c₀ ∧ ShowSame env c₀ c s.mgr.defaultRoutes.aid

/-! ### The set of entries in a cache -/

theorem Same.refl {α : Type} (a : List α) : Same a a := fun _ => Iff.rfl

theorem Same.trans {α : Type} {a b c : List α} (h : Same a b) (h' : Same b c) : Same a c :=
  fun x => (h x).trans (h' x)

theorem Same.map {α β : Type} {a b : List α} (h : Same a b) (f : α → β) :
    Same (a.map f) (b.map f) := by
  intro y
  simp only [List.mem_map, h _]

theorem Same.filter {α : Type} {a b : List α} (h : Same a b) (f : α → Bool) :
    Same (a.filter f) (b.filter f) := by
  intro y
  simp only [List.mem_filter, h _]

theorem mem_put {cache : Entries} {a : Aid} {e : AidEntry} {p : Aid × AidEntry} :
    p ∈ put cache a e ↔ p = (a, e) ∨ (p ∈ cache ∧ p.1 ≠ a) := by
  simp [put]

theorem Same.put {a b : Entries} (h : Same a b) (k : Aid) (e : AidEntry) :
    Same (put a k e) (put b k e) := by
  intro p
  rw [mem_put, mem_put, h p]

theorem Same.addAid {a b : Entries} (h : Same a b) (mode : AidMatching) (p : Aid × AidEntry) :
    Same (addAidToRoutingtable mode a p) (addAidToRoutingtable mode b p) := by
  unfold addAidToRoutingtable
  cases tableKey mode p.1 with
  | none => exact h
  | some k => exact h.put k p.2

theorem Same.foldl {β : Type} {f : Entries → β → Entries}
    (hf : ∀ a b x, Same a b → Same (f a x) (f b x)) (l : List β) :
    ∀ {a b : Entries}, Same a b → Same (l.foldl f a) (l.foldl f b) := by
  induction l with
  | nil => intro a b h; exact h
  | cons x l ih => intro a b h; exact ih (hf a b x h)

theorem mem_foldl_put {q : Aid × AidEntry → Bool} (l : Entries) (hl : (l.map Prod.fst).Nodup)
    (cache : Entries) (p : Aid × AidEntry) :
    p ∈ l.foldl (fun cache p => if q p then put cache p.1 p.2 else cache) cache ↔
      (p ∈ l ∧ q p = true) ∨ (p ∈ cache ∧ ∀ r ∈ l, q r = true → r.1 ≠ p.1) := by
  induction l generalizing cache with
  | nil => simp
  | cons r l ih =>
    rw [List.map_cons, List.nodup_cons] at hl
    have hfresh : ∀ r' ∈ l, r'.1 ≠ r.1 := fun r' hr' h => hl.1 (h ▸ List.mem_map_of_mem hr')
    rw [List.foldl_cons, ih hl.2]
    cases hq : q r with
    | true =>
      simp only [if_true, mem_put, List.mem_cons, forall_eq_or_imp, hq, true_implies]
      constructor
      · rintro (⟨hp, hqp⟩ | ⟨rfl | ⟨hp, hne⟩, hrest⟩)
        · exact .inl ⟨.inr hp, hqp⟩
        · exact .inl ⟨.inl rfl, hq⟩
        · exact .inr ⟨hp, Ne.symm hne, hrest⟩
      · rintro (⟨rfl | hp, hqp⟩ | ⟨hp, hne, hrest⟩)
        · exact .inr ⟨.inl rfl, fun r' hr' _ => hfresh r' hr'⟩
        · exact .inl ⟨hp, hqp⟩
        · exact .inr ⟨.inr ⟨hp, Ne.symm hne⟩, hrest⟩
    | false =>
      simp only [Bool.false_eq_true, if_false, List.mem_cons, forall_eq_or_imp, hq, false_implies,
        true_and]
      constructor
      · rintro (⟨hp, hqp⟩ | h)
        · exact .inl ⟨.inr hp, hqp⟩
        · exact .inr h
      · rintro (⟨rfl | hp, hqp⟩ | h)
        · rw [hq] at hqp
          exact absurd hqp Bool.false_ne_true
        · exact .inl ⟨hp, hqp⟩
        · exact .inr h

/-! ### What a table depends on -/

theorem routed_distinct (c : Call) : (c.routed.map Prod.fst).Nodup := by
  refine List.Sublist.nodup ?_ c.distinct
  unfold Call.routed RoutingOptions.routed
  induction c.aidMap with
  | nil => exact List.Sublist.refl _
  | cons p l ih =>
    rw [List.filterMap_cons]
    cases c.options.entryRoute p.2 with
    | none => exact List.Sublist.cons _ ih
    | some r => exact List.Sublist.cons_cons _ ih

theorem aidsOn_distinct (env : Env) {m : Entries} (hm : (m.map Prod.fst).Nodup) (d : Nat) :
    ((env.aidsOn m d).map Prod.fst).Nodup := by
  have hperm := (env.walk_perm (m.filter fun p => decide (p.2.route = d))).map Prod.fst
  exact hperm.nodup_iff.mpr (List.Sublist.nodup (List.Sublist.map _ List.filter_sublist) hm)

theorem mem_aidsOn (env : Env) {m : Entries} {d : Nat} {p : Aid × AidEntry} :
    p ∈ env.aidsOn m d ↔ p ∈ m ∧ p.2.route = d := by
  unfold Env.aidsOn
  rw [(env.walk_perm _).mem_iff, List.mem_filter]
  simp

theorem aidsOn_off (env : Env) (m : Entries) {d r : Nat} (hr : r ≠ d) :
    env.aidsOn m r = env.aidsOn (offDefault m d) r := by
  unfold Env.aidsOn offDefault
  rw [List.filter_filter]
  congr 1
  apply List.filter_congr
  intro p _
  by_cases h : p.2.route = r
  · simp [h, hr]
  · simp [h]

theorem shadowed_same (env : Env) {m₀ m : Entries} {d : Nat} (hm₀ : (m₀.map Prod.fst).Nodup)
    (hm : (m.map Prod.fst).Nodup)
    (h : env.aidMatchingSupport = .prefixOnly → Same (shadowed m₀ d) (shadowed m d)) :
    Same (env.addShadowed m₀ d) (env.addShadowed m d) := by
  unfold Env.addShadowed
  by_cases hmode : env.aidMatchingSupport = .prefixOnly
  · rw [if_pos hmode, if_pos hmode]
    intro p
    have hsame := h hmode p
    rw [mem_foldl_put _ (aidsOn_distinct env hm₀ d), mem_foldl_put _ (aidsOn_distinct env hm d)]
    simp only [mem_aidsOn, shadowed, List.mem_filter, Bool.and_eq_true, decide_eq_true_eq] at hsame ⊢
    simpa [and_assoc] using hsame
  · rw [if_neg hmode, if_neg hmode]
    exact Same.refl _

theorem routesOf_off (m : Entries) (d : Nat) :
    (routesOf m).filter (fun r => decide (r ≠ d)) = routesOf (offDefault m d) := by
  have hsort : ∀ l : Entries, (routesOf l).Pairwise (· ≤ ·) := fun l =>
    List.pairwise_insertionSort (· ≤ ·) _
  have hperm : ∀ l : Entries, (routesOf l).Perm (l.map fun p => p.2.route).dedup := fun l =>
    List.perm_insertionSort (· ≤ ·) _
  refine List.Perm.eq_of_pairwise' ((hsort m).filter _) (hsort _) ?_
  refine (List.perm_ext_iff_of_nodup ?_ ?_).mpr fun r => ?_
  · exact ((hperm m).nodup_iff.mpr (List.nodup_dedup _)).filter _
  · exact (hperm _).nodup_iff.mpr (List.nodup_dedup _)
  · rw [List.mem_filter, (hperm m).mem_iff, (hperm _).mem_iff, List.mem_dedup, List.mem_dedup]
    simp only [offDefault, List.mem_map, List.mem_filter, decide_eq_true_eq]
    constructor
    · rintro ⟨⟨p, hp, rfl⟩, hne⟩
      exact ⟨p, ⟨hp, hne⟩, rfl⟩
    · rintro ⟨p, ⟨hp, hne⟩, rfl⟩
      exact ⟨⟨p, hp, rfl⟩, hne⟩

theorem addNonDefault_off (env : Env) (m : Entries) (d : Nat) (cache : Entries) :
    env.addNonDefault m d cache = (routesOf (offDefault m d)).foldl
      (fun cache route => (env.aidsOn (offDefault m d) route).foldl
        (addAidToRoutingtable env.aidMatchingSupport) cache) cache := by
  rw [← routesOf_off, List.foldl_filter]
  unfold Env.addNonDefault
  congr 1
  funext cache route
  by_cases h : route = d
  · simp [h]
  · simp only [ne_eq, h, not_false_eq_true, if_true, decide_true]
    rw [aidsOn_off env m h]

theorem addNonDefault_same (env : Env) {m₀ m : Entries} {d : Nat}
    (h : offDefault m₀ d = offDefault m d) {a b : Entries} (hab : Same a b) :
    Same (env.addNonDefault m₀ d a) (env.addNonDefault m d b) := by
  rw [addNonDefault_off, addNonDefault_off, h]
  apply Same.foldl _ _ hab
  intro a b r hab
  apply Same.foldl _ _ hab
  intro a b p hab
  exact hab.addAid _ p

theorem addOwnPower_id (env : Env) (o : RoutingOptions) (m : Entries) (d : Nat) (cache : Entries)
    (h : env.ownPower o m d = false) : env.addOwnPower o m d cache = cache := by
  unfold Env.addOwnPower
  unfold Env.ownPower at h
  by_cases hd : d = routeHost
  · simp [hd]
  · simp only [ne_eq, hd, not_false_eq_true, decide_true, Bool.true_and, List.any_eq_false,
      decide_eq_true_eq, not_not] at h
    rw [if_pos hd]
    generalize env.aidsOn m d = l at h
    induction l with
    | nil => rfl
    | cons p l ih =>
      rw [List.foldl_cons, if_neg (not_not.mpr (h p List.mem_cons_self))]
      exact ih fun q hq => h q (List.mem_cons_of_mem _ hq)

theorem tableFor_same (env : Env) {c₀ c : Call} {d : Nat} (h : ShowSame env c₀ c d)
    (hpower : env.ownPower c.options c.routed d = false)
    (hempty : c.options.nci2 = true →
      env.emptyAidPower c₀.routed d = env.emptyAidPower c.routed d) :
    Same (env.tableFor c₀.options c₀.routed d) (env.tableFor c.options c.routed d) := by
  have hnci : c₀.options.nci2 = c.options.nci2 := by
    unfold RoutingOptions.nci2
    rw [h.nci]
  have hadded : Same
      (env.addNonDefault c₀.routed d (env.addShadowed c₀.routed d))
      (env.addNonDefault c.routed d (env.addShadowed c.routed d)) :=
    addNonDefault_same env h.off
      (shadowed_same env (routed_distinct c₀) (routed_distinct c) h.shadowed)
  have hwith : Same
      (env.addEmptyAid c₀.options c₀.routed d
        (env.addNonDefault c₀.routed d (env.addShadowed c₀.routed d)))
      (env.addEmptyAid c.options c.routed d
        (env.addNonDefault c.routed d (env.addShadowed c.routed d))) := by
    unfold Env.addEmptyAid
    rw [hnci]
    by_cases h2 : c.options.nci2 = true
    · rw [if_pos h2, if_pos h2, hempty h2]
      exact hadded.put _ _
    · rw [if_neg h2, if_neg h2]
      exact hadded
  unfold Env.tableFor
  simp only [addOwnPower_id env _ _ _ _ h.power, addOwnPower_id env _ _ _ _ hpower]
  have hstays : c₀.options.staysOnHost d = c.options.staysOnHost d := by
    funext e
    unfold RoutingOptions.staysOnHost
    rw [h.se]
  by_cases hd : d = routeHost
  · simp only [hd, ne_eq, not_true_eq_false, if_false] at hwith ⊢
    exact hwith
  · rw [if_pos hd, if_pos hd]
    unfold checkOffHostRouteToHost
    rw [hstays]
    exact hwith.filter _

/-! ### The loop over the default routes -/

theorem tryRoutes_table (env : Env) (o : RoutingOptions) (m : Entries) (ds : List Nat) :
    ∀ t u : Tried, t.aidRoutingTableCache = u.aidRoutingTableCache →
      t.defaultRoute = u.defaultRoute →
      (env.tryRoutes o m ds t).aidRoutingTableCache =
          (env.tryRoutes o m ds u).aidRoutingTableCache ∧
        (env.tryRoutes o m ds t).defaultRoute = (env.tryRoutes o m ds u).defaultRoute := by
  induction ds with
  | nil => intro t u hc hd; exact ⟨hc, hd⟩
  | cons d ds ih =>
    intro t u _ _
    rw [Env.tryRoutes, Env.tryRoutes]
    by_cases hfit : env.fits o m d = true
    · rw [if_pos hfit, if_pos hfit]
      exact ⟨rfl, rfl⟩
    · rw [if_neg hfit, if_neg hfit]
      exact ih _ _ rfl rfl

/-- What holds of a loop that has tried a route `d`: the cache is its table, the
power of the empty AID is that for `d`, and unless the loop reports a new power
state, it is the one remembered and no AID has its own. -/
structure TriedOk (env : Env) (o : RoutingOptions) (m : Entries) (remembered : Nat) (t : Tried) :
    Prop where
  cache : t.aidRoutingTableCache = env.tableFor o m t.defaultRoute
  power : o.nci2 = true → t.powerEmptyAid = env.emptyAidPower m t.defaultRoute
  same : t.isPowerStateUpdated = false →
    t.powerEmptyAid = remembered ∧ env.ownPower o m t.defaultRoute = false

theorem tryRoute_ok (env : Env) (o : RoutingOptions) (m : Entries) {remembered : Nat} {t : Tried}
    (ht : t.isPowerStateUpdated = false → t.powerEmptyAid = remembered) (d : Nat) :
    TriedOk env o m remembered (env.tryRoute o m t d) := by
  refine ⟨rfl, fun h2 => ?_, fun h => ?_⟩
  · simp [Env.tryRoute, h2]
  · simp only [Env.tryRoute, Bool.or_eq_false_iff] at h ⊢
    obtain ⟨⟨hold, hnew⟩, hown⟩ := h
    refine ⟨?_, hown⟩
    by_cases h2 : o.nci2 = true
    · simp only [h2, Bool.true_and, decide_eq_false_iff_not, ne_eq, not_not] at hnew
      rw [if_pos h2, ← hnew]
      exact ht hold
    · rw [if_neg h2]
      exact ht hold

theorem tryRoutes_ok (env : Env) (o : RoutingOptions) (m : Entries) {remembered : Nat}
    (ds : List Nat) : ∀ {t : Tried},
      (t.isPowerStateUpdated = false → t.powerEmptyAid = remembered) →
      (ds ≠ [] ∨ TriedOk env o m remembered t) →
      TriedOk env o m remembered (env.tryRoutes o m ds t) := by
  induction ds with
  | nil =>
    intro t _ h
    exact h.resolve_left fun hne => hne rfl
  | cons d ds ih =>
    intro t ht _
    have hok := tryRoute_ok env o m ht d
    rw [Env.tryRoutes]
    by_cases hfit : env.fits o m d = true
    · rw [if_pos hfit]
      exact hok
    · rw [if_neg hfit]
      exact ih (fun h => (hok.same h).1) (.inr hok)

theorem seRoutes_ne_nil (m : Entries) :
    ∀ {l : List Nat}, l ≠ [] →
      m.foldl (fun l p => if l.contains p.2.route then l else l ++ [p.2.route]) l ≠ [] := by
  induction m with
  | nil => intro l h; exact h
  | cons p m ih =>
    intro l h
    rw [List.foldl_cons]
    apply ih
    split
    · exact h
    · simp

theorem seList_ne_nil (o : RoutingOptions) (m : Entries) : o.seList m ≠ [] := by
  have hall : m.foldl (fun l p => if l.contains p.2.route then l else l ++ [p.2.route])
      (if o.routes.aid ≠ routeHost then [o.routes.aid, routeHost] else [o.routes.aid]) ≠ [] := by
    apply seRoutes_ne_nil
    split <;> simp
  have htake : ∀ (b : Bool) (l : List Nat), l ≠ [] → (if b then l.take 1 else l) ≠ [] := by
    intro b l hl
    cases b with
    | false => exact hl
    | true => cases l with
      | nil => exact absurd rfl hl
      | cons x l => simp
  exact htake _ _ hall

theorem tried_ok (env : Env) (c : Call) (power : Nat) :
    TriedOk env c.options c.routed power (c.tried env power) :=
  tryRoutes_ok env c.options c.routed _ (fun _ => rfl) (.inl (seList_ne_nil _ _))

theorem tried_table (env : Env) (c : Call) (power : Nat) :
    (c.tried env power).aidRoutingTableCache = (c.tried env 0).aidRoutingTableCache ∧
      (c.tried env power).defaultRoute = (c.tried env 0).defaultRoute :=
  tryRoutes_table env c.options c.routed _ _ _ rfl rfl

/-! ### Calls and runs -/

structure Holds (env : Env) (s : Routing) (c : Call) : Prop where
  table : Same s.committed (c.determined env)
  route : (c.tried env 0).defaultRoute = s.mgr.defaultRoutes.aid
  power : c.options.nci2 = true →
    s.mgr.powerEmptyAid = env.emptyAidPower c.routed s.mgr.defaultRoutes.aid

def Faithful (env : Env) (s : Routing) : Prop := ∀ c, s.last = some c → Holds env s c

theorem determined_congr (env : Env) {c₀ c : Call} (ho : c₀.options = c.options)
    (hr : c₀.routed = c.routed) : c₀.determined env = c.determined env := by
  unfold Call.determined Call.tried
  rw [ho, hr]

/-- After a call whose table is `rows`, the manager remembers what the call
settled on. -/
theorem holds_of_table (env : Env) {t : Routing} {c : Call} (power : Nat)
    (hroute : t.mgr.defaultRoutes.aid = (c.tried env power).defaultRoute)
    (hpower : t.mgr.powerEmptyAid = (c.tried env power).powerEmptyAid)
    (htable : Same t.committed ((c.tried env power).aidRoutingTableCache.map row)) :
    Holds env t c := by
  obtain ⟨hcache, hdefault⟩ := tried_table env c power
  refine ⟨?_, ?_, ?_⟩
  · unfold Call.determined
    rw [← hcache]
    exact htable
  · rw [hroute, hdefault]
  · intro h2
    rw [hpower, hroute]
    exact (tried_ok env c power).power h2

theorem late_checks {env : Env} {s : Manager} {c : Call} (h : updateRequired env s c = false) :
    (c.tried env s.powerEmptyAid).isPowerStateUpdated = false ∧
      s.defaultRoutes.aid = (c.tried env s.powerEmptyAid).defaultRoute := by
  simp only [updateRequired, Bool.or_eq_false_iff, decide_eq_false_iff_not, ne_eq, not_not] at h
  exact ⟨h.1.1.1.1, h.1.2.1.1⟩

theorem late_table {env : Env} {s : Routing} {c c₀ : Call} (h : Holds env s c₀)
    (hshow : ShowSame env c₀ c s.mgr.defaultRoutes.aid)
    (hchecks : updateRequired env s.mgr c = false) :
    Same s.committed ((c.tried env s.mgr.powerEmptyAid).aidRoutingTableCache.map row) := by
  obtain ⟨hpower, hroute⟩ := late_checks hchecks
  have hok := tried_ok env c s.mgr.powerEmptyAid
  obtain ⟨hremembered, hown⟩ := hok.same hpower
  have hnci : c₀.options.nci2 = c.options.nci2 := by
    unfold RoutingOptions.nci2
    rw [hshow.nci]
  have hempty : c.options.nci2 = true →
      env.emptyAidPower c₀.routed s.mgr.defaultRoutes.aid =
        env.emptyAidPower c.routed s.mgr.defaultRoutes.aid := by
    intro h2
    rw [← h.power (hnci.trans h2), ← hremembered, hok.power h2, hroute]
  rw [← hroute] at hown
  have hsame := tableFor_same env hshow hown hempty
  have hfirst : (c₀.tried env 0).aidRoutingTableCache =
      env.tableFor c₀.options c₀.routed s.mgr.defaultRoutes.aid := by
    rw [(tried_ok env c₀ 0).cache, h.route]
  have hnow : (c.tried env s.mgr.powerEmptyAid).aidRoutingTableCache =
      env.tableFor c.options c.routed s.mgr.defaultRoutes.aid := by
    rw [hok.cache, hroute]
  have htable := h.table
  unfold Call.determined at htable
  rw [hfirst] at htable
  rw [hnow]
  exact htable.trans (hsame.map row)

/-- A call that reports success leaves its table in the controller, and what
the manager remembers stays true of the controller. -/
theorem step_sound {env : Env} {s t : Routing} {c : Call} (hinv : Faithful env s)
    (hok : SkipOk env s c) (hstep : Routing.step env s c = some t) :
    Faithful env t ∧ ((configureRouting env s.mgr c).result = .success →
      Same t.committed (c.determined env)) := by
  cases hearly : unchanged s.mgr c with
  | true =>
    obtain ⟨c₀, hlast, ho, hr⟩ := hok.early hearly
    have hholds := hinv c₀ hlast
    have ht : t = { s with mgr := (configureRouting env s.mgr c).mgr } := by
      simp only [Routing.step, configureRouting, hearly, if_true, Option.some.injEq] at hstep ⊢
      exact hstep.symm
    have hmgr : (configureRouting env s.mgr c).mgr.defaultRoutes.aid = s.mgr.defaultRoutes.aid ∧
        (configureRouting env s.mgr c).mgr.powerEmptyAid = s.mgr.powerEmptyAid := by
      simp only [configureRouting, hearly, if_true, and_self]
    subst ht
    constructor
    · intro c₁ hc₁
      have h₁ := hinv c₁ hc₁
      refine ⟨h₁.table, ?_, fun h2 => ?_⟩
      · rw [hmgr.1]
        exact h₁.route
      · rw [hmgr.1, hmgr.2]
        exact h₁.power h2
    · intro _
      rw [← determined_congr env ho hr]
      exact hholds.table
  | false =>
    have hlast : ∀ c₁, t.last = some c₁ →
        c₁ = c ∧ (configureRouting env s.mgr c).result = .success := by
      intro c₁ hc₁
      simp only [Routing.step, Option.some.injEq] at hstep
      rw [← hstep] at hc₁
      simp only [hearly, Bool.false_eq_true, if_false] at hc₁
      by_cases hres : (configureRouting env s.mgr c).result = .success
      · rw [if_pos hres] at hc₁
        exact ⟨(Option.some.inj hc₁).symm, hres⟩
      · rw [if_neg hres] at hc₁
        cases hc₁
    have hmgr : t.mgr.defaultRoutes.aid = (c.tried env s.mgr.powerEmptyAid).defaultRoute ∧
        t.mgr.powerEmptyAid = (c.tried env s.mgr.powerEmptyAid).powerEmptyAid := by
      simp only [Routing.step, Option.some.injEq] at hstep
      rw [← hstep]
      simp only [configureRouting, hearly, Bool.false_eq_true, if_false]
      split
      · split <;> exact ⟨rfl, rfl⟩
      · exact ⟨rfl, rfl⟩
    have htable : (configureRouting env s.mgr c).result = .success →
        Same t.committed ((c.tried env s.mgr.powerEmptyAid).aidRoutingTableCache.map row) := by
      intro hres
      simp only [Routing.step, Option.some.injEq] at hstep
      rw [← hstep]
      cases hchecks : updateRequired env s.mgr c with
      | false =>
        obtain ⟨c₀, hlast₀, hshow⟩ := hok.late hearly hchecks
        simp only [configureRouting, hearly, hchecks, Bool.false_eq_true, if_false]
        exact late_table (hinv c₀ hlast₀) hshow hchecks
      | true =>
        simp only [configureRouting, hearly, hchecks, Bool.false_eq_true, if_false, if_true]
          at hres ⊢
        split at hres
        · rename_i hfit
          cases hcommit : c.commitOk with
          | true =>
            simp only [if_pos hfit, if_true]
            exact Same.refl _
          | false =>
            simp only [hcommit, Bool.false_eq_true, if_false] at hres
            cases hres
        · cases hres
    constructor
    · intro c₁ hc₁
      obtain ⟨rfl, hres⟩ := hlast c₁ hc₁
      exact holds_of_table env s.mgr.powerEmptyAid hmgr.1 hmgr.2 (htable hres)
    · intro hres
      exact (holds_of_table env s.mgr.powerEmptyAid hmgr.1 hmgr.2 (htable hres)).table

theorem init_faithful (env : Env) (routes : DefaultRoutes) : Faithful env (Routing.init routes) := by
  intro c hc
  cases hc

theorem skip_sound (env : Env) (routes : DefaultRoutes) (cs : List Call) (c : Call)
    (s t : Routing)
    (hok : StepsOk (Routing.step env) (SkipOk env) (Routing.init routes) (cs ++ [c]))
    (hrun : run (Routing.step env) (Routing.init routes) cs = some s)
    (hstep : Routing.step env s c = some t)
    (hres : (configureRouting env s.mgr c).result = .success) :
    Same t.committed (c.determined env) := by
  obtain ⟨hokruns, hokc⟩ := stepsOk_append cs [c] hok
  have hinv : Faithful env s :=
    run_keeps_of_step (fun _ _ _ hi hc hs => (step_sound hi hc hs).1) cs
      (init_faithful env routes) hokruns hrun
  exact (step_sound hinv (hokc s hrun).1 hstep).2 hres

/-! ### A skipped commit -/

/-- A controller that matches exact AIDs and prefixes, with a host default
route and a secure element on route 1. -/
def retryEnv : Env := ⟨.exactOrPrefix, id, fun l => List.Perm.refl l⟩

def retryRoutes : DefaultRoutes := ⟨0, 0, 1, 1, 0⟩

def retryOptions (maxAidRoutingTableSize : Nat) : RoutingOptions :=
  { isRoutingTableOverrided := false, defaults := retryRoutes, overrides := retryRoutes,
    isAutoChangeEnabled := false, getRouteForSecureElement := fun se => if se = "eSE1" then 1 else 0,
    nciVersion := 0x20, maxAidRoutingTableSize := maxAidRoutingTableSize }

/-- One AID on the secure element: 13 bytes with the entry of the empty AID. -/
def retryCall (maxAidRoutingTableSize : Nat) : Call :=
  { aidMap := [("A000000004".toList, ⟨false, some "eSE1", 0, 0, powerStateAll, []⟩)]
    distinct := List.nodup_singleton _
    force := false, options := retryOptions maxAidRoutingTableSize, commitOk := true }

/-- The manager after the call: it remembers the maps, whether or not they fit. -/
def afterRetryCall : Manager :=
  ⟨retryRoutes, 0x11, [("A000000004".toList, 1)], [("A000000004".toList, powerStateAll)]⟩

theorem retry_not_committed :
    ¬ ∀ (env : Env) (routes : DefaultRoutes) (cs : List Call) (c : Call) (s t : Routing),
      run (Routing.step env) (Routing.init routes) cs = some s → Routing.step env s c = some t →
      (configureRouting env s.mgr c).result = .success → Same t.committed (c.determined env) := by
  intro h
  have hfirst : run (Routing.step retryEnv) (Routing.init retryRoutes) [retryCall 12] =
      some ⟨afterRetryCall, [], none⟩ := rfl
  have hsecond : Routing.step retryEnv ⟨afterRetryCall, [], none⟩ (retryCall 12) =
      some ⟨afterRetryCall, [], none⟩ := rfl
  have hsame := h retryEnv retryRoutes [retryCall 12] (retryCall 12) _ _ hfirst hsecond rfl
  have hrow : (⟨"A000000004".toList, 1, 0, powerStateAll⟩ : Row) ∈
      (retryCall 12).determined retryEnv := by decide
  exact absurd ((hsame _).mpr hrow) List.not_mem_nil

/-- A call that is committed and then repeated. -/
theorem skip_sound_repeated :
    ∃ s t, run (Routing.step retryEnv) (Routing.init retryRoutes) [retryCall 255] = some s ∧
      Routing.step retryEnv s (retryCall 255) = some t ∧
      (configureRouting retryEnv s.mgr (retryCall 255)).sent = none ∧
      Same t.committed ((retryCall 255).determined retryEnv) := by
  refine ⟨⟨afterRetryCall, (retryCall 255).determined retryEnv, some (retryCall 255)⟩,
    ⟨afterRetryCall, (retryCall 255).determined retryEnv, some (retryCall 255)⟩, rfl, rfl, rfl, ?_⟩
  apply skip_sound retryEnv retryRoutes [retryCall 255] (retryCall 255)
  · refine ⟨⟨fun h => ?_, fun _ h => ?_⟩, fun t ht => ⟨⟨fun _ => ?_, fun h _ => ?_⟩, fun _ _ => trivial⟩⟩
    · exact absurd h (by decide)
    · exact absurd h (by decide)
    · cases ht
      exact ⟨retryCall 255, rfl, rfl, rfl⟩
    · cases ht
      exact absurd h (by decide)
  · rfl
  · rfl
  · rfl

end NfcStack.CardEmulation
