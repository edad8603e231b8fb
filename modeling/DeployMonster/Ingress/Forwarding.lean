import DeployMonster.Ingress.Proxy
import DeployMonster.Ingress.Router

/-!
# Forwarding a request

What `ServeHTTP` of `internal/ingress/proxy.go` makes of a request whose route is found: the path it
forwards, the backend it picks, and the outcome that it records for the backend.
-/

namespace DeployMonster.Ingress

open Graceful StepMachine List Option

def trimPrefix (s pre : String) : String :=
  if pre.toList.isPrefixOf s.toList then String.ofList (s.toList.drop pre.toList.length) else s

/-- The path of the request after the `Director`. -/
def directedPath (route : RouteEntry) (path : String) : String :=
  if route.stripPrefix && route.pathPrefix != "/" then
    let path := trimPrefix path route.pathPrefix
    if path = "" then "/" else path
  else path

/-- The path is `pre`, or it goes on behind `pre` at a slash. -/
def AtBoundary (pre path : String) : Prop :=
  pre.toList.isPrefixOf path.toList = true ∧
    (path = pre ∨ path.toList[pre.toList.length]? = some '/' ∨ pre.toList.getLast? = some '/')
  deriving Decidable

/-- A route takes whole segments of a path only, and what it forwards is a path. -/
def RoutesSegments (route : RouteEntry) (path : String) : Prop :=
  matchPath route.pathPrefix path = true →
    AtBoundary route.pathPrefix path ∧
      (route.stripPrefix = true → (directedPath route path).toList.head? = some '/')
  deriving Decidable

lemma head?_directedPath {route : RouteEntry} {path : String} (hstrip : route.stripPrefix = true)
    (hne : route.pathPrefix ≠ "/") (hpre : route.pathPrefix.toList.isPrefixOf path.toList = true) :
    (directedPath route path).toList.head? = some '/' ↔
      path = route.pathPrefix ∨ path.toList[route.pathPrefix.toList.length]? = some '/' := by
  obtain ⟨rest, hrest⟩ := isPrefixOf_iff_prefix.mp hpre
  have hself : path = route.pathPrefix ↔ rest = [] := by
    rw [← String.toList_inj, ← hrest, append_right_eq_self]
  have htrim : trimPrefix path route.pathPrefix = String.ofList rest := by
    rw [trimPrefix, if_pos hpre, ← hrest, drop_left]
  rw [hself, ← hrest, getElem?_append_right le_rfl, Nat.sub_self]
  cases rest with
  | nil => simp [directedPath, hstrip, hne, htrim]
  | cons c rest =>
    simp [directedPath, hstrip, hne, htrim]

/-- For one path, by its text: it does not begin with the prefix, or what follows is empty or begins
with a slash; a prefix that ends with one need not be followed by one unless it is stripped. -/
lemma routesSegments_path_iff (route : RouteEntry) (path : String)
    (hpath : path.toList.head? = some '/') :
    RoutesSegments route path ↔
      (route.pathPrefix.toList <+: path.toList →
        route.pathPrefix = "/" ∨ path = route.pathPrefix ∨
          path.toList[route.pathPrefix.toList.length]? = some '/' ∨
          route.pathPrefix.toList.getLast? = some '/' ∧ route.stripPrefix = false) := by
  by_cases hroot : route.pathPrefix = "/"
  · obtain ⟨rest, hrest⟩ := head?_eq_some_iff.mp hpath
    refine iff_of_true (fun _ => ⟨⟨?_, .inr (.inr ?_)⟩, fun _ => ?_⟩) fun _ => .inl hroot
    · rw [hroot, hrest]
      rfl
    · rw [hroot]
      rfl
    · simpa [directedPath, hroot] using hpath
  · have hmatch : matchPath route.pathPrefix path = true ↔
        route.pathPrefix.toList <+: path.toList := by
      rw [matchPath, if_neg hroot, isPrefixOf_iff_prefix]
    rw [RoutesSegments, hmatch]
    refine imp_congr_right fun hprefix => ?_
    have hpre := isPrefixOf_iff_prefix.mpr hprefix
    simp only [AtBoundary, hpre, hroot, true_and, false_or]
    cases hstrip : route.stripPrefix with
    | false => simp
    | true =>
      rw [head?_directedPath hstrip hroot hpre]
      simp only [forall_const, Bool.true_eq_false, and_false, or_false]
      exact and_iff_right_of_imp fun h => h.elim .inl fun h => .inr (.inl h)

/-- **Prefixes and segments.** A route takes whole segments of every path, and forwards a path for
each, exactly when no path begins with its prefix or its prefix is empty, or the prefix is `/`, or it
ends with a slash and is not stripped. -/
theorem routesSegments_iff (route : RouteEntry) :
    (∀ path : String, path.toList.head? = some '/' → RoutesSegments route path) ↔
      route.pathPrefix.toList.head? ≠ some '/' ∨ route.pathPrefix = "/" ∨
        route.pathPrefix.toList.getLast? = some '/' ∧ route.stripPrefix = false := by
  constructor
  · intro h
    refine or_iff_not_imp_left.mpr fun hhead => ?_
    have hslash := not_not.mp hhead
    have hx : (String.ofList (route.pathPrefix.toList ++ ['x'])).toList.head? = some '/' := by
      rw [String.toList_ofList, head?_append, hslash]
      rfl
    have hpath := (routesSegments_path_iff route _ hx).mp (h _ hx) (by simp)
    simpa [← String.toList_inj] using hpath
  · intro h path hpath
    refine (routesSegments_path_iff route path hpath).mpr fun hprefix => ?_
    obtain ⟨rest, hrest⟩ := hprefix
    rcases h with hhead | hroot | hlast
    · cases hpre : route.pathPrefix.toList with
      | nil =>
        rw [head?_eq_getElem?] at hpath
        exact .inr (.inr (.inl hpath))
      | cons c cs =>
        rw [hpre, head?_cons] at hhead
        rw [← hrest, hpre, cons_append, head?_cons] at hpath
        exact absurd hpath hhead
    · exact .inl hroot
    · exact .inr (.inr (.inr hlast))

def apiRoute : RouteEntry := ⟨"app.example.com", "/api", 0, ["10.0.0.6:80"], true, "api"⟩

theorem apiRoute_takes_apix : matchPath apiRoute.pathPrefix "/apix" = true ∧
    ¬ AtBoundary apiRoute.pathPrefix "/apix" ∧ directedPath apiRoute "/apix" = "x" := by
  decide

/-! ## The choice of the backend -/

/-- The balancer, and the requests that it has sent: their routes and their backends. -/
structure Balancing where
  lb : RoundRobin
  sent : List (ℕ × String)

variable (routes : ℕ → List String)

/-- A request of a route. One balancer serves all routes; a route without a healthy backend does not
ask it. -/
def balanceStep (s : Balancing) (route : ℕ) : Option Balancing :=
  if (routes route).length = 0 then some s
  else
    let next := s.lb.next (routes route)
    some ⟨next.1, (route, next.2) :: s.sent⟩

/-- How many requests of a route were sent. -/
def Balancing.sentOf (s : Balancing) (route : ℕ) : ℕ := s.sent.countP fun x => x.1 = route

/-- Of any two backends of a route, neither got more than one request more than the other. -/
def Fair (s : Balancing) : Prop :=
  ∀ route, ∀ b ∈ routes route, ∀ b' ∈ routes route,
    s.sent.count (route, b) ≤ s.sent.count (route, b') + 1

/-- A request of a route finds the counter where the previous request of the route has left it, up
to whole rounds over the backends of the route. -/
def InTurn (first : ℕ → ℕ) (s : Balancing) (route : ℕ) : Prop :=
  s.lb.counter ≡ first route + s.sentOf route [MOD (routes route).length]
  deriving Decidable

lemma count_add_mod_le {n i j : ℕ} (hi : i < n) (hj : j < n) (k m : ℕ) :
    Nat.count (fun x => (k + x) % n = i) m ≤ Nat.count (fun x => (k + x) % n = j) m + 1 := by
  have hcount {v : ℕ} (hv : v < n) (b : ℕ) :
      Nat.count (fun x => x % n = v) b = b / n + if v < b % n then 1 else 0 := by
    have h := Nat.count_modEq_card b (Nat.zero_lt_of_lt hv) v
    simpa only [Nat.ModEq, Nat.mod_eq_of_lt hv] using h
  have hi' := Nat.count_add (fun x => x % n = i) k m
  have hj' := Nat.count_add (fun x => x % n = j) k m
  rw [hcount hi, hcount hi] at hi'
  rw [hcount hj, hcount hj] at hj'
  split_ifs at hi' hj' <;> omega

/-- Every backend of a route got the requests of its turns. -/
def Turns (first : ℕ → ℕ) (s : Balancing) : Prop :=
  ∀ route j b, (routes route)[j]? = some b →
    s.sent.count (route, b) =
      Nat.count (fun x => (first route + x) % (routes route).length = j) (s.sentOf route)

variable {first : ℕ → ℕ}

lemma turns_step {routes : ℕ → List String} (hnodup : ∀ route, (routes route).Nodup) (s : Balancing)
    (route : ℕ) (s' : Balancing) (hs : Turns routes first s) (hturn : InTurn routes first s route)
    (hstep : balanceStep routes s route = some s') : Turns routes first s' := by
  unfold balanceStep at hstep
  split_ifs at hstep with hempty
  · exact some.inj hstep ▸ hs
  obtain rfl : ⟨(s.lb.next (routes route)).1,
    (route, (s.lb.next (routes route)).2) :: s.sent⟩ = s' := some.inj hstep
  have hlt := Nat.mod_lt s.lb.counter (Nat.pos_of_ne_zero hempty)
  have hnext : (routes route)[s.lb.counter % (routes route).length]? =
      some (s.lb.next (routes route)).2 := by
    simp [RoundRobin.next, getElem?_eq_getElem hlt]
  intro route' j b hb
  by_cases hroute : route = route'
  · subst hroute
    have hsent : Balancing.sentOf ⟨(s.lb.next (routes route)).1,
        (route, (s.lb.next (routes route)).2) :: s.sent⟩ route = s.sentOf route + 1 := by
      simp [Balancing.sentOf]
    rw [hsent, Nat.count_succ, ← hs route j b hb, count_cons, ← hturn]
    have hiff : s.lb.counter % (routes route).length = j ↔
        (s.lb.next (routes route)).2 = b := by
      refine ⟨fun h => ?_, fun h => ?_⟩
      · rw [h, hb] at hnext
        exact (some.inj hnext).symm
      · exact (getElem?_inj hlt (hnodup route)).mp (by rw [hnext, hb, h])
    simp [hiff]
  · simpa [Balancing.sentOf, count_cons, hroute] using hs route' j b hb

lemma fair_of_turns {routes : ℕ → List String} {s : Balancing}
    (hs : Turns routes first s) : Fair routes s := by
  intro route b hb b' hb'
  obtain ⟨i, hi⟩ := mem_iff_getElem?.mp hb
  obtain ⟨j, hj⟩ := mem_iff_getElem?.mp hb'
  rw [hs route i b hi, hs route j b' hj]
  exact count_add_mod_le (List.getElem?_eq_some_iff.mp hi).1 (List.getElem?_eq_some_iff.mp hj).1 _ _

/-- **Fairness of round-robin.** However requests are interleaved, the backends of each route get
the same numbers of requests up to one, when every request of a route finds the counter at the turn
after its previous request. -/
theorem fair_of_inTurn (routes : ℕ → List String) (hnodup : ∀ route, (routes route).Nodup)
    (first : ℕ → ℕ) (requests : List ℕ) (s : Balancing)
    (hturn : Along (balanceStep routes) (InTurn routes first) ⟨⟨0⟩, []⟩ requests)
    (hrun : run (balanceStep routes) ⟨⟨0⟩, []⟩ requests = some s) : Fair routes s :=
  fair_of_turns (invariant_of_along (turns_step hnodup)
    (fun _ _ _ _ => by simp [Balancing.sentOf]) hturn hrun)

def twoRoutes (route : ℕ) : List String :=
  match route with
  | 0 => ["10.0.0.5:80", "10.0.0.6:80"]
  | 1 => ["10.0.0.7:80"]
  | _ => []

/-- Two requests of the other route between those of the first do not disturb it. -/
theorem fair_twoRoutes :
    ∃ s, run (balanceStep twoRoutes) ⟨⟨0⟩, []⟩ [0, 1, 1, 0, 0] = some s ∧
      s.sentOf 0 = 3 ∧ Fair twoRoutes s := by
  refine exists_of_run_and (by decide) fun s hrun _ => ?_
  refine fair_of_inTurn _ (fun route => ?_) (fun _ => 0) _ s ?_ hrun
  · unfold twoRoutes
    split <;> decide
  · decide

/-- The requests of two routes alternate, and one backend gets all requests of its route. -/
theorem alternating_unfair :
    ∃ s, run (balanceStep twoRoutes) ⟨⟨0⟩, []⟩ [0, 1, 0, 1] = some s ∧
      s.sent.count (0, "10.0.0.5:80") = 2 ∧ ¬ Fair twoRoutes s := by
  refine exists_of_run_imp (P := fun s => s.sent.count (0, "10.0.0.5:80") = 2 ∧
    s.sent.count (0, "10.0.0.6:80") = 0) (by decide) fun s _ ⟨htwo, hnone⟩ => ⟨htwo, fun h => ?_⟩
  have := h 0 "10.0.0.5:80" (by decide) "10.0.0.6:80" (by decide)
  omega

/-! ## The recorded outcome -/

inductive ResponseWrite
  | header (status : ℕ)
  | body

/-- How an exchange with the backend ends. -/
inductive Ending
  | complete
  /-- The error handler is called. -/
  | transportError
  /-- The connection breaks while the body is copied, which aborts the handler. -/
  | broken
  deriving DecidableEq

def ResponseWrite.event : ResponseWrite → RequestEvent
  | header status => .writeHeader status
  | body => .write

/-- What `ServeHTTP` does from the end of the exchange on, up to the deferred `Decrement`. -/
def Ending.events : Ending → List RequestEvent
  | complete => [.finish, .next]
  | transportError => [.transportError, .next, .next]
  | broken => [.finish, .next]

def outcomes (rp : ReverseProxy) (r : Request) : List RequestEvent → List (String × Outcome)
  | [] => []
  | e :: es => (r.recorded e).toList ++ ((r.advance rp e).map (outcomes rp · es)).getD []

def forwardOutcomes (rp : ReverseProxy) (backend : String) (ws : List ResponseWrite) (e : Ending) :
    List (String × Outcome) :=
  outcomes rp (.serving ⟨backend, 0, false⟩) (ws.map ResponseWrite.event ++ e.events)

/-- An informational header, after which another one follows. -/
def ResponseWrite.informational : ResponseWrite → Bool
  | header status => 100 ≤ status && status < 200 && status != 101
  | body => false

/-- The status that the client gets; a body without a header has status 200. -/
def finalStatus : List ResponseWrite → ℕ
  | [] => 200
  | .body :: _ => 200
  | .header status :: ws =>
    if (ResponseWrite.header status).informational then finalStatus ws else status

def properOutcome (ws : List ResponseWrite) (e : Ending) : Outcome :=
  if e ≠ .complete ∨ finalStatus ws ≥ 500 then .failure else .success

/-- The outcome that the first write records. -/
def ResponseWrite.outcome : ResponseWrite → Outcome
  | header status => if status ≥ 500 then .failure else .success
  | body => .success

variable {rp : ReverseProxy} {backend : String}

lemma outcomes_of_written {rt : ResponseTracker} (h : rt.written = true)
    (ws : List ResponseWrite) (es : List RequestEvent) :
    outcomes rp (.serving rt) (ws.map ResponseWrite.event ++ es) = outcomes rp (.serving rt) es := by
  induction ws with
  | nil => rfl
  | cons w ws ih =>
    cases w with
    | header status =>
      simpa [outcomes, ResponseWrite.event, Request.recorded, Request.advance,
        ResponseTracker.writeHeader, h] using ih
    | body =>
      simpa [outcomes, ResponseWrite.event, Request.recorded, Request.advance,
        ResponseTracker.write, h] using ih

lemma forwardOutcomes_nil (e : Ending) :
    forwardOutcomes rp backend [] e =
      if e = .transportError then [(backend, .failure), (backend, .failure)] else [] := by
  cases e <;> rfl

lemma forwardOutcomes_cons (w : ResponseWrite) (ws : List ResponseWrite) (e : Ending) :
    forwardOutcomes rp backend (w :: ws) e =
      (backend, w.outcome) :: if e = .transportError then [(backend, .failure)] else [] := by
  have hend {rt : ResponseTracker} (h : rt.written = true) (hb : rt.backend = backend) :
      outcomes rp (.serving rt) e.events =
        if e = .transportError then [(backend, .failure)] else [] := by
    cases e <;> simp [outcomes, Ending.events, Request.recorded, Request.advance,
      ResponseTracker.writeHeader, h, hb]
  cases w with
  | header status =>
    simp [forwardOutcomes, outcomes, ResponseWrite.event, Request.recorded, Request.advance,
      ResponseTracker.writeHeader, outcomes_of_written, hend, ResponseWrite.outcome]
  | body =>
    simp [forwardOutcomes, outcomes, ResponseWrite.event, Request.recorded, Request.advance,
      ResponseTracker.write, outcomes_of_written, hend, ResponseWrite.outcome]

/-- **The outcome of a request.** Exactly one outcome is recorded, and the proper one, when the
exchange is complete and its first header is the final one, or an informational one before a final
status below 500; and when it breaks off after a header of 500 or more. -/
theorem proper_outcome_iff (rp : ReverseProxy) (backend : String) (ws : List ResponseWrite)
    (e : Ending) :
    forwardOutcomes rp backend ws e = [(backend, properOutcome ws e)] ↔
      ∃ w ws', ws = w :: ws' ∧
        (e = .complete ∧ (w.informational = true → finalStatus ws' < 500) ∨
          e = .broken ∧ w.outcome = .failure) := by
  cases ws with
  | nil => cases e <;> simp [forwardOutcomes_nil]
  | cons w ws =>
    rw [forwardOutcomes_cons]
    cases e with
    | transportError => simp
    | broken => simp [properOutcome]
    | complete =>
      cases w with
      | body => simp [properOutcome, finalStatus, ResponseWrite.outcome, ResponseWrite.informational]
      | header status =>
        by_cases hinfo : (ResponseWrite.header status).informational = true
        · have hlt : status < 500 := by
            simp only [ResponseWrite.informational, Bool.and_eq_true, decide_eq_true_eq] at hinfo
            omega
          simp [properOutcome, finalStatus, hinfo, ResponseWrite.outcome, Nat.not_le.mpr hlt]
        · simp [properOutcome, finalStatus, hinfo, ResponseWrite.outcome]

theorem proper_outcome_notFound :
    forwardOutcomes (newReverseProxy defaultCircuitConfig 0) "10.0.0.5:80"
      [.header 103, .header 404, .body] .complete = [("10.0.0.5:80", .success)] :=
  (proper_outcome_iff _ _ _ _).mpr ⟨_, _, rfl, .inl ⟨rfl, by decide⟩⟩

/-- A backend that does not answer is charged twice, and early hints hide a failure. -/
theorem outcomes_twice_and_hidden : (∀ rp, forwardOutcomes rp "10.0.0.5:80" [] .transportError =
      [("10.0.0.5:80", .failure), ("10.0.0.5:80", .failure)]) ∧
    ∀ rp, forwardOutcomes rp "10.0.0.5:80" [.header 103, .header 503, .body] .complete =
      [("10.0.0.5:80", .success)] ∧ properOutcome [.header 103, .header 503, .body] .complete =
        .failure :=
  ⟨fun _ => rfl, fun _ => ⟨rfl, by decide⟩⟩

end DeployMonster.Ingress
