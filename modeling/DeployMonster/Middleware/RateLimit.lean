import DeployMonster.Core.Clock
import DeployMonster.Core.Text
import DeployMonster.DB.KV
import DeployMonster.Library.FixedWindow
import DeployMonster.Library.StepMachine
import DeployMonster.Middleware.NetIP

/-!
# The client address

`safeClientIP` and its helpers of `internal/api/middleware/ratelimit.go`, and the allow-list of
`internal/api/middleware/ip_allowlist.go`.
-/

namespace DeployMonster.Middleware

open Text Option

/-- A request: the address of its connection, its path, and its proxy headers, which are empty when
they are absent. -/
structure Request where
  (remoteAddr path realIP forwardedFor : String)

/-- `stripPort`: the part before the colon, when there is just one and no bracket. -/
def stripPort (addr : String) : String :=
  if addr.toList.count ':' = 1 ∧ ']' ∉ addr.toList then
    String.ofList (addr.toList.takeWhile (· ≠ ':'))
  else addr

variable (net : NetIP)

/-- `validateIP`; no address is the empty text. -/
def validateIP (raw : String) : String :=
  if raw = "" then ""
  else
    match net.parseIP (trimSpace raw) with
    | none => ""
    | some ip =>
      if net.isPrivate ip ∨ net.isLoopback ip ∨ net.isLinkLocalUnicast ip then "" else net.text ip

def validateIPPermissive (raw : String) : String :=
  if raw = "" then ""
  else
    match net.parseIP (trimSpace raw) with
    | none => ""
    | some ip => net.text ip

def firstEntry (list : String) : String :=
  trimSpace (String.ofList (list.toList.takeWhile (· ≠ ',')))

variable (r : Request)

def safeClientIP (trustXFF : Bool) : String :=
  if r.realIP ≠ "" ∧ validateIPPermissive net r.realIP ≠ "" then validateIPPermissive net r.realIP
  else if trustXFF ∧ r.forwardedFor ≠ "" ∧ validateIP net (firstEntry r.forwardedFor) ≠ "" then
    validateIP net (firstEntry r.forwardedFor)
  else stripPort r.remoteAddr

/-- `IPAllowlist`, with the ranges that were parsed. -/
structure IPAllowlist where
  allowedCIDRs : List net.Range

/-- `NewIPAllowlist`: ranges that cannot be parsed are skipped. -/
def newIPAllowlist (cidrs : List String) : IPAllowlist net where
  allowedCIDRs := ((cidrs.map trimSpace).filter (· ≠ "")).filterMap net.parseCIDR

inductive AccessVerdict
  | served
  /-- 403, `access denied`. -/
  | denied
  deriving DecidableEq

variable {net}

def IPAllowlist.middleware (al : IPAllowlist net) (r : Request) : AccessVerdict :=
  if al.allowedCIDRs.isEmpty then .served
  else
    match net.parseIP (safeClientIP net r false) with
    | none => .denied
    | some clientIP => if al.allowedCIDRs.any (net.contains · clientIP) then .served else .denied

/-- The address that the header puts in the place of the connection's, when it differs from it. -/
def spoofed? (net : NetIP) (r : Request) : Option String :=
  ((net.parseIP (trimSpace r.realIP)).map net.text).filter fun ip =>
    r.realIP ≠ "" ∧ ip ≠ stripPort r.remoteAddr

lemma validateIPPermissive_eq (raw : String) : validateIPPermissive net raw =
    if raw = "" then "" else ((net.parseIP (trimSpace raw)).map net.text).getD "" := by
  unfold validateIPPermissive
  split
  · rfl
  · cases net.parseIP (trimSpace raw) <;> rfl

lemma safeClientIP_eq :
    safeClientIP net r false = (spoofed? net r).getD (stripPort r.remoteAddr) := by
  rw [safeClientIP, spoofed?, validateIPPermissive_eq]
  by_cases hreal : r.realIP = ""
  · simp [hreal]
  cases net.parseIP (trimSpace r.realIP) with
  | none => simp
  | some ip =>
    by_cases hip : net.text ip = stripPort r.remoteAddr
    · simp [hreal, hip, filter_some]
    · simp [hreal, hip, net.text_ne_empty, filter_some]

/-- **Two requests of one connection have the same identity** exactly when their headers spoof the
same address, or none. -/
theorem safeClientIP_eq_iff {r1 r2 : Request} (haddr : r1.remoteAddr = r2.remoteAddr) :
    safeClientIP net r1 false = safeClientIP net r2 false ↔ spoofed? net r1 = spoofed? net r2 := by
  have hne (r : Request) : ∀ ip ∈ spoofed? net r, ip ≠ stripPort r.remoteAddr := by
    intro ip hip
    obtain ⟨-, h⟩ := filter_eq_some_iff.mp hip
    exact (of_decide_eq_true h).2
  rw [safeClientIP_eq, safeClientIP_eq, haddr]
  cases h1 : spoofed? net r1 with
  | none =>
    cases h2 : spoofed? net r2 with
    | none => simp
    | some ip => simpa using (hne r2 ip h2).symm
  | some ip =>
    cases h2 : spoofed? net r2 with
    | none => simpa [haddr] using hne r1 ip h1
    | some ip' => simp

/-! ## Direct clients -/

/-- `net.JoinHostPort`: an address of version 6 gets brackets. -/
def joinHostPort (host : String) (port : ℕ) : String :=
  if ':' ∈ host.toList then "[" ++ host ++ "]:" ++ toString port else host ++ ":" ++ toString port

/-- A request without proxy headers. -/
def Request.direct (addr : String) (port : ℕ) (path : String) : Request :=
  ⟨joinHostPort addr port, path, "", ""⟩

lemma stripPort_joinHostPort {addr : String} (hcolon : ':' ∉ addr.toList)
    (hbracket : ']' ∉ addr.toList) (port : ℕ) : stripPort (joinHostPort addr port) = addr := by
  have hdigits {c : Char} (hc : ¬c.isDigit) : c ∉ (toString port).toList := by
    rw [Nat.toString_eq_repr, Nat.toList_repr]
    exact fun h => hc (Nat.isDigit_of_mem_toDigits (by decide) (by decide) h)
  have hjoin : (joinHostPort addr port).toList = addr.toList ++ ':' :: (toString port).toList := by
    rw [joinHostPort, if_neg hcolon, String.toList_append, String.toList_append, List.append_assoc]
    rfl
  have hone : (joinHostPort addr port).toList.count ':' = 1 := by
    rw [hjoin, List.count_append, List.count_cons_self, List.count_eq_zero.mpr hcolon,
      List.count_eq_zero.mpr (hdigits (by decide))]
  have hnone : ']' ∉ (joinHostPort addr port).toList := by
    simp [hjoin, hbracket, hdigits, -Nat.toString_eq_repr]
  have htake : addr.toList.takeWhile (· ≠ ':') = addr.toList :=
    List.takeWhile_eq_self_iff.mpr fun c hc => decide_eq_true (ne_of_mem_of_not_mem hc hcolon)
  rw [stripPort, if_pos ⟨hone, hnone⟩, hjoin, List.takeWhile_append, htake]
  simp

/-- An address with a colon gets brackets, and what has a bracket keeps its port. -/
lemma stripPort_joinHostPort_of_mem {addr : String} (hcolon : ':' ∈ addr.toList) (port : ℕ) :
    stripPort (joinHostPort addr port) = "[" ++ addr ++ "]:" ++ toString port := by
  rw [joinHostPort, if_pos hcolon, stripPort, if_neg]
  simp

lemma safeClientIP_direct (addr : String) (port : ℕ) (path : String) (trustXFF : Bool) :
    safeClientIP net (.direct addr port path) trustXFF = stripPort (joinHostPort addr port) := by
  simp [safeClientIP, Request.direct]

/-- **The identity of a direct client.** It is the same for every two ports and parses as the address,
and the allow-list serves the client when the address is in one of its ranges, exactly when the text
of the address has no colon: an address of version 6 has another identity for each port. -/
theorem direct_identity_iff (a : net.Addr) (hparse : net.parseIP (net.text a) = some a)
    (hbracket : ']' ∉ (net.text a).toList) :
    (∀ (port port' : ℕ) (path : String) (trustXFF : Bool) (al : IPAllowlist net),
      safeClientIP net (.direct (net.text a) port path) trustXFF =
          safeClientIP net (.direct (net.text a) port' path) trustXFF ∧
        net.parseIP (safeClientIP net (.direct (net.text a) port path) trustXFF) = some a ∧
        (al.middleware (.direct (net.text a) port path) = .served ↔
          al.allowedCIDRs = [] ∨ al.allowedCIDRs.any (net.contains · a))) ↔
      ':' ∉ (net.text a).toList := by
  constructor
  · intro h hcolon
    have hsame := (h 1 2 "/" false ⟨[]⟩).1
    rw [safeClientIP_direct, safeClientIP_direct, stripPort_joinHostPort_of_mem hcolon,
      stripPort_joinHostPort_of_mem hcolon, ← String.toList_inj] at hsame
    simp only [String.toList_append] at hsame
    exact absurd (List.append_cancel_left hsame) (by decide +kernel)
  · intro hcolon port port' path trustXFF al
    have hidentity (port : ℕ) (trustXFF : Bool) :
        safeClientIP net (.direct (net.text a) port path) trustXFF = net.text a := by
      rw [safeClientIP_direct, stripPort_joinHostPort hcolon hbracket]
    refine ⟨by rw [hidentity, hidentity], by rw [hidentity, hparse], ?_⟩
    rw [IPAllowlist.middleware, hidentity, hparse]
    simp only [List.isEmpty_iff]
    grind

/-- A client of the allowed network 10.0.0.0/8, and one of another. -/
theorem direct_identity_iff_ten :
    (⟨[⟨⟨10, 0, 0, 0⟩, 8⟩]⟩ : IPAllowlist netIPv4).middleware (.direct "10.0.0.1" 443 "/") = .served ∧
      (⟨[⟨⟨10, 0, 0, 0⟩, 8⟩]⟩ : IPAllowlist netIPv4).middleware (.direct "11.0.0.1" 443 "/") ≠
        .served := by
  have hten : IPv4.ofChars? (IPv4.text ⟨10, 0, 0, 1⟩).toList = some ⟨10, 0, 0, 1⟩ := by
    decide +kernel
  have heleven : IPv4.ofChars? (IPv4.text ⟨11, 0, 0, 1⟩).toList = some ⟨11, 0, 0, 1⟩ := by
    decide +kernel
  have hserved := ((@direct_identity_iff netIPv4 ⟨10, 0, 0, 1⟩ hten (by decide +kernel)).mpr
    (by decide +kernel) 443 8080 "/" false ⟨[⟨⟨10, 0, 0, 0⟩, 8⟩]⟩).2.2
  have hdenied := ((@direct_identity_iff netIPv4 ⟨11, 0, 0, 1⟩ heleven (by decide +kernel)).mpr
    (by decide +kernel) 443 8080 "/" false ⟨[⟨⟨10, 0, 0, 0⟩, 8⟩]⟩).2.2
  exact ⟨hserved.mpr (.inr (by decide)), fun h => (hdenied.mp h).elim (List.cons_ne_nil _ _) (by decide)⟩

/-- An address of version 6 has one identity for each port, and its range does not admit it. -/
theorem loopback_identities :
    safeClientIP netLoopback (.direct "::1" 1 "/") false ≠
        safeClientIP netLoopback (.direct "::1" 2 "/") false ∧
      (⟨[()]⟩ : IPAllowlist netLoopback).middleware (.direct "::1" 1 "/") = .denied := by
  decide +kernel

/-!
# The rate limiters

`AuthRateLimiter` of `internal/api/middleware/ratelimit.go` counts the requests of a client in the
key-value store, `GlobalRateLimiter` of `internal/api/middleware/global_ratelimit.go` in memory.
Both find the client's window by `safeClientIP`.
-/

open Clock DB

structure RateLimitWindow where
  (count resetAt : ℤ)

def Clients := String → Option RateLimitWindow

structure GlobalRateLimiter where
  (rate window : ℤ)
  allowlist : List String

structure RateLimitHeaders where
  (limit remaining reset : ℤ)
  deriving DecidableEq

inductive GlobalVerdict
  /-- The limiter is off, or does not cover the path. -/
  | unlimited
  | served (headers : RateLimitHeaders)
  /-- 429, `rate limit exceeded`. -/
  | limited (retryAfter : ℤ) (headers : RateLimitHeaders)
  deriving DecidableEq

def GlobalRateLimiter.shouldRateLimit (rl : GlobalRateLimiter) (path : String) : Bool :=
  rl.allowlist.isEmpty || rl.allowlist.any fun start => start.toList.isPrefixOf path.toList

/-- `setRateLimitHeaders`. -/
def GlobalRateLimiter.headers (rl : GlobalRateLimiter) (remaining resetAt : ℤ) : RateLimitHeaders :=
  ⟨rl.rate, remaining, unix resetAt⟩

/-- `int(time.Until(resetAt).Seconds())` at the time `now`. -/
def secondsUntil (now resetAt : ℤ) : ℤ := (resetAt - now).tdiv second

section

variable (net : NetIP)

/-- `Middleware` on a request at the time `now`; a refusal reads the clock again. -/
def GlobalRateLimiter.middleware (rl : GlobalRateLimiter) (clients : Clients) (r : Request)
    (now later : ℤ) : GlobalVerdict × Clients :=
  if rl.rate ≤ 0 then (.unlimited, clients)
  else if ¬rl.shouldRateLimit r.path then (.unlimited, clients)
  else
    let ip := safeClientIP net r false
    let newWindow : GlobalVerdict × Clients :=
      (.served (rl.headers (rl.rate - 1) (now + rl.window)),
        Function.update clients ip (some ⟨1, now + rl.window⟩))
    match clients ip with
    | none => newWindow
    | some entry =>
      if now > entry.resetAt then newWindow
      else if entry.count ≥ rl.rate then
        (.limited (secondsUntil later entry.resetAt + 1) (rl.headers 0 entry.resetAt), clients)
      else
        (.served (rl.headers (rl.rate - (entry.count + 1)) entry.resetAt),
          Function.update clients ip (some { entry with count := entry.count + 1 }))

structure AuthRateLimitEntry where
  (count resetAt : ℤ)

structure AuthRateLimiter where
  /-- Whether there is a key-value store. -/
  kv : Bool
  (rate window : ℤ)
  /-- The field `prefix`. -/
  endpoint : String

inductive AuthVerdict
  | served
  /-- 429, `rate limit exceeded`; the limit is sent with 0 remaining. -/
  | limited (retryAfter limit : ℤ)

def AuthRateLimiter.key (rl : AuthRateLimiter) (ip : String) : String :=
  "auth_rl:" ++ rl.endpoint ++ ":" ++ ip

def AuthRateLimiter.windowSeconds (rl : AuthRateLimiter) : ℤ := rl.window.tdiv second

/-- The store's part in one request: whether its read and its write fail. -/
structure KVFaults where
  (get set : Bool)

/-- `Wrap` on a request at the Unix time `now`; a read that fails counts as a new window. -/
def AuthRateLimiter.wrap (rl : AuthRateLimiter) (kv : KVStore AuthRateLimitEntry) (r : Request)
    (now : ℤ) (faults : KVFaults) : AuthVerdict × KVStore AuthRateLimitEntry :=
  if ¬rl.kv then (.served, kv)
  else
    let key := rl.key (safeClientIP net r false)
    let put (entry : AuthRateLimitEntry) : KVStore AuthRateLimitEntry :=
      if faults.set then kv else kv.set now "ratelimit" key entry rl.windowSeconds
    let newWindow := (AuthVerdict.served, put ⟨1, now + rl.windowSeconds⟩)
    match if faults.get then .error .failed else kv.get now "ratelimit" key with
    | .error _ => newWindow
    | .ok entry =>
      if now ≥ entry.resetAt then newWindow
      else if entry.count ≥ rl.rate then (.limited (entry.resetAt - now) rl.rate, kv)
      else (.served, put { entry with count := entry.count + 1 })

/-- Neither the allow-list nor a limiter, whatever its state, tells the requests apart: the answers
are the same, and so are the windows afterwards. -/
structure Indistinguishable (r1 r2 : Request) : Prop where
  allowlist : ∀ al : IPAllowlist net, al.middleware r1 = al.middleware r2
  global : ∀ (rl : GlobalRateLimiter) (clients : Clients) (now later : ℤ),
    rl.middleware net clients r1 now later = rl.middleware net clients r2 now later
  auth : ∀ (rl : AuthRateLimiter) (kv : KVStore AuthRateLimitEntry) (now : ℤ) (faults : KVFaults),
    rl.wrap net kv r1 now faults = rl.wrap net kv r2 now faults

variable {net}

lemma Indistinguishable.of_identity {r1 r2 : Request} (hpath : r1.path = r2.path)
    (hid : safeClientIP net r1 false = safeClientIP net r2 false) :
    Indistinguishable net r1 r2 where
  allowlist al := by simp only [IPAllowlist.middleware, hid]
  global rl clients now later := by simp only [GlobalRateLimiter.middleware, hpath, hid]
  auth rl kv now faults := by simp only [AuthRateLimiter.wrap, hid]

def oneRequest : GlobalRateLimiter := ⟨1, second, []⟩

def exhausted (ip : String) : Clients := Function.update (fun _ => none) ip (some ⟨1, second⟩)

lemma oneRequest_exhausted (ip : String) (r : Request) :
    (oneRequest.middleware net (exhausted ip) r 0 0).1 =
      if safeClientIP net r false = ip then .limited 2 ⟨1, 0, 1⟩ else .served ⟨1, 0, 1⟩ := by
  by_cases h : safeClientIP net r false = ip
  · simp [GlobalRateLimiter.middleware, oneRequest, exhausted, h,
      GlobalRateLimiter.shouldRateLimit, GlobalRateLimiter.headers]
    rfl
  · simp [GlobalRateLimiter.middleware, oneRequest, exhausted, h,
      GlobalRateLimiter.shouldRateLimit, GlobalRateLimiter.headers]
    decide

lemma Indistinguishable.identity {r1 r2 : Request} (h : Indistinguishable net r1 r2) :
    safeClientIP net r1 false = safeClientIP net r2 false := by
  have hsame := congrArg Prod.fst
    (h.global oneRequest (exhausted (safeClientIP net r2 false)) 0 0)
  rw [oneRequest_exhausted, oneRequest_exhausted, if_pos rfl] at hsame
  by_contra hne
  rw [if_neg hne] at hsame
  cases hsame

end

/-- **What headers can do.** Two requests of one connection have one identity, and are treated alike
by the allow-list and both limiters in every state, exactly when their headers spoof the same
address, or none. -/
theorem indistinguishable_iff (net : NetIP) (r1 r2 : Request)
    (haddr : r1.remoteAddr = r2.remoteAddr) (hpath : r1.path = r2.path) :
    (safeClientIP net r1 false = safeClientIP net r2 false ∧ Indistinguishable net r1 r2) ↔
      spoofed? net r1 = spoofed? net r2 := by
  rw [← safeClientIP_eq_iff haddr]
  constructor
  · rintro ⟨-, hsame⟩
    exact hsame.identity
  · intro hid
    exact ⟨hid, .of_identity hpath hid⟩

def outside : Request := ⟨"203.0.113.9:4711", "/api/v1/auth/login", "", ""⟩

def disguised : Request := { outside with realIP := "10.0.0.1" }

/-- `X-Forwarded-For` is not looked at, and neither is an `X-Real-IP` that is no address. -/
theorem indistinguishable_iff_outside :
    outside.remoteAddr = "203.0.113.9:4711" ∧
      Indistinguishable netIPv4 outside
        { outside with realIP := "office", forwardedFor := "10.0.0.1" } :=
  ⟨rfl, ((indistinguishable_iff _ outside
    { outside with realIP := "office", forwardedFor := "10.0.0.1" } rfl rfl).mpr (by decide)).2⟩

/-- The allow-list of the office denies the login and serves the disguised one, and a limiter that
refuses the login serves the disguised one in a window of its own. -/
theorem disguised_served :
    disguised.remoteAddr = outside.remoteAddr ∧ disguised.path = outside.path ∧
      (newIPAllowlist netIPv4 ["10.0.0.0/8"]).middleware outside = .denied ∧
      (newIPAllowlist netIPv4 ["10.0.0.0/8"]).middleware disguised = .served ∧
      (oneRequest.middleware netIPv4 (exhausted "203.0.113.9") outside 0 0).1 =
        .limited 2 ⟨1, 0, 1⟩ ∧
      (oneRequest.middleware netIPv4 (exhausted "203.0.113.9") disguised 0 0).1 =
        .served ⟨1, 0, 1⟩ := by
  refine ⟨rfl, rfl, by decide, by decide, ?_, ?_⟩ <;> rw [oneRequest_exhausted] <;> decide

/-!
# The global rate limiter over time

`GlobalRateLimiter` of `internal/api/middleware/global_ratelimit.go` is the library's counter, one
for each client, with a background loop that deletes the windows that have ended.
-/

open FixedWindow StepMachine List Option Function

/-- `cleanup`, on a tick of the time `now`. -/
def cleanup (clients : Clients) (now : ℤ) : Clients := fun ip =>
  (clients ip).filter fun entry => ¬now > entry.resetAt

/-! ## The window of a client -/

def RateLimitWindow.toWindow (entry : RateLimitWindow) : Window := ⟨entry.count, entry.resetAt⟩

def Clients.window (clients : Clients) (ip : String) : Option Window :=
  (clients ip).map RateLimitWindow.toWindow

def GlobalRateLimiter.limit (rl : GlobalRateLimiter) : Limit := ⟨rl.rate, rl.window⟩

def GlobalRateLimiter.answer (rl : GlobalRateLimiter) (later : ℤ) : Verdict × Window → GlobalVerdict
  | (.opened, w) | (.counted, w) => .served (rl.headers (rl.rate - w.count) w.resetAt)
  | (.refused, w) => .limited (secondsUntil later w.resetAt + 1) (rl.headers 0 w.resetAt)

lemma window_cleanup (clients : Clients) (now : ℤ) (ip : String) :
    (cleanup clients now).window ip = running now (clients.window ip) := by
  show ((clients ip).filter fun entry => ¬now > entry.resetAt).map RateLimitWindow.toWindow =
    ((clients ip).map RateLimitWindow.toWindow).filter fun w => now ≤ w.resetAt
  cases clients ip with
  | none => rfl
  | some entry =>
    by_cases hle : now ≤ entry.resetAt <;>
      simp [filter_some, RateLimitWindow.toWindow, hle]

lemma running_window_none {clients : Clients} {ip : String} (h : clients ip = none) (now : ℤ) :
    running now (clients.window ip) = none := by
  rw [Clients.window, h]
  rfl

lemma running_window_some {clients : Clients} {ip : String} {entry : RateLimitWindow}
    (h : clients ip = some entry) (now : ℤ) :
    running now (clients.window ip) =
      if now > entry.resetAt then none else some entry.toWindow := by
  rw [Clients.window, h]
  by_cases hended : now > entry.resetAt
  · simp [running, filter_some, RateLimitWindow.toWindow, hended]
  · simp [running, filter_some, RateLimitWindow.toWindow, hended, Int.not_lt.mp hended]

variable {net : NetIP} {rl : GlobalRateLimiter} {clients : Clients} {r : Request} {now later : ℤ}

lemma middleware_of_not_covered (h : ¬rl.shouldRateLimit r.path) :
    rl.middleware net clients r now later = (.unlimited, clients) := by
  unfold GlobalRateLimiter.middleware
  rw [if_pos h, ite_self]

lemma window_update (clients : Clients) (ip : String) (entry : RateLimitWindow) (ip' : String) :
    Clients.window (update clients ip (some entry)) ip' =
      if ip' = ip then some entry.toWindow else clients.window ip' := by
  by_cases h : ip' = ip
  · rw [if_pos h, h]
    exact congrArg (Option.map RateLimitWindow.toWindow) (update_self ip _ clients)
  · rw [if_neg h]
    exact congrArg (Option.map RateLimitWindow.toWindow) (update_of_ne h _ clients)

/-- **A request is judged by the window of its client that is still running**, and changes the window
of no other client. -/
theorem middleware_eq (hrate : 1 ≤ rl.rate) (h : rl.shouldRateLimit r.path = true) :
    let judged := rl.limit.judge now (clients.window (safeClientIP net r false))
    (rl.middleware net clients r now later).1 = rl.answer later judged ∧
      ∀ ip, (rl.middleware net clients r now later).2.window ip =
        if ip = safeClientIP net r false then some judged.2 else clients.window ip := by
  have hpos : ¬rl.rate ≤ 0 := by omega
  unfold GlobalRateLimiter.middleware
  rw [if_neg hpos, if_neg (not_not.mpr h)]
  generalize safeClientIP net r false = ip
  dsimp only
  cases hentry : clients ip with
  | none =>
    rw [judge_none (running_window_none hentry now)]
    exact ⟨rfl, window_update clients ip _⟩
  | some entry =>
    have hrun := running_window_some hentry now
    dsimp only
    split
    case isTrue hended =>
      rw [judge_none (hrun.trans (if_pos hended))]
      exact ⟨rfl, window_update clients ip _⟩
    case isFalse hruns =>
      rw [judge_some (hrun.trans (if_neg hruns))]
      split
      case isTrue hfull =>
        rw [if_pos (show rl.limit.rate ≤ entry.toWindow.count from hfull)]
        refine ⟨rfl, fun ip' => ?_⟩
        split
        case isTrue hip => rw [hip]; exact congrArg (Option.map RateLimitWindow.toWindow) hentry
        case isFalse => rfl
      case isFalse hroom =>
        rw [if_neg (show ¬rl.limit.rate ≤ entry.toWindow.count from hroom)]
        exact ⟨rfl, window_update clients ip _⟩

/-! ## Requests and sweeps -/

inductive LimiterEvent
  | request (r : Request) (now later : ℤ)
  | sweep (now : ℤ)

def LimiterEvent.isRequest : LimiterEvent → Bool
  | .request _ _ _ => true
  | .sweep _ => false

/-- An answer of the limiter, and whether the client had no window that was still running. -/
structure LimiterRecord where
  key : String
  time : ℤ
  opens : Bool
  verdict : GlobalVerdict

/-- The limiter, the time of the last event, and the answers so far. -/
structure LimiterState where
  clients : Clients
  now : ℤ
  log : List LimiterRecord

def LimiterState.start (now : ℤ) : LimiterState := ⟨fun _ => none, now, []⟩

/-- A request or a sweep, not before the last one. -/
def limiterStep (net : NetIP) (rl : GlobalRateLimiter) (s : LimiterState) :
    LimiterEvent → Option LimiterState
  | .request r now later =>
    if s.now ≤ now then
      let key := safeClientIP net r false
      let opens := (s.clients key).all fun entry => now > entry.resetAt
      let answered := rl.middleware net s.clients r now later
      some ⟨answered.2, now, s.log ++ [⟨key, now, opens, answered.1⟩]⟩
    else none
  | .sweep now => if s.now ≤ now then some { s with clients := cleanup s.clients now, now } else none

/-- What the limiter decided; it passes over the requests that it does not cover. -/
def LimiterRecord.decision? (x : LimiterRecord) : Option Verdict :=
  match x.verdict with
  | .unlimited => none
  | .served _ => some (if x.opens then .opened else .counted)
  | .limited _ _ => some .refused

def keyLog (key : String) (log : List LimiterRecord) : List (ℤ × Verdict) :=
  log.filterMap fun x => if x.key = key then x.decision?.map (x.time, ·) else none

variable {s s' : LimiterState} {key : String}

/-- The window is the one of the counter after the requests at the times `ts`, as far as it is
running. -/
structure Tracked (rl : GlobalRateLimiter) (key : String) (ts : List ℤ) (s : LimiterState) : Prop where
  sorted : ts.Pairwise (· ≤ ·)
  le_now : ∀ t ∈ ts, t ≤ s.now
  log_eq : keyLog key s.log = rl.limit.serve none ts
  window_eq : ∀ t, s.now ≤ t →
    running t (s.clients.window key) = running t (rl.limit.after none ts)

lemma judge_congr {lim : Limit} {t : ℤ} {w w' : Option Window}
    (h : running t w = running t w') : lim.judge t w = lim.judge t w' := by
  rw [Limit.judge, h, Limit.judge]

lemma keyLog_snoc (key : String) (log : List LimiterRecord) (x : LimiterRecord) :
    keyLog key (log ++ [x]) =
      keyLog key log ++ (if x.key = key then x.decision?.map (x.time, ·) else none).toList := by
  rw [keyLog, filterMap_append]
  congr 1

lemma decision?_answer (clients : Clients) (ip : String) (now later : ℤ) :
    LimiterRecord.decision? ⟨ip, now, (clients ip).all fun entry => now > entry.resetAt,
        rl.answer later (rl.limit.judge now (clients.window ip))⟩ =
      some (rl.limit.judge now (clients.window ip)).1 := by
  cases hentry : clients ip with
  | none =>
    rw [judge_none (running_window_none hentry now)]
    rfl
  | some entry =>
    have hrun := running_window_some hentry now
    by_cases hended : now > entry.resetAt
    · rw [judge_none (hrun.trans (if_pos hended))]
      simp [LimiterRecord.decision?, GlobalRateLimiter.answer, hended]
    · rw [judge_some (hrun.trans (if_neg hended))]
      split <;> simp [LimiterRecord.decision?, GlobalRateLimiter.answer, hended]

lemma keyLog_request (hrate : 1 ≤ rl.rate) (log : List LimiterRecord) (clients : Clients)
    (r : Request) (now later : ℤ) (key : String) :
    let ip := safeClientIP net r false
    keyLog key (log ++ [⟨ip, now, (clients ip).all fun entry => now > entry.resetAt,
        (rl.middleware net clients r now later).1⟩]) =
      keyLog key log ++ if rl.shouldRateLimit r.path = true ∧ ip = key
        then [(now, (rl.limit.judge now (clients.window key)).1)] else [] := by
  intro ip
  rw [keyLog_snoc]
  congr 1
  by_cases hkey : ip = key
  case neg => rw [if_neg hkey, if_neg fun h => hkey h.2]; rfl
  rw [if_pos hkey]
  by_cases hcovered : rl.shouldRateLimit r.path = true
  · rw [if_pos ⟨hcovered, hkey⟩, (middleware_eq hrate hcovered).1, decision?_answer, hkey]
    rfl
  · rw [if_neg fun h => hcovered h.1, middleware_of_not_covered hcovered]
    rfl

lemma tracked_step (hrate : 1 ≤ rl.rate) {ts : List ℤ} {e : LimiterEvent}
    (h : Tracked rl key ts s) (hstep : limiterStep net rl s e = some s') :
    ∃ ts', Tracked rl key ts' s' := by
  cases e with
  | sweep now =>
    obtain ⟨hle, heq⟩ := ite_none_right_eq_some.mp hstep
    cases heq
    refine ⟨ts, h.sorted, fun t ht => (h.le_now t ht).trans hle, h.log_eq, fun t ht => ?_⟩
    rw [window_cleanup, running_running ht]
    exact h.window_eq t (hle.trans ht)
  | request r now later =>
    obtain ⟨hle, heq⟩ := ite_none_right_eq_some.mp hstep
    cases heq
    by_cases hcovered : rl.shouldRateLimit r.path = true ∧ safeClientIP net r false = key
    case neg =>
      refine ⟨ts, h.sorted, fun t ht => (h.le_now t ht).trans hle, ?_, fun t ht => ?_⟩
      · rw [keyLog_request hrate, if_neg hcovered, append_nil, h.log_eq]
      rw [← h.window_eq t (hle.trans ht)]
      congr 1
      by_cases hpath : rl.shouldRateLimit r.path = true
      · rw [(middleware_eq hrate hpath).2, if_neg fun hkey => hcovered ⟨hpath, hkey.symm⟩]
      · rw [middleware_of_not_covered hpath]
    case pos =>
      have hjudge : rl.limit.judge now (s.clients.window key) =
          rl.limit.judge now (rl.limit.after none ts) := judge_congr (h.window_eq now hle)
      refine ⟨ts ++ [now], ?_, ?_, ?_, fun t _ => ?_⟩
      · exact pairwise_append.mpr ⟨h.sorted, pairwise_singleton _ _, fun t ht t' ht' =>
          mem_singleton.mp ht' ▸ (h.le_now t ht).trans hle⟩
      · exact forall_mem_append.mpr ⟨fun t ht => (h.le_now t ht).trans hle,
          forall_mem_singleton.mpr le_rfl⟩
      · rw [keyLog_request hrate, if_pos hcovered, h.log_eq, serve_snoc, hjudge]
      · rw [after_snoc, ← hjudge, (middleware_eq hrate hcovered.1).2, if_pos hcovered.2.symm,
          hcovered.2]

/-- The two limiters gave the same answers, and their windows that are still running are the same. -/
structure Alike (s s' : LimiterState) : Prop where
  le_now : s'.now ≤ s.now
  log_eq : s'.log = s.log
  window_eq : ∀ key t, s.now ≤ t →
    running t (s'.clients.window key) = running t (s.clients.window key)

lemma opens_eq (clients : Clients) (ip : String) (now : ℤ) :
    ((clients ip).all fun entry => now > entry.resetAt) =
      (running now (clients.window ip)).isNone := by
  cases hentry : clients ip with
  | none => rw [running_window_none hentry]; rfl
  | some entry =>
    rw [running_window_some hentry]
    by_cases hended : now > entry.resetAt <;> simp [hended]

lemma alike_request (hrate : 1 ≤ rl.rate) {t : LimiterState}
    (h : Alike s s') (hstep : limiterStep net rl s (.request r now later) = some t) :
    ∃ t', limiterStep net rl s' (.request r now later) = some t' ∧ Alike t t' := by
  obtain ⟨hle, heq⟩ := ite_none_right_eq_some.mp hstep
  cases heq
  refine ⟨_, if_pos (h.le_now.trans hle), le_rfl, ?_, fun key t ht => ?_⟩
  · have hwindow := h.window_eq (safeClientIP net r false) now hle
    rw [h.log_eq, opens_eq, opens_eq, hwindow]
    by_cases hcovered : rl.shouldRateLimit r.path = true
    · rw [(middleware_eq hrate hcovered).1, (middleware_eq hrate hcovered).1, judge_congr hwindow]
    · rw [middleware_of_not_covered hcovered, middleware_of_not_covered hcovered]
  by_cases hcovered : rl.shouldRateLimit r.path = true
  · have hwindow := h.window_eq (safeClientIP net r false) now hle
    rw [(middleware_eq hrate hcovered).2, (middleware_eq hrate hcovered).2, judge_congr hwindow]
    split
    case isTrue => rfl
    case isFalse => exact h.window_eq key t (hle.trans ht)
  · dsimp only
    rw [middleware_of_not_covered hcovered, middleware_of_not_covered hcovered]
    exact h.window_eq key t (hle.trans ht)

/-- **Without the sweeps the answers are the same.** -/
theorem sweeps_irrelevant (hrate : 1 ≤ rl.rate) {s0 : LimiterState} {es : List LimiterEvent}
    (hrun : run (limiterStep net rl) s0 es = some s) :
    ∃ s', run (limiterStep net rl) s0 (es.filter LimiterEvent.isRequest) = some s' ∧ Alike s s' := by
  refine history_of_run (I := fun es s => ∃ s', run (limiterStep net rl) s0
    (es.filter LimiterEvent.isRequest) = some s' ∧ Alike s s') ?_ ?_ hrun
  · exact ⟨s0, rfl, le_rfl, rfl, fun _ _ _ => rfl⟩
  rintro es s e t ⟨s', hrun', halike⟩ hstep
  rw [filter_append]
  cases e with
  | request r now later =>
    obtain ⟨t', hstep', halike'⟩ := alike_request hrate halike hstep
    exact ⟨t', run_snoc.mpr ⟨s', hrun', hstep'⟩, halike'⟩
  | sweep now =>
    obtain ⟨hle, heq⟩ := ite_none_right_eq_some.mp hstep
    cases heq
    refine ⟨s', by simpa [LimiterEvent.isRequest] using hrun', halike.le_now.trans hle,
      halike.log_eq, fun key t ht => ?_⟩
    rw [window_cleanup, running_running ht]
    exact halike.window_eq key t (hle.trans ht)

/-- **The bounds of the limiter.** At times that do not decrease, a client is admitted at most
`rate` times in its window and at most `2 * rate` times in any interval of that length, it is
refused only when its window is full, and the answers are those of the limiter without sweeps. -/
theorem globalLimiter_bounds (net : NetIP) (rl : GlobalRateLimiter) (hrate : 1 ≤ rl.rate) (t0 : ℤ)
    (es : List LimiterEvent) (s : LimiterState)
    (hrun : run (limiterStep net rl) (.start t0) es = some s) : (∀ key,
      (∀ log, log <+: keyLog key s.log → inWindow log ≤ rl.rate) ∧
      (∀ a, ((keyLog key s.log).countP (within rl.limit a) : ℤ) ≤ 2 * rl.rate) ∧
      ∀ log t, log ++ [(t, .refused)] <+: keyLog key s.log → inWindow log = rl.rate) ∧
    ∃ s', run (limiterStep net rl) (.start t0) (es.filter LimiterEvent.isRequest) = some s' ∧
      s'.log = s.log := by
  constructor
  · intro key
    obtain ⟨ts, h⟩ : ∃ ts, Tracked rl key ts s := by
      refine invariant_of_run (I := fun s => ∃ ts, Tracked rl key ts s)
        (fun _ _ _ ⟨_, h⟩ hstep => tracked_step hrate h hstep) ?_ hrun
      exact ⟨[], .nil, forall_mem_nil _, rfl, fun _ _ => rfl⟩
    rw [h.log_eq]
    exact ⟨fun _ => inWindow_le hrate, fun a => countP_interval_le hrate a h.sorted,
      fun _ _ => inWindow_of_refused hrate⟩
  · obtain ⟨s', hrun', halike⟩ := sweeps_irrelevant hrate hrun
    exact ⟨s', hrun', halike.log_eq⟩

def secondApart : List LimiterEvent :=
  let r : Request := ⟨"203.0.113.7:40000", "/api/v1/apps", "", ""⟩
  [.request r 0 0, .request r 500000000 500000000, .sweep 2000000000,
    .request r 2000000000 2000000000]

theorem globalLimiter_bounds_secondApart :
    ∃ s, run (limiterStep netIPv4 oneRequest) (.start 0) secondApart = some s ∧
      (keyLog "203.0.113.7" s.log).map Prod.snd = [.opened, .refused, .opened] ∧
      ∀ a, ((keyLog "203.0.113.7" s.log).countP (within oneRequest.limit a) : ℤ) ≤ 2 := by
  refine exists_of_run_and (by decide +kernel) fun s hrun _ => ?_
  have hbounds := globalLimiter_bounds _ _ (by decide) 0 _ s hrun
  exact (hbounds.1 "203.0.113.7").2.1

end DeployMonster.Middleware
