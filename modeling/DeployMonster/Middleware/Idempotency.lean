import DeployMonster.Core.Clock
import DeployMonster.DB.KV
import DeployMonster.Library.Program
import DeployMonster.Library.SHA256

/-!
# Idempotency keys

`IdempotencyMiddleware` of `internal/api/middleware/idempotency.go`. The mark of a request in flight
is taken back at the end, also when the handler panics.
-/

namespace DeployMonster.Middleware

open Clock DB Program StepMachine List Option Pool Bool KVStore

/-- `idempotencyEntry`; the only header is `Content-Type`. -/
structure IdempotencyEntry where
  statusCode : ℕ
  contentType : String
  body : List UInt8
  deriving DecidableEq

structure IdempotencyRecorder where
  status : ℕ := 200
  body : List UInt8 := []
  wroteHeader : Bool := false

def IdempotencyRecorder.writeHeader (r : IdempotencyRecorder) (code : ℕ) : IdempotencyRecorder :=
  if ¬r.wroteHeader then { r with status := code, wroteHeader := true } else r

def IdempotencyRecorder.write (r : IdempotencyRecorder) (b : List UInt8) : IdempotencyRecorder :=
  { r with wroteHeader := true, body := r.body ++ b }

inductive HandlerWrite
  | header (code : ℕ)
  | body (b : List UInt8)
  deriving DecidableEq

structure HandlerRun where
  writes : List HandlerWrite := []
  contentType : String := ""
  panics : Bool := false
  deriving DecidableEq

def record (writes : List HandlerWrite) : IdempotencyRecorder :=
  writes.foldl (fun r write =>
    match write with
    | .header code => r.writeHeader code
    | .body b => r.write b) {}

def HandlerRun.succeeds (run : HandlerRun) : Bool :=
  !run.panics && (200 ≤ (record run.writes).status ∧ (record run.writes).status < 300 : Bool)

def HandlerRun.entry (run : HandlerRun) : IdempotencyEntry :=
  ⟨(record run.writes).status, run.contentType, (record run.writes).body⟩

/-- A request, with the headers that are read, empty when they are absent. -/
structure IdemRequest where
  (method path : String)
  idempotencyKey : String := ""
  authorization : String := ""
  apiKey : String := ""
  cookie : String := ""
  /-- Nothing when it cannot be read. -/
  body : Option (List UInt8) := some []

def idempotencyMethod (method : String) : Bool :=
  method = "POST" ∨ method = "PUT" ∨ method = "PATCH"

def skipIdempotencyPath (path : String) : Bool :=
  "/api/v1/auth/".toList.isPrefixOf path.toList

def idempotencyAuthScope (r : IdemRequest) : String :=
  if r.authorization ≠ "" then "authorization:" ++ r.authorization
  else if r.apiKey ≠ "" then "api-key:" ++ r.apiKey
  else if r.cookie ≠ "" then "cookie:" ++ r.cookie
  else "anonymous"

def scopedIdempotencyKey (r : IdemRequest) (body : List UInt8) : String :=
  ":".intercalate [r.method, r.path, r.idempotencyKey,
    "auth=" ++ SHA256.hex (SHA256.sum (SHA256.utf8 (idempotencyAuthScope r))),
    "body=" ++ SHA256.hex (SHA256.sum body)]

lemma toList_scopedIdempotencyKey (r : IdemRequest) (body : List UInt8) :
    (scopedIdempotencyKey r body).toList =
      r.method.toList ++ ':' :: (r.path.toList ++ ':' :: r.idempotencyKey.toList) ++
        (":auth=".toList ++ (SHA256.hex (SHA256.sum (SHA256.utf8 (idempotencyAuthScope r)))).toList ++
          (":body=".toList ++ (SHA256.hex (SHA256.sum body)).toList)) := by
  rw [show scopedIdempotencyKey r body = r.method ++ ":" ++ r.path ++ ":" ++ r.idempotencyKey ++
    ":" ++ _ ++ ":" ++ _ from rfl]
  simp

lemma not_mem_of_idempotencyMethod {method : String} (h : idempotencyMethod method = true) :
    ':' ∉ method.toList := by
  rcases of_decide_eq_true h with rfl | rfl | rfl <;> decide

/-- The hashes are cut off from the end by their lengths, and the method at the first colon. -/
lemma scopedIdempotencyKey_eq_iff {r1 r2 : IdemRequest} {body1 body2 : List UInt8}
    (h1 : idempotencyMethod r1.method = true) (h2 : idempotencyMethod r2.method = true) :
    scopedIdempotencyKey r1 body1 = scopedIdempotencyKey r2 body2 ↔
      r1.method = r2.method ∧
        r1.path.toList ++ ':' :: r1.idempotencyKey.toList =
          r2.path.toList ++ ':' :: r2.idempotencyKey.toList ∧
        SHA256.sum (SHA256.utf8 (idempotencyAuthScope r1)) =
          SHA256.sum (SHA256.utf8 (idempotencyAuthScope r2)) ∧
        SHA256.sum body1 = SHA256.sum body2 := by
  rw [← String.toList_inj, toList_scopedIdempotencyKey, toList_scopedIdempotencyKey]
  constructor
  · intro htexts
    have hlen (bytes : List UInt8) : (SHA256.hex (SHA256.sum bytes)).toList.length = 64 := by
      rw [String.length_toList, SHA256.length_hex, SHA256.length_sum]
    obtain ⟨htexts, hhashes⟩ := append_inj' htexts (by simp [hlen])
    obtain ⟨hauth, hcontent⟩ := append_inj' hhashes (by simp [hlen])
    have hback := congrArg reverse htexts
    rw [reverse_append, reverse_append, reverse_cons, reverse_cons, append_assoc, append_assoc] at hback
    obtain ⟨hrest, hmethod⟩ := append_cons_inj (mt mem_reverse.mp (not_mem_of_idempotencyMethod h1))
      (mt mem_reverse.mp (not_mem_of_idempotencyMethod h2)) hback
    exact ⟨String.toList_inj.mp (reverse_injective hmethod), reverse_injective hrest,
      SHA256.hex_injective (String.toList_inj.mp (append_cancel_left hauth)),
      SHA256.hex_injective (String.toList_inj.mp (append_cancel_left hcontent))⟩
  · rintro ⟨hmethod, hrest, hauth, hcontent⟩
    rw [hmethod, hauth, hcontent, hrest]

/-- Where a path without colons and a key are cut apart: at the only colon that is not the last. -/
lemma eq_of_append_colon {path path' key key' : List Char} (hpath : ':' ∉ path)
    (hkey : ':' ∉ key.dropLast) (hkey' : key' ≠ [])
    (h : path ++ ':' :: key = path' ++ ':' :: key') : path = path' ∧ key = key' := by
  rcases append_eq_append_iff.mp h with ⟨between, rfl, hrest⟩ | ⟨between, rfl, hrest⟩
  · cases between with
    | nil => exact ⟨(append_nil path).symm, (cons.inj hrest).2⟩
    | cons c between =>
      have hsplit : key = between ++ ':' :: key' := (cons.inj hrest).2
      refine absurd ?_ hkey
      rw [hsplit, dropLast_append_of_ne_nil (cons_ne_nil _ _), dropLast_cons_of_ne_nil hkey']
      simp
  · cases between with
    | nil => exact ⟨append_nil path', (cons.inj hrest).2.symm⟩
    | cons c between =>
      obtain ⟨rfl, -⟩ := cons.inj hrest
      exact absurd (mem_append_right path' mem_cons_self) hpath

/-- A text is cut in one way into a path and a key exactly when the path has no colon, and the key none
but at its end. -/
lemma cut_unique_iff {path key : List Char} (hslash : path.head? = some '/') (hkey : key ≠ []) :
    (∀ path' key', path'.head? = some '/' → key' ≠ [] → path ++ ':' :: key = path' ++ ':' :: key' →
      path = path') ↔ ':' ∉ path ∧ ':' ∉ key.dropLast := by
  constructor
  · intro h
    refine ⟨fun hcolon => ?_, fun hcolon => ?_⟩
    · obtain ⟨front, rest, rfl⟩ := append_of_mem hcolon
      refine absurd (h front (rest ++ ':' :: key) ?_ (by simp) (by simp)) (by simp)
      cases front with
      | nil => simp at hslash
      | cons c front => exact hslash
    · obtain ⟨between, rest, hsplit⟩ := append_of_mem hcolon
      obtain ⟨last, rfl⟩ : ∃ last, key = between ++ ':' :: rest ++ [last] :=
        ⟨_, by rw [← hsplit, dropLast_append_getLast hkey]⟩
      refine absurd (h (path ++ ':' :: between) (rest ++ [last]) ?_ (by simp) (by simp)) (by simp)
      rw [head?_append, hslash]
      rfl
  · intro h path' key' _ hkey' htext
    exact (eq_of_append_colon h.1 h.2 hkey' htext).1

/-- **A request shares its scoped key with no other** exactly when its path has no colon, and its
idempotency key none but at its end. Requests agree in the credentials and in the body where the
hash has no collision on them. -/
theorem scopedIdempotencyKey_inj_iff (r1 : IdemRequest) (body1 : List UInt8)
    (hmethod : idempotencyMethod r1.method = true) (hslash : r1.path.toList.head? = some '/')
    (hpresent : r1.idempotencyKey ≠ "") :
    (∀ (r2 : IdemRequest) (body2 : List UInt8), idempotencyMethod r2.method = true →
      r2.path.toList.head? = some '/' → r2.idempotencyKey ≠ "" →
      (SHA256.sum (SHA256.utf8 (idempotencyAuthScope r1)) =
        SHA256.sum (SHA256.utf8 (idempotencyAuthScope r2)) →
          idempotencyAuthScope r1 = idempotencyAuthScope r2) →
      (SHA256.sum body1 = SHA256.sum body2 → body1 = body2) →
      scopedIdempotencyKey r1 body1 = scopedIdempotencyKey r2 body2 →
        r1.method = r2.method ∧ r1.path = r2.path ∧ r1.idempotencyKey = r2.idempotencyKey ∧
          idempotencyAuthScope r1 = idempotencyAuthScope r2 ∧ body1 = body2) ↔
      ':' ∉ r1.path.toList ∧ ':' ∉ r1.idempotencyKey.toList.dropLast := by
  constructor
  · intro h
    refine (cut_unique_iff hslash (mt String.toList_eq_nil_iff.mp hpresent)).mp ?_
    intro path key hpath hkey htext
    let r2 := { r1 with path := String.ofList path, idempotencyKey := String.ofList key }
    have hmethod2 : idempotencyMethod r2.method = true := hmethod
    have heq : scopedIdempotencyKey r1 body1 = scopedIdempotencyKey r2 body1 :=
      (scopedIdempotencyKey_eq_iff hmethod hmethod2).mpr ⟨rfl, by simpa [r2] using htext, rfl, rfl⟩
    have hr2 := h r2 body1 hmethod2 (by simpa [r2] using hpath)
      (by simpa [r2, ← String.toList_inj] using hkey) (fun _ => rfl) (fun _ => rfl) heq
    rw [hr2.2.1, String.toList_ofList]
  · rintro ⟨hpath, hkey⟩ r2 body2 hmethod2 hslash2 hpresent2 hscope hbody heq
    obtain ⟨hm, htext, hauth, hcontent⟩ := (scopedIdempotencyKey_eq_iff hmethod hmethod2).mp heq
    have hcut := eq_of_append_colon hpath hkey (mt String.toList_eq_nil_iff.mp hpresent2) htext
    exact ⟨hm, String.toList_inj.mp hcut.1, String.toList_inj.mp hcut.2, hscope hauth,
      hbody hcontent⟩

/-- The path and the key are cut apart at the first colon, though the key ends with another. -/
theorem scopedIdempotencyKey_inj_iff_trailing :
    scopedIdempotencyKey { method := "POST", path := "/a", idempotencyKey := "k:" } [] ≠
      scopedIdempotencyKey { method := "POST", path := "/a:k", idempotencyKey := ":" } [] := by
  intro h
  have hinj := (scopedIdempotencyKey_inj_iff { method := "POST", path := "/a", idempotencyKey := "k:" }
    [] (by decide) (by decide) (by decide)).mpr (by decide)
  exact absurd (hinj { method := "POST", path := "/a:k", idempotencyKey := ":" } [] (by decide)
    (by decide) (by decide) (fun _ => rfl) (fun _ => rfl) h).2.1 (by decide)

/-- A colon in the path of one request, and in the key of the other. -/
theorem scopedIdempotencyKey_collides :
    scopedIdempotencyKey { method := "POST", path := "/a:b", idempotencyKey := "c" } [] =
      scopedIdempotencyKey { method := "POST", path := "/a", idempotencyKey := "b:c" } [] := by
  decide +kernel

/-! ## The middleware -/

def idempotencyBucket : String := "idempotency"

def idempotencyTTLSecs : ℤ := 86400

inductive IdemCall
  /-- The wrapped handler, for a request with a scoped key or without one. -/
  | serve (scope : Option String)
  /-- Under the mutex: the mark is set, unless it is there. -/
  | enter (key : String)
  /-- Under the mutex: the mark is taken back. -/
  | leave (key : String)
  | kvGet (key : String)
  | kvSet (key : String) (entry : IdempotencyEntry)

@[reducible] def IdemAnswer : IdemCall → Type
  | .serve _ => HandlerRun
  | .enter _ => Bool
  | .leave _ => Unit
  | .kvGet _ => Except KVError IdempotencyEntry
  | .kvSet _ _ => Except KVError Unit

/-- The server: the time, the store, the map `inFlight`, and the runs of the handler so far. -/
structure IdemWorld where
  now : ℤ
  kv : KVStore IdempotencyEntry
  inFlight : List String
  runs : List (String × HandlerRun)

structure IdemChoice where
  elapsed : ℕ := 0
  kvFails : Bool := false
  run : HandlerRun := {}

def IdemWorld.wait (w : IdemWorld) (elapsed : ℕ) : IdemWorld := { w with now := w.now + elapsed }

def idemPerform : (c : IdemCall) → IdemWorld → IdemChoice → Option (IdemAnswer c × IdemWorld)
  | .serve scope, w, o => some (o.run, { w with runs := w.runs ++ scope.toList.map (·, o.run) })
  | .enter key, w, _ =>
    if key ∈ w.inFlight then some (false, w)
    else some (true, { w with inFlight := key :: w.inFlight })
  | .leave key, w, _ => some ((), { w with inFlight := w.inFlight.filter (· ≠ key) })
  | .kvGet key, w, o =>
    some (if o.kvFails then .error .failed else w.kv.get (unix w.now) idempotencyBucket key, w)
  | .kvSet key entry, w, o =>
    if o.kvFails then some (.error .failed, w)
    else
      some (.ok (),
        { w with kv := w.kv.set (unix w.now) idempotencyBucket key entry idempotencyTTLSecs })

def idemExec (c : IdemCall) (w : IdemWorld) (o : IdemChoice) : Option (IdemAnswer c × IdemWorld) :=
  idemPerform c (w.wait o.elapsed) o

abbrev IdemM := Prog IdemCall IdemAnswer

def idemCall (c : IdemCall) : IdemM (IdemAnswer c) := Prog.perform c

inductive IdemReply
  | passed (run : HandlerRun)
  /-- 400, `failed to read request body`. -/
  | unreadable
  /-- 409, `request with this idempotency key is already being processed`. -/
  | conflict
  | replayed (entry : IdempotencyEntry)
  | served (run : HandlerRun)
  | panicked
  deriving DecidableEq

def finish (key : String) (reply : IdemReply) : IdemM IdemReply := do
  idemCall (.leave key)
  return reply

/-- A request whose response is not there yet. -/
def runHandler (key : String) : IdemM IdemReply := do
  let run ← idemCall (.serve (some key))
  if run.panics then finish key .panicked
  else if 200 ≤ (record run.writes).status ∧ (record run.writes).status < 300 then
    let _ ← idemCall (.kvSet key run.entry)
    finish key (.served run)
  else finish key (.served run)

def scopedRequest (key : String) : IdemM IdemReply := do
  if ← idemCall (.enter key) then
    match ← idemCall (.kvGet key) with
    | .ok cached => finish key (.replayed cached)
    | .error _ => runHandler key
  else return .conflict

def passRequest : IdemM IdemReply := do
  let run ← idemCall (.serve none)
  return .passed run

/-- `IdempotencyMiddleware`; `kv` says whether there is a store. -/
def idempotency (kv : Bool) (r : IdemRequest) : IdemM IdemReply :=
  if ¬idempotencyMethod r.method ∨ skipIdempotencyPath r.path then passRequest
  else if r.idempotencyKey = "" ∨ ¬kv then passRequest
  else
    match r.body with
    | none => return .unreadable
    | some body => scopedRequest (scopedIdempotencyKey r body)

def scope? (kv : Bool) (r : IdemRequest) : Option String :=
  if ¬idempotencyMethod r.method ∨ skipIdempotencyPath r.path then none
  else if r.idempotencyKey = "" ∨ ¬kv then none
  else r.body.map (scopedIdempotencyKey r)

lemma idempotency_of_scope {kv : Bool} {r : IdemRequest} {key : String}
    (h : scope? kv r = some key) : idempotency kv r = scopedRequest key := by
  obtain ⟨hcovered, h⟩ := ite_none_left_eq_some.mp h
  obtain ⟨hkey, h⟩ := ite_none_left_eq_some.mp h
  obtain ⟨body, hbody, rfl⟩ := map_eq_some_iff.mp h
  rw [idempotency, if_neg hcovered, if_neg hkey, hbody]

inductive IdemStage
  | before
  | looking (key : String)
  | serving (key : String)
  | recording (key : String) (run : HandlerRun)
  | leaving (key : String) (reply : IdemReply)
  | done (reply : IdemReply)

inductive IdemMove : IdemStage → (c : IdemCall) → IdemAnswer c → IdemStage → Prop
  | pass (run : HandlerRun) : IdemMove .before (.serve none) run (.done (.passed run))
  | refuse (key : String) : IdemMove .before (.enter key) false (.done .conflict)
  | enter (key : String) : IdemMove .before (.enter key) true (.looking key)
  | replay (key : String) (cached : IdempotencyEntry) :
      IdemMove (.looking key) (.kvGet key) (.ok cached) (.leaving key (.replayed cached))
  | miss (key : String) (e : KVError) : IdemMove (.looking key) (.kvGet key) (.error e) (.serving key)
  | succeed (key : String) {run : HandlerRun} (h : run.succeeds = true) :
      IdemMove (.serving key) (.serve (some key)) run (.recording key run)
  | fail (key : String) {run : HandlerRun} (reply : IdemReply) (h : run.succeeds = false) :
      IdemMove (.serving key) (.serve (some key)) run (.leaving key reply)
  | record (key : String) (run : HandlerRun) (r : Except KVError Unit) (reply : IdemReply) :
      IdemMove (.recording key run) (.kvSet key run.entry) r (.leaving key reply)
  | leave (key : String) (reply : IdemReply) (r : Unit) :
      IdemMove (.leaving key reply) (.leave key) r (.done reply)

/-- What a request has returned in a stage. -/
def IdemDone (g : IdemStage) (reply : IdemReply) : Prop :=
  g = .done reply ∨ g = .before ∧ reply = .unreadable

lemma follows_finish (key : String) (reply : IdemReply) :
    Follows IdemMove IdemDone (finish key reply) (.leaving key reply) :=
  fun r => ⟨_, .leave key reply r, .inl rfl⟩

lemma succeeds_iff (run : HandlerRun) : run.succeeds = true ↔
    ¬run.panics = true ∧ 200 ≤ (record run.writes).status ∧ (record run.writes).status < 300 := by
  simp [HandlerRun.succeeds]

lemma follows_runHandler (key : String) :
    Follows IdemMove IdemDone (runHandler key) (.serving key) := by
  intro run
  dsimp only [Prog.bind]
  split
  case isTrue hpanics =>
    have hfails : run.succeeds = false := by simp [HandlerRun.succeeds, hpanics]
    exact ⟨_, .fail key .panicked hfails, follows_finish key .panicked⟩
  case isFalse hpanics =>
    split
    case isTrue hstatus =>
      have hsucceeds : run.succeeds = true := (succeeds_iff run).mpr ⟨hpanics, hstatus⟩
      exact ⟨_, .succeed key hsucceeds, fun r =>
        ⟨_, .record key run r (.served run), follows_finish key (.served run)⟩⟩
    case isFalse hstatus =>
      have hfails : run.succeeds = false :=
        eq_false_iff.mpr fun h => hstatus ((succeeds_iff run).mp h).2
      exact ⟨_, .fail key (.served run) hfails, follows_finish key (.served run)⟩

lemma follows_scopedRequest (key : String) :
    Follows IdemMove IdemDone (scopedRequest key) .before := by
  intro entered
  cases entered with
  | false => exact ⟨_, .refuse key, .inl rfl⟩
  | true =>
    refine ⟨_, .enter key, ?_⟩
    rintro (e | cached)
    · exact ⟨_, .miss key e, follows_runHandler key⟩
    · exact ⟨_, .replay key cached, follows_finish key (.replayed cached)⟩

/-- **A request goes through the stages.** -/
theorem follows_idempotency (kv : Bool) (r : IdemRequest) :
    Follows IdemMove IdemDone (idempotency kv r) .before := by
  have hpass : Follows IdemMove IdemDone passRequest .before :=
    fun run => ⟨_, .pass run, .inl rfl⟩
  unfold idempotency
  split
  · exact hpass
  split
  · exact hpass
  split
  · exact .inr ⟨rfl, rfl⟩
  · exact follows_scopedRequest _

/-! ## One key -/

namespace IdemStage

variable (key : String)

def inside : IdemStage → ℕ
  | looking k | serving k | recording k _ | leaving k _ => if k = key then 1 else 0
  | before | done _ => 0

def busy : IdemStage → ℕ
  | serving k | recording k _ => if k = key then 1 else 0
  | _ => 0

def records : IdemStage → ℕ
  | recording k _ => if k = key then 1 else 0
  | _ => 0

end IdemStage

def runsOf (key : String) (runs : List (String × HandlerRun)) : List HandlerRun :=
  (runs.filter (·.1 = key)).map Prod.snd

def successes (key : String) (runs : List (String × HandlerRun)) : List HandlerRun :=
  (runsOf key runs).filter HandlerRun.succeeds

lemma runsOf_snoc (key key' : String) (runs : List (String × HandlerRun)) (run : HandlerRun) :
    runsOf key (runs ++ [(key', run)]) = runsOf key runs ++ if key' = key then [run] else [] := by
  rw [runsOf, filter_append, map_append, filter_singleton, runsOf]
  by_cases h : key' = key <;> simp [h]

lemma successes_snoc (key key' : String) (runs : List (String × HandlerRun)) (run : HandlerRun) :
    successes key (runs ++ [(key', run)]) =
      successes key runs ++ if key' = key ∧ run.succeeds = true then [run] else [] := by
  rw [successes, runsOf_snoc, filter_append, successes]
  by_cases h : key' = key <;> by_cases hrun : run.succeeds = true <;> simp [h, hrun]

/-- What is kept of a key: the requests that have its mark, the runs of its handler that succeeded,
and the response that is recorded. -/
structure KeyInv (key : String) (w : IdemWorld) (stages : List IdemStage) : Prop where
  /-- One request has the mark, when it is set. -/
  single : total (IdemStage.inside key) stages = if key ∈ w.inFlight then 1 else 0
  /-- A run that succeeded is recorded, or is about to be. -/
  counted : (successes key w.runs).length =
    (if (w.kv idempotencyBucket key).isSome then 1 else 0) +
      total (IdemStage.records key) stages
  recording : ∀ run, .recording key run ∈ stages → run ∈ successes key w.runs
  /-- Once a response is recorded, no handler runs. -/
  recorded : ∀ entry, w.kv idempotencyBucket key = some entry →
    total (IdemStage.busy key) stages = 0 ∧ ∃ run ∈ successes key w.runs, entry.data = run.entry

def WithinLifetime (key : String) (s : IdemWorld × List (IdemM IdemReply)) (a : ℕ × IdemChoice) :
    Prop :=
  (s.1.kv idempotencyBucket key).all fun entry => unix (s.1.now + a.2.elapsed) < entry.expiresAt
  deriving Decidable

def reliableExec : (c : IdemCall) → IdemWorld → IdemChoice → Option (IdemAnswer c × IdemWorld) :=
  restrict (fun o => !o.kvFails) idemExec

variable {entry : KVEntry IdempotencyEntry}
  {key : String} {w w' : IdemWorld} {o : IdemChoice} {stages : List IdemStage} {i : ℕ}
  {g g' : IdemStage} {c : IdemCall} {r : IdemAnswer c}

lemma perform_of_reliable (h : reliableExec c w o = some (r, w')) :
    o.kvFails = false ∧ idemPerform c (w.wait o.elapsed) o = some (r, w') := by
  obtain ⟨hok, hexec⟩ := restrict_eq_some h
  exact ⟨by simpa using hok, hexec⟩

variable (h : KeyInv key w stages)
include h

lemma KeyInv.move (hg : stages[i]? = some g)
    (hflight : (if key ∈ w'.inFlight then 1 else 0) + g.inside key =
      (if key ∈ w.inFlight then 1 else 0) + g'.inside key)
    (hcount : (successes key w'.runs).length + (if (w.kv idempotencyBucket key).isSome then 1 else 0) +
      g.records key = (successes key w.runs).length +
        (if (w'.kv idempotencyBucket key).isSome then 1 else 0) + g'.records key)
    (hruns : ∀ run ∈ successes key w.runs, run ∈ successes key w'.runs)
    (hrecording : ∀ run, g' = .recording key run → run ∈ successes key w'.runs)
    (hrecorded : ∀ entry, w'.kv idempotencyBucket key = some entry →
      (w.kv idempotencyBucket key = some entry ∧ g'.busy key ≤ g.busy key) ∨
        (total (IdemStage.busy key) stages + g'.busy key = g.busy key ∧
          ∃ run ∈ successes key w'.runs, entry.data = run.entry)) :
    KeyInv key w' (stages.set i g') := by
  have hinside := sum_set (IdemStage.inside key) hg g'
  have hbusy := sum_set (IdemStage.busy key) hg g'
  have hrecords := sum_set (IdemStage.records key) hg g'
  refine ⟨?_, ?_, ?_, ?_⟩
  · have hsingle := h.single
    omega
  · have hcounted := h.counted
    omega
  · intro run hrun
    rcases mem_or_eq_of_mem_set hrun with hrun | heq
    · exact hruns run (h.recording run hrun)
    · exact hrecording run heq.symm
  · intro entry hentry
    rcases hrecorded entry hentry with ⟨hsame, hle⟩ | ⟨hnone, hdata⟩
    · obtain ⟨hnone, run, hrun, hdata⟩ := h.recorded entry hsame
      exact ⟨by omega, run, hruns run hrun, hdata⟩
    · exact ⟨by omega, hdata⟩

lemma KeyInv.keep (hg : stages[i]? = some g)
    (hkv : w'.kv idempotencyBucket key = w.kv idempotencyBucket key)
    (hflight : key ∈ w'.inFlight ↔ key ∈ w.inFlight)
    (hruns : successes key w'.runs = successes key w.runs)
    (hinside : g'.inside key = g.inside key) (hbusy : g'.busy key ≤ g.busy key)
    (hrecords : g'.records key = 0) (hrecords' : g.records key = 0) :
    KeyInv key w' (stages.set i g') := by
  refine h.move hg ?_ ?_ ?_ ?_ ?_
  · simp only [hflight, hinside]
  · rw [hkv, hruns, hrecords, hrecords']
  · exact fun run hrun => hruns ▸ hrun
  · rintro run rfl
    simp [IdemStage.records] at hrecords
  · exact fun entry hentry => .inl ⟨hkv ▸ hentry, hbusy⟩

omit h in
lemma busy_le_inside (key : String) (g : IdemStage) : g.busy key ≤ g.inside key := by
  cases g with
  | serving | recording => exact le_rfl
  | _ => exact Nat.zero_le _

omit h in
lemma records_le_busy (key : String) (g : IdemStage) : g.records key ≤ g.busy key := by
  cases g with
  | recording => exact le_rfl
  | _ => exact Nat.zero_le _

lemma KeyInv.successes_le_one : (successes key w.runs).length ≤ 1 := by
  have hcounted := h.counted
  have hsingle := h.single
  have hrecords := total_mono (records_le_busy key) stages
  have hbusy := total_mono (busy_le_inside key) stages
  cases hentry : w.kv idempotencyBucket key with
  | none =>
    rw [hentry, isSome_none, if_neg Bool.false_ne_true] at hcounted
    split at hsingle <;> omega
  | some entry =>
    have hzero := (h.recorded entry hentry).1
    rw [hentry, isSome_some, if_pos rfl] at hcounted
    omega

/-- **A step of one request.** -/
theorem keyInv_step
    (hlive : (w.kv idempotencyBucket key).all fun entry => unix (w.now + o.elapsed) < entry.expiresAt)
    (hg : stages[i]? = some g) (hexec : reliableExec c w o = some (r, w')) (hmove : IdemMove g c r g') :
    KeyInv key w' (stages.set i g') := by
  obtain ⟨hok, hperform⟩ := perform_of_reliable hexec
  cases hmove with
  | pass run =>
    cases hperform
    exact h.keep hg rfl Iff.rfl (by simp [IdemWorld.wait]) rfl le_rfl rfl rfl
  | refuse key' =>
    have hw : w' = w.wait o.elapsed := by
      simp only [idemPerform] at hperform
      split at hperform
      · exact (answer_inj hperform).2.symm
      · cases hperform
    subst hw
    exact h.keep hg rfl Iff.rfl rfl rfl le_rfl rfl rfl
  | enter key' =>
    obtain ⟨hfree, rfl⟩ : key' ∉ w.inFlight ∧
        { w.wait o.elapsed with inFlight := key' :: w.inFlight } = w' := by
      simp only [idemPerform] at hperform
      split at hperform
      case isTrue => cases hperform
      case isFalse hfree => exact ⟨hfree, (answer_inj hperform).2⟩
    refine h.move hg ?_ rfl (fun _ => id) nofun fun entry hentry => .inl ⟨hentry, le_rfl⟩
    by_cases hkey : key' = key
    · subst hkey
      simp [IdemStage.inside, hfree]
    · simp [IdemStage.inside, hkey, Ne.symm hkey]
  | replay key' cached =>
    obtain ⟨-, rfl⟩ := answer_inj hperform
    exact h.keep hg rfl Iff.rfl rfl rfl le_rfl rfl rfl
  | miss key' e =>
    obtain ⟨hanswer, rfl⟩ := answer_inj hperform
    rw [hok, if_neg Bool.false_ne_true] at hanswer
    refine h.move hg rfl rfl (fun _ => id) nofun fun entry hentry => .inl ⟨hentry, ?_⟩
    by_cases hkey : key' = key
    · subst hkey
      have hentry : w.kv idempotencyBucket key' = some entry := hentry
      rw [hentry] at hlive
      have hfound := get_of_lt hentry (of_decide_eq_true hlive)
      cases hfound.symm.trans hanswer
    · simp [IdemStage.busy, hkey]
  | succeed key' hrun =>
    cases hperform
    have hsuccesses := successes_snoc key key' w.runs o.run
    refine h.move hg rfl ?_ ?_ ?_ fun entry hentry => .inl ⟨hentry, le_rfl⟩
    · show (successes key (w.runs ++ [(key', o.run)])).length + _ + 0 =
        _ + (if (w.kv idempotencyBucket key).isSome then 1 else 0) + (if key' = key then 1 else 0)
      rw [hsuccesses, length_append]
      by_cases hkey : key' = key
      · rw [if_pos ⟨hkey, hrun⟩, if_pos hkey, length_singleton]
        omega
      · rw [if_neg fun hboth => hkey hboth.1, if_neg hkey, length_nil]
        omega
    · intro run hmem
      exact hsuccesses ▸ mem_append_left _ hmem
    · intro run heq
      obtain ⟨hkey, rfl⟩ := IdemStage.recording.inj heq
      show o.run ∈ successes key (w.runs ++ [(key', o.run)])
      rw [hsuccesses, if_pos ⟨hkey, hrun⟩]
      exact mem_append_right _ (mem_singleton_self _)
  | fail key' reply hrun =>
    cases hperform
    refine h.keep hg rfl Iff.rfl ?_ rfl (Nat.zero_le _) rfl rfl
    show successes key (w.runs ++ [(key', o.run)]) = _
    rw [successes_snoc, if_neg fun hsucceeds => false_ne_true (hrun.symm.trans hsucceeds.2),
      append_nil]
  | record key' run r reply =>
    simp only [idemPerform, hok, false_eq_true, if_false] at hperform
    cases hperform
    by_cases hkey : key' = key
    · subst hkey
      have hmem := mem_of_getElem? hg
      have hbusy := le_total (IdemStage.busy key') hmem
      have hle := total_mono (busy_le_inside key') stages
      have hsingle := h.single
      have hnone : w.kv idempotencyBucket key' = none := by
        cases hentry : w.kv idempotencyBucket key' with
        | none => rfl
        | some entry =>
          have hzero := (h.recorded entry hentry).1
          simp [IdemStage.busy] at hbusy
          omega
      refine h.move hg rfl ?_ (fun _ => id) nofun fun entry hentry => .inr ⟨?_, ?_⟩
      · simp [IdemStage.records, hnone, IdemWorld.wait]
      · simp only [IdemStage.busy, if_true] at hbusy ⊢
        split at hsingle <;> omega
      · cases (set_self _ _ _ _ _ _).symm.trans hentry
        exact ⟨run, h.recording run hmem, rfl⟩
    · refine h.keep hg (set_of_ne _ _ _ _ (.inr (Ne.symm hkey))) Iff.rfl rfl rfl
        (Nat.zero_le _) rfl ?_
      exact if_neg hkey
  | leave key' reply r =>
    cases hperform
    refine h.move hg ?_ rfl (fun _ => id) nofun fun entry hentry => .inl ⟨hentry, le_rfl⟩
    by_cases hkey : key' = key
    · subst hkey
      have hone := le_total (IdemStage.inside key') (mem_of_getElem? hg)
      have hmark : key' ∈ w.inFlight := by
        by_contra hfree
        rw [h.single, if_neg hfree] at hone
        simp [IdemStage.inside] at hone
      simp [IdemStage.inside, hmark]
    · simp [IdemStage.inside, hkey, Ne.symm hkey, IdemWorld.wait]

/-- **From a recorded response on**, the handler does not run for the key, and the record stays. -/
theorem recorded_step (hentry : w.kv idempotencyBucket key = some entry) (hg : stages[i]? = some g)
    (hexec : reliableExec c w o = some (r, w')) (hmove : IdemMove g c r g') :
    w'.kv idempotencyBucket key = some entry ∧ runsOf key w'.runs = runsOf key w.runs := by
  obtain ⟨hok, hperform⟩ := perform_of_reliable hexec
  have hbusy := eq_zero_of_total (h.recorded entry hentry).1 (mem_of_getElem? hg)
  cases hmove with
  | pass | replay | miss | leave =>
    obtain ⟨-, rfl⟩ := answer_inj hperform
    exact ⟨hentry, by simp [IdemWorld.wait]⟩
  | refuse | enter =>
    simp only [idemPerform] at hperform
    split at hperform
    all_goals
      obtain ⟨-, rfl⟩ := answer_inj hperform
      exact ⟨hentry, rfl⟩
  | succeed key' | fail key' =>
    have hkey : key' ≠ key := by
      rintro rfl
      simp [IdemStage.busy] at hbusy
    cases hperform
    refine ⟨hentry, ?_⟩
    show runsOf key (w.runs ++ [(key', _)]) = _
    rw [runsOf_snoc, if_neg hkey, append_nil]
  | record key' run =>
    have hkey : key' ≠ key := by
      rintro rfl
      simp [IdemStage.busy] at hbusy
    simp only [idemPerform, hok, false_eq_true, if_false] at hperform
    cases hperform
    exact ⟨(set_of_ne _ _ _ _ (.inr hkey.symm)).trans hentry, rfl⟩

omit h

/-- The request will be answered with the reply: from the record, or as it has been. -/
inductive Awaits (key : String) (entry : IdempotencyEntry) : IdemStage → IdemReply → Prop
  | looking : Awaits key entry (.looking key) (.replayed entry)
  | leaving : Awaits key entry (.leaving key (.replayed entry)) (.replayed entry)
  | done (reply : IdemReply) : Awaits key entry (.done reply) reply

variable {reply : IdemReply}

lemma awaits_step (hentry : w.kv idempotencyBucket key = some entry)
    (hlive : unix (w.now + o.elapsed) < entry.expiresAt) (h : Awaits key entry.data g reply)
    (hexec : reliableExec c w o = some (r, w')) (hmove : IdemMove g c r g') :
    Awaits key entry.data g' reply := by
  obtain ⟨hok, hperform⟩ := perform_of_reliable hexec
  cases h with
  | looking =>
    have hfound : (w.wait o.elapsed).kv.get (unix (w.wait o.elapsed).now) idempotencyBucket key =
      .ok entry.data := get_of_lt hentry hlive
    cases hmove with
    | replay key' cached =>
      obtain ⟨hanswer, -⟩ := answer_inj hperform
      rw [hok, if_neg Bool.false_ne_true, hfound] at hanswer
      cases hanswer
      exact .leaving
    | miss key' e =>
      obtain ⟨hanswer, -⟩ := answer_inj hperform
      rw [hok, if_neg Bool.false_ne_true, hfound] at hanswer
      cases hanswer
  | leaving =>
    cases hmove with
    | leave => exact .done _
  | done => cases hmove

/-! ## All interleavings -/

variable {s : IdemWorld × List (IdemM IdemReply)}

lemma keyInv_of_run {s' : IdemWorld × List (IdemM IdemReply)} {as : List (ℕ × IdemChoice)}
    (htracks : Tracks IdemMove IdemDone s.2 stages)
    (hinv : KeyInv key s.1 stages) (hguard : Along (poolStep reliableExec) (WithinLifetime key) s as)
    (hrun : run (poolStep reliableExec) s as = some s') :
    ∃ stages', Tracks IdemMove IdemDone s'.2 stages' ∧ KeyInv key s'.1 stages' :=
  Tracks.of_along (I := KeyInv key)
    (fun _ _ _ _ _ _ _ _ _ h hlive _ hg _ hexec hmove => keyInv_step h hlive hg hexec hmove)
    htracks hinv hguard hrun

structure Awaiting (key : String) (entry : KVEntry IdempotencyEntry) (before : List HandlerRun) (i : ℕ)
    (reply : IdemReply) (w : IdemWorld) (stages : List IdemStage) : Prop where
  inv : KeyInv key w stages
  recorded : w.kv idempotencyBucket key = some entry
  runs : runsOf key w.runs = before
  awaits : ∃ g, stages[i]? = some g ∧ Awaits key entry.data g reply

variable {before : List HandlerRun}

lemma awaiting_step {j : ℕ}
    (h : Awaiting key entry before i reply w stages)
    (hlive : (w.kv idempotencyBucket key).all fun entry => unix (w.now + o.elapsed) < entry.expiresAt)
    (hg : stages[j]? = some g) (hexec : reliableExec c w o = some (r, w'))
    (hmove : IdemMove g c r g') : Awaiting key entry before i reply w' (stages.set j g') := by
  obtain ⟨hinv, hentry, hruns, gi, hgi, hawaits⟩ := h
  obtain ⟨hentry', hruns'⟩ := recorded_step hinv hentry hg hexec hmove
  refine ⟨keyInv_step hinv hlive hg hexec hmove, hentry', hruns'.trans hruns, ?_⟩
  by_cases hij : i = j
  · subst hij
    cases hg.symm.trans hgi
    rw [hentry] at hlive
    exact ⟨g', getElem?_set_self hg g',
      awaits_step hentry (of_decide_eq_true hlive) hawaits hexec hmove⟩
  · exact ⟨gi, getElem?_set_of_ne hij g' hgi, hawaits⟩

lemma Awaiting.reply_eq {reply' : IdemReply} (h : Awaiting key entry before i reply s.1 stages)
    (htracks : Tracks IdemMove IdemDone s.2 stages) (hret : s.2[i]? = some (.ret reply')) :
    reply' = reply := by
  obtain ⟨g, hg, hawaits⟩ := h.awaits
  rcases htracks.follows i _ g hret hg with rfl | ⟨rfl, -⟩
  · cases hawaits
    rfl
  · cases hawaits

/-- **Idempotency keys.** In any interleaving, while the store does not fail and an entry for the
key has not expired, the handler succeeds at most once for the key. When that response is recorded,
the handler does not run for the key again, and a request that starts is answered with the recorded
response, or refused when another with the key is in flight. -/
theorem idempotent_key (kv : Bool) (requests : List IdemRequest) (key : String) (w : IdemWorld)
    (as : List (ℕ × IdemChoice)) (s : IdemWorld × List (IdemM IdemReply))
    (hkv : w.kv idempotencyBucket key = none) (hfree : key ∉ w.inFlight) (hruns : w.runs = [])
    (hguard : Along (poolStep reliableExec) (WithinLifetime key)
      (w, requests.map (idempotency kv)) as)
    (hrun : run (poolStep reliableExec) (w, requests.map (idempotency kv)) as = some s) :
    (successes key s.1.runs).length ≤ 1 ∧
    ∀ entry, s.1.kv idempotencyBucket key = some entry →
      (∃ run ∈ successes key s.1.runs, entry.data = run.entry) ∧
      ∀ i r o bs s', s.2[i]? = some (idempotency kv r) → scope? kv r = some key →
        Along (poolStep reliableExec) (WithinLifetime key) s ((i, o) :: bs) →
        run (poolStep reliableExec) s ((i, o) :: bs) = some s' →
        runsOf key s'.1.runs = runsOf key s.1.runs ∧
        ∀ reply, s'.2[i]? = some (.ret reply) →
          reply = if key ∈ s.1.inFlight then .conflict else .replayed entry.data := by
  have hfollows : ∀ p ∈ requests.map (idempotency kv), Follows IdemMove IdemDone p .before :=
    forall_mem_map.mpr fun r _ => follows_idempotency kv r
  have hzero : ∀ f : IdemStage → ℕ, f .before = 0 →
      total f (replicate (requests.map (idempotency kv)).length .before) = 0 :=
    fun f hf => total_eq_zero fun g hg => by rw [eq_of_mem_replicate hg, hf]
  have hstart : KeyInv key w (replicate (requests.map (idempotency kv)).length .before) := by
    refine ⟨?_, ?_, ?_, ?_⟩
    · rw [hzero _ rfl, if_neg hfree]
    · rw [hzero _ rfl, hruns, hkv]
      rfl
    · intro run hmem
      cases eq_of_mem_replicate hmem
    · intro entry hentry
      rw [hkv] at hentry
      cases hentry
  obtain ⟨stages, htracks, hinv⟩ := keyInv_of_run (tracks_replicate hfollows) hstart hguard hrun
  refine ⟨hinv.successes_le_one, fun entry hentry => ⟨(hinv.recorded entry hentry).2, ?_⟩⟩
  intro i r o bs s' hi hscope hguard' hrun'
  rw [idempotency_of_scope hscope] at hi
  obtain ⟨s1, hstep, hrest⟩ := bind_eq_some_iff.mp hrun'
  obtain ⟨c, k, answer, g, g', hc, hg, hexec, hmove, -, htracks1⟩ := htracks.step hstep
  cases hi.symm.trans hc
  have hawaiting : Awaiting key entry (runsOf key s.1.runs) i
      (if key ∈ s.1.inFlight then .conflict else .replayed entry.data) s1.1 (stages.set i g') := by
    obtain ⟨hentry1, hruns1⟩ := recorded_step hinv hentry hg hexec hmove
    refine ⟨keyInv_step hinv hguard'.1 hg hexec hmove, hentry1, hruns1, g',
      getElem?_set_self hg g', ?_⟩
    obtain ⟨-, hperform⟩ := perform_of_reliable hexec
    simp only [idemPerform] at hperform
    split at hperform
    case isTrue hmark =>
      obtain ⟨rfl, -⟩ := answer_inj hperform
      cases hmove
      rw [if_pos (show key ∈ s.1.inFlight from hmark)]
      exact .done _
    case isFalse hmark =>
      obtain ⟨rfl, -⟩ := answer_inj hperform
      cases hmove
      rw [if_neg (show key ∉ s.1.inFlight from hmark)]
      exact .looking
  obtain ⟨stages', htracks', hend⟩ := Tracks.of_along (I := Awaiting key entry _ i _)
    (fun _ _ _ _ _ _ _ _ _ h hlive _ hg _ hexec hmove => awaiting_step h hlive hg hexec hmove)
    htracks1 hawaiting (hguard'.2 s1 hstep) hrest
  exact ⟨hend.runs, fun reply hret => hend.reply_eq htracks' hret⟩

def createApp : IdemRequest :=
  { method := "POST", path := "/api/v1/apps", idempotencyKey := "k1" }

def createAppKey : String := scopedIdempotencyKey createApp []

def idleServer : IdemWorld := ⟨0, fun _ _ => none, [], []⟩

def created : HandlerRun :=
  { writes := [.header 201, .body [0x7b, 0x7d]], contentType := "application/json" }

def untilRecorded : List (ℕ × IdemChoice) := [(0, {}), (0, {}), (0, { run := created }), (0, {})]

def untilDone : List (ℕ × IdemChoice) :=
  [(0, {}), (0, {}), (0, { run := created }), (0, {}), (0, {})]

def secondStarts : List (ℕ × IdemChoice) := [(1, {})]

def secondRequest : List (ℕ × IdemChoice) := [(1, {}), (1, {}), (1, {})]

theorem idempotent_key_oneByOne : ∃ s s',
    run (poolStep reliableExec) (idleServer, [createApp, createApp].map (idempotency true))
      untilDone = some s ∧
    run (poolStep reliableExec) s secondRequest = some s' ∧
    (successes createAppKey s.1.runs).length ≤ 1 ∧
    s'.2[1]? = some (.ret (.replayed created.entry)) ∧
    runsOf createAppKey s'.1.runs = runsOf createAppKey s.1.runs := by
  obtain ⟨s, hrun, hentry, hfree, hguard, s', hrun', hreturned⟩ : ∃ s,
      run (poolStep reliableExec) (idleServer, [createApp, createApp].map (idempotency true))
        untilDone = some s ∧
      s.1.kv idempotencyBucket createAppKey = some ⟨created.entry, 86400⟩ ∧
      createAppKey ∉ s.1.inFlight ∧
      Along (poolStep reliableExec) (WithinLifetime createAppKey) s secondRequest ∧
      ∃ s', run (poolStep reliableExec) s secondRequest = some s' ∧
        (s'.2[1]?.bind Prog.result?).isSome = true := by decide +kernel
  obtain ⟨hone, hrecorded⟩ := idempotent_key _ _ createAppKey _ _ s
    rfl (by decide +kernel) rfl (by decide +kernel) hrun
  have hsecond : s.2[1]? = some (idempotency true createApp) :=
    getElem?_of_run (by decide +kernel) hrun
  obtain ⟨hruns, hreply⟩ := (hrecorded _ hentry).2 1 createApp _ _ s' hsecond (by decide +kernel)
    hguard hrun'
  obtain ⟨reply, hresult⟩ := isSome_iff_exists.mp hreturned
  obtain ⟨p, hp, hret⟩ := bind_eq_some_iff.mp hresult
  obtain rfl := Prog.result?_eq_some hret
  refine ⟨s, s', hrun, hrun', hone, ?_, hruns⟩
  rw [hp, hreply reply hp, if_neg hfree]

/-- A request that starts when the response is recorded, but before the mark is taken back, is refused
and not answered with the record. -/
theorem recorded_request_refused : ∃ s s',
    run (poolStep reliableExec) (idleServer, [createApp, createApp].map (idempotency true))
      untilRecorded = some s ∧
    Along (poolStep reliableExec) (WithinLifetime createAppKey)
      (idleServer, [createApp, createApp].map (idempotency true)) (untilRecorded ++ secondStarts) ∧
    s.1.kv idempotencyBucket createAppKey = some ⟨created.entry, 86400⟩ ∧
    s.2[1]? = some (idempotency true createApp) ∧ scope? true createApp = some createAppKey ∧
    run (poolStep reliableExec) s secondStarts = some s' ∧
    s'.2[1]? = some (.ret .conflict) := by
  obtain ⟨s, hrun, hentry, s', hrun', hresult⟩ : ∃ s,
      run (poolStep reliableExec) (idleServer, [createApp, createApp].map (idempotency true))
        untilRecorded = some s ∧
      s.1.kv idempotencyBucket createAppKey = some ⟨created.entry, 86400⟩ ∧
      ∃ s', run (poolStep reliableExec) s secondStarts = some s' ∧
        s'.2[1]?.bind Prog.result? = some .conflict := by decide +kernel
  obtain ⟨p, hp, hret⟩ := bind_eq_some_iff.mp hresult
  obtain rfl := Prog.result?_eq_some hret
  exact ⟨s, s', hrun, by decide +kernel, hentry, getElem?_of_run (by decide +kernel) hrun,
    by decide +kernel, hrun', hp⟩

end DeployMonster.Middleware
