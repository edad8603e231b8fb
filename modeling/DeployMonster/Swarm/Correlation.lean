import DeployMonster.Swarm.Server

/-!
# Requests and their responses

A channel of a request in flight is in the pending map of its connection, or in the hands of that
connection's reader, or filled, or closed, and never two of these.
-/

namespace DeployMonster.Swarm

open StepMachine List Option Pool

/-- Nothing was sent on the channel, and it is open. -/
def SendCall.Empty (t : SendCall) : Prop := t.buffer = none ∧ t.chClosed = false

/-- The request is entered, and `Send` has neither withdrawn it nor returned. -/
def SendPoint.inFlight : SendPoint → Bool
  | encoding | failing | waiting | cancelling => true
  | registering | returned _ => false

/-- What holds of each call by itself: the channel of a new one is empty, and what it buffers or
returns answers its request. -/
structure SendCall.Sound (t : SendCall) : Prop where
  fresh : t.point = .registering → t.Empty
  buffered : ∀ m, t.buffer = some m → m.id = t.msg.id
  returned : ∀ r m, t.point = .returned r → r.message? = some m → m.id = t.msg.id

def Deliverable (s : AgentServer) (c : ℕ) (ac : AgentConn) (k : ℕ) (m : AgentMessage) : Prop :=
  ∃ t, s.sends[k]? = some t ∧ t.conn = c ∧ t.msg.id = m.id ∧ t.point ≠ .registering ∧ t.Empty ∧
    ac.pending.lookup m.id ≠ some k

structure Routed (s : AgentServer) : Prop where
  pending : ∀ (c : ℕ) (ac : AgentConn) (id : String) (k : ℕ), s.conns[c]? = some ac →
    ac.pending.lookup id = some k →
    ∃ t, s.sends[k]? = some t ∧ t.conn = c ∧ t.msg.id = id ∧ t.point.inFlight = true ∧ t.Empty
  delivering : ∀ (c : ℕ) (ac : AgentConn) (k : ℕ) (m : AgentMessage), s.conns[c]? = some ac →
    ac.reader = .delivering k m → Deliverable s c ac k m
  sound : ∀ t ∈ s.sends, t.Sound

variable {s s' : AgentServer} {c k : ℕ} {ac : AgentConn} {t : SendCall}

lemma inFlight_ne_registering {p : SendPoint} (h : p.inFlight = true) : p ≠ .registering := by
  rintro rfl
  cases h

lemma Routed.setConn (hs : Routed s) (hac : s.conns[c]? = some ac) {ac' : AgentConn}
    (hp : ∀ id k, ac'.pending.lookup id = some k → ac.pending.lookup id = some k)
    (hd : ∀ k m, ac'.reader = .delivering k m → Deliverable s c ac' k m) :
    Routed (s.setConn c ac') where
  pending d ad id k hd' hk := by
    rcases getElem?_set hd' with ⟨rfl, rfl⟩ | ⟨-, hd'⟩
    · exact hs.pending d ac id k hac (hp id k hk)
    · exact hs.pending d ad id k hd' hk
  delivering d ad k m hd' hk := by
    rcases getElem?_set hd' with ⟨rfl, rfl⟩ | ⟨-, hd'⟩
    · exact hd k m hk
    · exact hs.delivering d ad k m hd' hk
  sound := hs.sound

lemma Routed.setSend (hs : Routed s) (ht : s.sends[k]? = some t) {t' : SendCall}
    (hconn : t'.conn = t.conn) (hmsg : t'.msg = t.msg) (hsound : t'.Sound)
    (hflight : t.Empty → t.point.inFlight = true → t'.point.inFlight = true ∧ t'.Empty)
    (hpast : t.Empty → t.point ≠ .registering → t'.point ≠ .registering ∧ t'.Empty) :
    Routed (s.setSend k t') where
  pending d ad id j hd hj := by
    obtain ⟨u, hu, hc, hid, hfl, hem⟩ := hs.pending d ad id j hd hj
    rcases eq_or_ne j k with rfl | hne
    · cases ht.symm.trans hu
      obtain ⟨hfl, hem⟩ := hflight hem hfl
      exact ⟨t', getElem?_set_self ht t', hconn.trans hc, by rw [hmsg, hid], hfl, hem⟩
    · exact ⟨u, getElem?_set_of_ne hne t' hu, hc, hid, hfl, hem⟩
  delivering d ad j m hd hj := by
    obtain ⟨u, hu, hc, hid, hne', hem, hno⟩ := hs.delivering d ad j m hd hj
    rcases eq_or_ne j k with rfl | hne
    · cases ht.symm.trans hu
      obtain ⟨hne', hem⟩ := hpast hem hne'
      exact ⟨t', getElem?_set_self ht t', hconn.trans hc, by rw [hmsg, hid], hne', hem, hno⟩
    · exact ⟨u, getElem?_set_of_ne hne t' hu, hc, hid, hne', hem, hno⟩
  sound := forall_set hs.sound hsound

lemma routed_receive (hs : Routed s) (hac : s.conns[c]? = some ac) (msg : AgentMessage)
    (hr : ac.reader = .reading) : Routed (s.setConn c (ac.handleAgentMessage msg)) := by
  unfold AgentConn.handleAgentMessage
  split
  case isTrue =>
    split
    case h_1 ch hch =>
      refine hs.setConn hac (fun id k hk => ?_) fun k m hk => ?_
      · rcases eq_or_ne id msg.id with rfl | hne
        · simp at hk
        · rwa [AList.lookup_erase_ne hne] at hk
      · obtain ⟨rfl, rfl⟩ : ch = k ∧ msg = m := by simpa using hk
        obtain ⟨t, ht, hc, hid, hfl, hem⟩ := hs.pending c ac msg.id ch hac hch
        exact ⟨t, ht, hc, hid, inFlight_ne_registering hfl, hem, by simp⟩
    case h_2 => exact hs.setConn hac (fun _ _ h => h) (by simp [hr])
  case isFalse => exact hs.setConn hac (fun _ _ h => h) (by simp [hr])

lemma routed_deliver (hs : Routed s) (hac : s.conns[c]? = some ac) {m : AgentMessage}
    (hr : ac.reader = .delivering k m) (ht : s.sends[k]? = some t) :
    Routed ((s.setSend k { t with buffer := some m }).setConn c { ac with reader := .reading }) := by
  obtain ⟨v, hv, hc, hid, hreg, -, hno⟩ := hs.delivering c ac k m hac hr
  cases ht.symm.trans hv
  have hsound : SendCall.Sound { t with buffer := some m } := by
    refine ⟨fun h => absurd h hreg, fun m' hm' => ?_,
      (hs.sound t (mem_of_getElem? ht)).returned⟩
    rw [← some.inj hm', hid]
  refine ⟨fun d ad id j hd hj => ?_, fun d ad j m' hd hj => ?_, forall_set hs.sound hsound⟩
  · have hpend : ∃ ad, s.conns[d]? = some ad ∧ ad.pending.lookup id = some j ∧
        (d = c → ad = ac) := by
      rcases getElem?_set hd with ⟨rfl, rfl⟩ | ⟨hne, hd⟩
      · exact ⟨ac, hac, hj, fun _ => rfl⟩
      · exact ⟨ad, hd, hj, fun h => absurd h hne⟩
    obtain ⟨ad, hd, hj, had⟩ := hpend
    obtain ⟨u, hu, hcu, hidu, hfl, hem⟩ := hs.pending d ad id j hd hj
    have hne : j ≠ k := by
      rintro rfl
      cases ht.symm.trans hu
      rw [had (hcu.symm.trans hc), ← hidu, hid] at hj
      exact hno hj
    exact ⟨u, getElem?_set_of_ne hne _ hu, hcu, hidu, hfl, hem⟩
  · rcases getElem?_set hd with ⟨rfl, rfl⟩ | ⟨hne, hd⟩
    · cases hj
    obtain ⟨u, hu, hcu, hrest⟩ := hs.delivering d ad j m' hd hj
    have hjk : j ≠ k := by
      rintro rfl
      cases ht.symm.trans hu
      exact hne (hcu.symm.trans hc)
    exact ⟨u, getElem?_set_of_ne hjk _ hu, hcu, hrest⟩

lemma mem_pending_iff : k ∈ ac.pending.entries.map Sigma.snd ↔
    ∃ id, ac.pending.lookup id = some k := by
  simp only [List.mem_map, Sigma.exists, exists_eq_right]
  exact exists_congr fun id => AList.mem_lookup_iff.symm

variable (hs : Routed s)
include hs

lemma routed_clearPending (hac : s.conns[c]? = some ac) :
    Routed { s.setConn c { ac with reader := .gone, pending := ∅ } with
      sends := s.closePending ac } := by
  have hclose (j : ℕ) : (s.closePending ac)[j]? = s.sends[j]?.map fun t =>
      if j ∈ ac.pending.entries.map Sigma.snd then { t with chClosed := true } else t := by
    simp [AgentServer.closePending]
  have hother {d j : ℕ} {u : SendCall} (hu : s.sends[j]? = some u) (hd : u.conn = d)
      (hne : d ≠ c) : (s.closePending ac)[j]? = some u := by
    rw [hclose, hu, map_some, if_neg]
    rw [mem_pending_iff]
    rintro ⟨id, hid⟩
    obtain ⟨v, hv, hvc, -⟩ := hs.pending c ac id j hac hid
    cases hu.symm.trans hv
    exact hne (hd.symm.trans hvc)
  refine ⟨fun d ad id j hd hj => ?_, fun d ad j m hd hj => ?_, fun t ht => ?_⟩
  · rcases getElem?_set hd with ⟨rfl, rfl⟩ | ⟨hne, hd⟩
    · simp at hj
    · obtain ⟨u, hu, hcu, hrest⟩ := hs.pending d ad id j hd hj
      exact ⟨u, hother hu hcu hne, hcu, hrest⟩
  · rcases getElem?_set hd with ⟨rfl, rfl⟩ | ⟨hne, hd⟩
    · cases hj
    · obtain ⟨u, hu, hcu, hrest⟩ := hs.delivering d ad j m hd hj
      exact ⟨u, hother hu hcu hne, hcu, hrest⟩
  obtain ⟨j, hj⟩ := mem_iff_getElem?.mp ht
  rw [hclose] at hj
  obtain ⟨u, hu, rfl⟩ := map_eq_some_iff.mp hj
  have husound := hs.sound u (mem_of_getElem? hu)
  split
  case isTrue hmem =>
    obtain ⟨id, hid⟩ := mem_pending_iff.mp hmem
    obtain ⟨v, hv, -, -, hfl, -⟩ := hs.pending c ac id j hac hid
    cases hu.symm.trans hv
    exact ⟨fun h => absurd h (inFlight_ne_registering hfl), husound.buffered, husound.returned⟩
  case isFalse => exact husound

lemma routed_register (ht : s.sends[k]? = some t)
    (hac : s.conns[t.conn]? = some ac) (hp : t.point = .registering) :
    Routed ((s.setConn t.conn { ac with pending := ac.pending.insert t.msg.id k }).setSend k
      { t with point := .encoding }) := by
  have hsound := hs.sound t (mem_of_getElem? ht)
  refine ⟨fun d ad id j hd hj => ?_, fun d ad j m hd hj => ?_,
    forall_set hs.sound ⟨nofun, hsound.buffered, fun _ _ h => nomatch h⟩⟩
  · have hold : ∀ ad, s.conns[d]? = some ad → ad.pending.lookup id = some j →
        ∃ u, (s.sends.set k { t with point := .encoding })[j]? = some u ∧ u.conn = d ∧
          u.msg.id = id ∧ u.point.inFlight = true ∧ u.Empty := by
      intro ad hd hj
      obtain ⟨u, hu, hcu, hidu, hfl, hem⟩ := hs.pending d ad id j hd hj
      have hne : j ≠ k := by
        rintro rfl
        cases ht.symm.trans hu
        exact inFlight_ne_registering hfl hp
      exact ⟨u, getElem?_set_of_ne hne _ hu, hcu, hidu, hfl, hem⟩
    rcases getElem?_set hd with ⟨rfl, rfl⟩ | ⟨-, hd⟩
    · rcases eq_or_ne id t.msg.id with rfl | hid
      · obtain rfl : k = j := by simpa using hj
        exact ⟨_, getElem?_set_self ht _, rfl, rfl, rfl, hsound.fresh hp⟩
      · exact hold ac hac (by simpa [AList.lookup_insert_ne hid] using hj)
    · exact hold ad hd hj
  · have hne : ∀ ad m, s.conns[d]? = some ad → ad.reader = .delivering j m → j ≠ k := by
      intro ad m hd hj hjk
      obtain ⟨u, hu, -, -, hreg, -⟩ := hs.delivering d ad j m hd hj
      cases ht.symm.trans (hjk ▸ hu)
      exact hreg hp
    rcases getElem?_set hd with ⟨rfl, rfl⟩ | ⟨-, hd⟩
    · obtain ⟨u, hu, hcu, hidu, hreg, hem, hno⟩ := hs.delivering t.conn ac j m hac hj
      have hjk := hne ac m hac hj
      refine ⟨u, getElem?_set_of_ne hjk _ hu, hcu, hidu, hreg, hem, ?_⟩
      rcases eq_or_ne m.id t.msg.id with hid | hid
      · rw [hid, AList.lookup_insert]
        exact fun h => hjk (some.inj h).symm
      · rwa [AList.lookup_insert_ne hid]
    · obtain ⟨u, hu, hrest⟩ := hs.delivering d ad j m hd hj
      exact ⟨u, getElem?_set_of_ne (hne ad m hd hj) _ hu, hrest⟩

lemma routed_withdraw (ht : s.sends[k]? = some t)
    (hac : s.conns[t.conn]? = some ac) {result : SendResult} (hresult : result.message? = none) :
    Routed (s.withdraw k t ac result) := by
  have hsound := hs.sound t (mem_of_getElem? ht)
  have hpend : ∀ d ad id j, (s.withdraw k t ac result).conns[d]? = some ad →
      ad.pending.lookup id = some j → ∃ ad, s.conns[d]? = some ad ∧ ad.pending.lookup id = some j ∧
        (d = t.conn → id ≠ t.msg.id) := by
    intro d ad id j hd hj
    rcases getElem?_set hd with ⟨rfl, rfl⟩ | ⟨hne, hd⟩
    · have hid : id ≠ t.msg.id := by
        rintro rfl
        simp at hj
      exact ⟨ac, hac, by rwa [AList.lookup_erase_ne hid] at hj, fun _ => hid⟩
    · exact ⟨ad, hd, hj, fun h => absurd h hne⟩
  refine ⟨fun d ad id j hd hj => ?_, fun d ad j m hd hj => ?_, forall_set hs.sound
    ⟨nofun, hsound.buffered, fun r m hr hm => ?_⟩⟩
  · obtain ⟨ad, hd, hj, hid⟩ := hpend d ad id j hd hj
    obtain ⟨u, hu, hcu, hidu, hflu, hem⟩ := hs.pending d ad id j hd hj
    have hne : j ≠ k := by
      intro hjk
      cases ht.symm.trans (hjk ▸ hu)
      exact hid hcu.symm hidu.symm
    exact ⟨u, getElem?_set_of_ne hne _ hu, hcu, hidu, hflu, hem⟩
  · have hdel : ∃ ad', s.conns[d]? = some ad' ∧ ad'.reader = .delivering j m ∧
        (ad'.pending.lookup m.id ≠ some j → ad.pending.lookup m.id ≠ some j) := by
      rcases getElem?_set hd with ⟨rfl, rfl⟩ | ⟨-, hd⟩
      · refine ⟨ac, hac, hj, fun h => ?_⟩
        rcases eq_or_ne m.id t.msg.id with hid | hid
        · rw [hid, AList.lookup_erase]
          exact nofun
        · rwa [AList.lookup_erase_ne hid]
      · exact ⟨ad, hd, hj, id⟩
    obtain ⟨ad', hd, hj, hlook⟩ := hdel
    obtain ⟨u, hu, hcu, hidu, hreg, hem, hno⟩ := hs.delivering d ad' j m hd hj
    rcases eq_or_ne j k with rfl | hne
    · cases ht.symm.trans hu
      exact ⟨_, getElem?_set_self ht _, hcu, hidu, nofun, hem, hlook hno⟩
    · exact ⟨u, getElem?_set_of_ne hne _ hu, hcu, hidu, hreg, hem, hlook hno⟩
  · cases hr
    rw [hresult] at hm
    cases hm

lemma Routed.of_conns (hsends : s'.sends = s.sends)
    (hconns : ∀ (d : ℕ) (ad' : AgentConn), s'.conns[d]? = some ad' →
      (∃ ad, s.conns[d]? = some ad ∧ ad'.pending = ad.pending ∧ ad'.reader = ad.reader) ∨
        ad'.pending = ∅ ∧ ad'.reader = .starting) : Routed s' where
  pending d ad' id j hd hj := by
    rw [hsends]
    rcases hconns d ad' hd with ⟨ad, hd, hp, -⟩ | ⟨hp, -⟩
    · exact hs.pending d ad id j hd (hp ▸ hj)
    · simp [hp] at hj
  delivering d ad' j m hd hj := by
    rcases hconns d ad' hd with ⟨ad, hd, hp, hr⟩ | ⟨-, hr⟩
    · have hdel := hs.delivering d ad j m hd (hr ▸ hj)
      rwa [Deliverable, hsends, hp]
    · rw [hr] at hj
      cases hj
  sound := hsends ▸ hs.sound

lemma routed_connect (serverID : String) : Routed (s.connect serverID) := by
  refine hs.of_conns rfl fun d ad' hd => ?_
  rcases connect_conns hd with ⟨ad, had, rfl⟩ | ⟨-, rfl⟩
  · refine .inl ⟨ad, had, ?_⟩
    split <;> exact ⟨rfl, rfl⟩
  · exact .inr ⟨rfl, rfl⟩

lemma routed_stop : Routed s.stop := by
  refine hs.of_conns rfl fun d ad' hd => .inl ?_
  obtain ⟨ad, had, rfl⟩ := stop_conns hd
  refine ⟨ad, had, ?_⟩
  split <;> exact ⟨rfl, rfl⟩

lemma routed_send (c : ℕ) (msg : AgentMessage) :
    Routed { s with sends := s.sends ++ [⟨c, msg, .registering, none, false⟩] } where
  pending d ad id j hd hj := by
    obtain ⟨u, hu, h⟩ := hs.pending d ad id j hd hj
    exact ⟨u, getElem?_append_left (List.getElem?_eq_some_iff.mp hu).1 ▸ hu, h⟩
  delivering d ad j m hd hj := by
    obtain ⟨u, hu, h⟩ := hs.delivering d ad j m hd hj
    exact ⟨u, getElem?_append_left (List.getElem?_eq_some_iff.mp hu).1 ▸ hu, h⟩
  sound := forall_snoc hs.sound ⟨fun _ => ⟨rfl, rfl⟩, nofun, fun _ _ h => nomatch h⟩

lemma routed_readerStep (hac : s.conns[c]? = some ac) {a : ReaderAction}
    (h : readerStep s c ac a = some s') : Routed s' := by
  have hidle {r : Reader} (hr : ∀ k m, r ≠ .delivering k m) :
      Routed (s.setConn c { ac with reader := r }) :=
    hs.setConn hac (fun _ _ h => h) fun k m h => absurd h (hr k m)
  cases a with
  | start | leaveLoop =>
    obtain ⟨-, rfl⟩ := ite_some_none_eq_some.mp h
    exact hidle (by rintro _ _ ⟨⟩)
  | receive msg =>
    obtain ⟨hr, rfl⟩ := ite_some_none_eq_some.mp h
    exact routed_receive hs hac msg hr
  | deliver =>
    simp only [readerStep] at h
    split at h
    case h_1 ch msg hr =>
      obtain ⟨t, ht, h⟩ := bind_eq_some_iff.mp h
      obtain ⟨-, rfl⟩ := ite_some_none_eq_some.mp h
      exact routed_deliver hs hac hr ht
    case h_2 => cases h
  | closeConn =>
    obtain ⟨-, rfl⟩ := ite_some_none_eq_some.mp h
    exact hs.setConn hac (fun _ _ h => h) (by rintro _ _ ⟨⟩)
  | unregister =>
    obtain ⟨-, rfl⟩ := ite_some_none_eq_some.mp h
    have := hidle (r := .clearing) (by rintro _ _ ⟨⟩)
    exact ⟨this.pending, this.delivering, this.sound⟩
  | clearPending =>
    obtain ⟨-, rfl⟩ := ite_some_none_eq_some.mp h
    exact routed_clearPending hs hac

lemma routed_sendStep (ht : s.sends[k]? = some t)
    (hac : s.conns[t.conn]? = some ac) {a : SendAction} (h : sendStep s k t ac a = some s') :
    Routed s' := by
  have hsound := hs.sound t (mem_of_getElem? ht)
  cases a with
  | register =>
    obtain ⟨hp, rfl⟩ := ite_some_none_eq_some.mp h
    exact routed_register hs ht hac hp
  | encode ok =>
    obtain ⟨hp, rfl⟩ := ite_some_none_eq_some.mp h
    refine hs.setSend ht rfl rfl ⟨?_, hsound.buffered, ?_⟩ (fun hem _ => ⟨?_, hem⟩)
      fun hem _ => ⟨?_, hem⟩ <;> cases ok <;> simp [SendPoint.inFlight]
  | takeResponse =>
    obtain ⟨hp, h⟩ := ite_none_right_eq_some.mp h
    obtain ⟨resp, hbuf, rfl⟩ := map_eq_some_iff.mp h
    have hfull : ¬ t.Empty := fun hem => by
      rw [hem.1] at hbuf
      cases hbuf
    refine hs.setSend ht rfl rfl ⟨nofun, nofun, fun r m hr hm => ?_⟩ (fun hem => absurd hem hfull)
      fun hem => absurd hem hfull
    cases hr
    have hm : m = resp := by
      revert hm
      split <;> simp [SendResult.message?, eq_comm]
    exact hm ▸ hsound.buffered resp hbuf
  | seeClosed =>
    obtain ⟨⟨-, -, hcl⟩, h⟩ := ite_none_right_eq_some.mp h
    cases h
    have hfull : ¬ t.Empty := fun hem => by
      rw [hem.2] at hcl
      cases hcl
    refine hs.setSend ht rfl rfl ⟨nofun, hsound.buffered, fun r m hr hm => ?_⟩
      (fun hem => absurd hem hfull) fun hem => absurd hem hfull
    cases hr
    cases hm
  | contextDone =>
    obtain ⟨hp, rfl⟩ := ite_some_none_eq_some.mp h
    exact hs.setSend ht rfl rfl ⟨nofun, hsound.buffered, fun _ _ h => nomatch h⟩
      (fun hem _ => ⟨rfl, hem⟩) fun hem _ => ⟨nofun, hem⟩
  | withdraw =>
    simp only [sendStep] at h
    split at h
    case h_1 | h_2 =>
      cases h
      exact routed_withdraw hs ht hac rfl
    case h_3 => cases h

omit hs

/-- **Every step keeps the requests in flight routed.** -/
theorem routed_step (s : AgentServer) (a : ServerAction) (s' : AgentServer) (hs : Routed s)
    (h : serverStep s a = some s') : Routed s' := by
  cases a with
  | connect serverID =>
    obtain ⟨-, h⟩ := ite_none_left_eq_some.mp h
    cases h
    exact routed_connect hs serverID
  | reader c a =>
    obtain ⟨ac, hac, h⟩ := bind_eq_some_iff.mp h
    exact routed_readerStep hs hac h
  | heartbeatTimeout c =>
    obtain ⟨ac, hac, rfl⟩ := map_eq_some_iff.mp h
    exact hs.setConn hac (fun _ _ h => h) fun k m h => hs.delivering c ac k m hac h
  | stop =>
    cases h
    exact routed_stop hs
  | send c msg =>
    obtain ⟨-, rfl⟩ := ite_some_none_eq_some.mp h
    exact routed_send hs c msg
  | call k a =>
    obtain ⟨t, ht, h⟩ := bind_eq_some_iff.mp h
    obtain ⟨ac, hac, h⟩ := bind_eq_some_iff.mp h
    exact routed_sendStep hs ht hac h

lemma returned_step {r : SendResult} {msg : AgentMessage}
    (hk : ∃ t, s.sends[k]? = some t ∧ t.msg = msg ∧ t.point = .returned r) {a : ServerAction}
    (h : serverStep s a = some s') :
    ∃ t, s'.sends[k]? = some t ∧ t.msg = msg ∧ t.point = .returned r := by
  obtain ⟨t, ht, hmsg, hp⟩ := hk
  have hset {j : ℕ} {u u' : SendCall} (hu : s.sends[j]? = some u) (hu' : u'.msg = u.msg)
      (hp' : u.point = .returned r → u'.point = .returned r) :
      ∃ t, (s.sends.set j u')[k]? = some t ∧ t.msg = msg ∧ t.point = .returned r := by
    rcases eq_or_ne k j with rfl | hne
    · cases ht.symm.trans hu
      exact ⟨u', getElem?_set_self ht u', hu'.trans hmsg, hp' hp⟩
    · exact ⟨t, getElem?_set_of_ne hne u' ht, hmsg, hp⟩
  cases a with
  | connect serverID =>
    obtain ⟨-, h⟩ := ite_none_left_eq_some.mp h
    cases h
    exact ⟨t, ht, hmsg, hp⟩
  | heartbeatTimeout c =>
    obtain ⟨ac, -, rfl⟩ := map_eq_some_iff.mp h
    exact ⟨t, ht, hmsg, hp⟩
  | stop =>
    cases h
    exact ⟨t, ht, hmsg, hp⟩
  | send c m =>
    obtain ⟨-, rfl⟩ := ite_some_none_eq_some.mp h
    exact ⟨t, getElem?_append_left (List.getElem?_eq_some_iff.mp ht).1 ▸ ht, hmsg, hp⟩
  | reader c a =>
    obtain ⟨ac, -, h⟩ := bind_eq_some_iff.mp h
    cases a with
    | start | receive m | leaveLoop | closeConn | unregister =>
      obtain ⟨-, rfl⟩ := ite_some_none_eq_some.mp h
      exact ⟨t, ht, hmsg, hp⟩
    | deliver =>
      simp only [readerStep] at h
      split at h
      case h_1 ch m hr =>
        obtain ⟨u, hu, h⟩ := bind_eq_some_iff.mp h
        obtain ⟨-, rfl⟩ := ite_some_none_eq_some.mp h
        exact hset hu rfl id
      case h_2 => cases h
    | clearPending =>
      obtain ⟨-, rfl⟩ := ite_some_none_eq_some.mp h
      refine ⟨if k ∈ ac.pending.entries.map Sigma.snd then { t with chClosed := true } else t,
        by simp [AgentServer.closePending, ht], ?_⟩
      split <;> exact ⟨hmsg, hp⟩
  | call j a =>
    obtain ⟨u, hu, h⟩ := bind_eq_some_iff.mp h
    obtain ⟨ac, hac, h⟩ := bind_eq_some_iff.mp h
    obtain ⟨hlive, -, -, ⟨u', hsends, hu'⟩, -⟩ := sendStep_effect hac h
    rw [hsends]
    exact hset hu hu' fun hr => absurd hr (hlive r)

lemma routed_newAgentServer : Routed newAgentServer where
  pending _ _ _ _ h := by simp [newAgentServer] at h
  delivering _ _ _ _ h := by simp [newAgentServer] at h
  sound _ h := by simp [newAgentServer] at h

/-- What `Send` and the reader promise each other. -/
structure Correlated (s : AgentServer) : Prop where
  /-- A response that `Send` returns has the id of its request. -/
  own : ∀ t ∈ s.sends, ∀ r m, t.point = .returned r → r.message? = some m → m.id = t.msg.id
  /-- `Send` returns once: whatever happens later, it has returned that and nothing else. -/
  once : ∀ (k : ℕ) (t : SendCall) (r : SendResult), s.sends[k]? = some t → t.point = .returned r →
    ∀ bs s', run serverStep s bs = some s' →
      ∃ t' : SendCall, s'.sends[k]? = some t' ∧ t'.msg = t.msg ∧ t'.point = .returned r
  /-- A response to no request in flight changes nothing. -/
  dropped : ∀ c ac msg, s.conns[c]? = some ac →
    ac.reader = .reading →
    (∀ t ∈ s.sends, t.conn = c → t.msg.id = msg.id → t.point.inFlight = false) →
      serverStep s (.reader c (.receive msg)) = some s
  /-- The reader's send on a channel goes through at once. -/
  unblocked : ∀ c ac k m, s.conns[c]? = some ac →
    ac.reader = .delivering k m → (serverStep s (.reader c .deliver)).isSome = true
  /-- Once every `Send` has returned no request is pending. -/
  drained : (∀ t ∈ s.sends, ∃ r, t.point = .returned r) → ∀ ac ∈ s.conns, ac.pending = ∅

lemma Routed.receive_eq (hs : Routed s) {msg : AgentMessage}
    (hac : s.conns[c]? = some ac) (hr : ac.reader = .reading)
    (hno : ∀ t ∈ s.sends, t.conn = c → t.msg.id = msg.id → t.point.inFlight = false) :
    serverStep s (.reader c (.receive msg)) = some s := by
  have hlook : ac.pending.lookup msg.id = none := by
    cases hk : ac.pending.lookup msg.id with
    | none => rfl
    | some k =>
      obtain ⟨t, ht, hc, hid, hfl, -⟩ := hs.pending c ac msg.id k hac hk
      rw [hno t (mem_of_getElem? ht) hc hid] at hfl
      cases hfl
  have hsame : ac.handleAgentMessage msg = ac := by simp [AgentConn.handleAgentMessage, hlook]
  simp only [serverStep, hac, bind_some, readerStep, hr, if_true, hsame, setConn_self hac]

lemma Routed.deliver_isSome (hs : Routed s) {m : AgentMessage}
    (hac : s.conns[c]? = some ac) (hr : ac.reader = .delivering k m) :
    (serverStep s (.reader c .deliver)).isSome = true := by
  obtain ⟨t, ht, -, -, -, hem, -⟩ := hs.delivering c ac k m hac hr
  simp [serverStep, hac, readerStep, hr, ht, hem.1, hem.2]

lemma Routed.pending_eq_empty (hs : Routed s) (hret : ∀ t ∈ s.sends, ∃ r, t.point = .returned r)
    (hac : ac ∈ s.conns) : ac.pending = ∅ := by
  obtain ⟨c, hac⟩ := mem_iff_getElem?.mp hac
  apply AList.ext
  apply eq_nil_iff_forall_not_mem.mpr
  rintro ⟨id, k⟩ hmem
  obtain ⟨t, ht, -, -, hfl, -⟩ := hs.pending c ac id k hac (AList.mem_lookup_iff.mpr hmem)
  obtain ⟨r, hr⟩ := hret t (mem_of_getElem? ht)
  rw [hr] at hfl
  cases hfl

/-- **Requests and responses are correlated** along every interleaving of `Send` calls with arriving
messages, timeouts, new connections and teardown. -/
theorem send_correlated (as : List ServerAction) (s : AgentServer)
    (h : run serverStep newAgentServer as = some s) : Correlated s := by
  have hs : Routed s := invariant_of_run routed_step routed_newAgentServer h
  constructor
  case own => exact fun t ht => (hs.sound t ht).returned
  case once =>
    intro k t r ht hr bs s' hbs
    exact invariant_of_run
      (I := fun (s : AgentServer) => ∃ t' : SendCall, s.sends[k]? = some t' ∧ t'.msg = t.msg ∧
        t'.point = .returned r)
      (fun _ _ _ hk h => returned_step hk h) ⟨t, ht, rfl, hr⟩ hbs
  case dropped => exact fun c ac msg hac => hs.receive_eq hac
  case unblocked => exact fun c ac k m hac => hs.deliver_isSome hac
  case drained => exact fun hret ac hac => hs.pending_eq_empty hret hac

def pingRequest : AgentMessage := ⟨"m1", .ping, ""⟩

def listRequest : AgentMessage := ⟨"m2", .other "container.list", ""⟩

/-- Two requests to one agent. The second is answered twice, and an id nobody asked for as well; the
first times out while its answer is being delivered; then the agent goes. -/
def overlappingSends : List ServerAction :=
  [.connect "node-1", .reader 0 .start,
    .send 0 pingRequest, .call 0 .register, .call 0 (.encode true),
    .send 0 listRequest, .call 1 .register, .call 1 (.encode true),
    .reader 0 (.receive ⟨"m2", .result, "[]"⟩), .reader 0 .deliver, .call 1 .takeResponse,
    .reader 0 (.receive ⟨"m2", .result, "[]"⟩), .reader 0 (.receive ⟨"m9", .result, ""⟩),
    .reader 0 (.receive ⟨"m1", .pong, ""⟩), .call 0 .contextDone, .reader 0 .deliver,
    .call 0 .withdraw, .reader 0 .leaveLoop, .reader 0 .closeConn, .reader 0 .unregister,
    .reader 0 .clearPending]

theorem send_correlated_overlappingSends : ∃ s,
    run serverStep newAgentServer overlappingSends = some s ∧
      s.sends.map SendCall.point =
        [.returned .contextDone, .returned (.response ⟨"m2", .result, "[]"⟩)] ∧ Correlated s := by
  exact exists_of_run_and (by decide +kernel) fun s hs _ => send_correlated _ s hs

end DeployMonster.Swarm
