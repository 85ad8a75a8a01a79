import VigorTls.Tls.Steps

/-!
# Alerts

`ssl3_read_bytes` collects alert bytes in a storage of two, and processes an alert when it is full,
but only after the tests for a Hello Request and for a refused ClientHello, which look at the
storage for handshake data whatever the record's type is. A refused ClientHello stays there
("`/*handshake_fragment_len = 0;*/`"), so that every alert record after it is thrown away.
-/

namespace VigorTls.Tls

open Lib List Option Prod

/-- A record is captured by what is in the storage for handshake data. -/
def captures (s : Conn) : Bool := helloRequestStored s || clientHelloRefused s

/-- The alert that a pass of a call for records of type `type` processes. -/
def passAlert (type : ℕ) (s : Conn) : Option Bytes :=
  if s.change_cipher_spec && s.rrec.type ≠ ssl3RtHandshake || s.received_shutdown ||
      type = s.rrec.type then
    none
  else
    let s := storeFragment s
    if fragmentShort s || captures s || s.alert_fragment.length < 2 then none
    else some s.alert_fragment

def Pass.conn : Pass → Conn
  | .again s | .bytes _ _ s | .ret s | .alert _ s | .handshake s => s

/-- The bytes of alerts that have come and have not been processed. -/
def Conn.alertBytes (s : Conn) : Bytes :=
  s.alert_fragment ++ if s.rrec.type = ssl3RtAlert then s.rrec.data else []

variable {s s' : Conn} {type len : ℕ} {peek : Bool} {cfg : Config} {env : ReadEnv}

theorem readPass_of_passAlert (cfg : Config) (env : ReadEnv) (len : ℕ) (peek : Bool)
    {a : Bytes} (h : passAlert type s = some a) :
    readPass cfg env type len peek s = alertReceived (storeFragment s) ∧
      a = (storeFragment s).alert_fragment := by
  unfold passAlert at h
  dsimp only at h
  split_ifs at h with hfront hback
  cases h
  simp only [Bool.or_eq_true, decide_eq_true_eq, not_or] at hfront hback
  obtain ⟨⟨hchange, hshut⟩, htype⟩ := hfront
  obtain ⟨⟨hshort, hcaptures⟩, hlen⟩ := hback
  simp only [captures, Bool.or_eq_true, not_or] at hcaptures
  refine ⟨?_, rfl⟩
  unfold readPass
  rw [if_neg hchange, if_neg hshut, if_neg htype]
  rw [if_neg hshort, dispatchRecord, if_neg hcaptures.1, if_neg hcaptures.2,
    if_pos (Nat.le_of_not_lt hlen)]

/-- A pass does not touch the storage for alerts. -/
structure Spares (s s' : Conn) : Prop where
  alert_fragment : s'.alert_fragment = s.alert_fragment
  type_eq : s'.rrec.type = s.rrec.type

theorem helloRequest_spares : Spares s (helloRequest env s).conn := by
  unfold helloRequest ssl3RenegotiateCheck clearFragment
  dsimp only
  split_ifs <;> exact ⟨rfl, rfl⟩

theorem changeCipherSpec_spares : Spares s (changeCipherSpec env s).conn := by
  have heq := acceptChangeCipherSpec_eq env s
  unfold changeCipherSpec
  split_ifs
  · exact ⟨rfl, rfl⟩
  · exact ⟨rfl, rfl⟩
  · exact ⟨rfl, rfl⟩
  · dsimp only
    split_ifs <;> exact ⟨by rw [Pass.conn, heq], by rw [Pass.conn, heq]⟩

theorem unexpectedRecord_spares : Spares s (unexpectedRecord cfg env s).conn := by
  unfold unexpectedRecord
  split_ifs <;> exact ⟨rfl, rfl⟩

theorem dispatchRecord_spares (h : s.alert_fragment.length < 2) :
    Spares s (dispatchRecord cfg env s).conn := by
  rw [dispatchRecord]
  split_ifs
  · exact helloRequest_spares
  · exact ⟨rfl, rfl⟩
  · omega
  · exact ⟨rfl, rfl⟩
  · exact changeCipherSpec_spares
  · exact ⟨rfl, rfl⟩
  · exact ⟨rfl, rfl⟩
  · exact unexpectedRecord_spares

theorem readPass_spares (cfg : Config) (env : ReadEnv) (type len : ℕ) (peek : Bool)
    (h : s.rrec.type ≠ ssl3RtAlert) (hstore : s.alert_fragment.length < 2) :
    passAlert type s = none ∧ Spares s (readPass cfg env type len peek s).conn := by
  have hs : Spares s (storeFragment s) := by
    unfold storeFragment
    split_ifs <;> exact ⟨rfl, rfl⟩
  refine ⟨?_, ?_⟩
  · unfold passAlert
    dsimp only
    rw [hs.alert_fragment]
    simp [hstore]
  have hdispatch : Spares (storeFragment s) (dispatchRecord cfg env (storeFragment s)).conn :=
    dispatchRecord_spares (hs.alert_fragment ▸ hstore)
  unfold readPass
  dsimp only
  split_ifs
  iterate 6 exact ⟨rfl, rfl⟩
  · exact hs
  · exact ⟨hdispatch.1.trans hs.1, hdispatch.2.trans hs.2⟩

theorem storeFragment_alert (h : s.rrec.type = ssl3RtAlert) :
    storeFragment s = { s with
      alert_fragment := s.alert_fragment ++
        s.rrec.data.take (min (2 - s.alert_fragment.length) s.rrec.data.length)
      rrec := { s.rrec with
        data := s.rrec.data.drop (min (2 - s.alert_fragment.length) s.rrec.data.length)
        off := s.rrec.off + min (2 - s.alert_fragment.length) s.rrec.data.length } } := by
  unfold storeFragment
  rw [if_neg (by rw [h]; decide), if_pos h]

theorem alertReceived_conn (s : Conn) :
    (alertReceived s).conn = { s with
      alert_fragment := [], received_shutdown := (alertReceived s).conn.received_shutdown } := by
  unfold alertReceived
  dsimp only
  split_ifs <;> rfl

theorem readPass_alert (cfg : Config) (env : ReadEnv) (len : ℕ) (peek : Bool)
    (htype : type ≠ ssl3RtAlert) (h : s.rrec.type = ssl3RtAlert)
    (hstore : s.alert_fragment.length < 2) (hshut : s.received_shutdown = false)
    (hcaptures : captures s = false) :
    let r := readPass cfg env type len peek s
    s.alertBytes =
        (passAlert type s).getD [] ++ r.conn.alertBytes ∧
      r.conn.alert_fragment.length < 2 ∧
      (∀ a ∈ passAlert type s, a.length = 2) ∧
      (s.change_cipher_spec = false → s.rrec.data ≠ [] →
        r.conn.rrec.data.length < s.rrec.data.length) := by
  by_cases hchange : (s.change_cipher_spec && s.rrec.type ≠ ssl3RtHandshake) = true
  · -- The record stays where it is.
    have hnone : passAlert type s = none := by
      rw [passAlert, hchange, Bool.true_or, Bool.true_or, if_pos rfl]
    have hpass : readPass cfg env type len peek s = .alert sslAdUnexpectedMessage s :=
      if_pos hchange
    rw [hnone, hpass]
    refine ⟨rfl, hstore, (by decide), fun hno => ?_⟩
    simp [hno] at hchange
  have hpass : readPass cfg env type len peek s =
      if fragmentShort (storeFragment s) then .again (storeFragment s)
      else dispatchRecord cfg env (storeFragment s) := by
    unfold readPass
    rw [if_neg hchange, if_neg (Bool.eq_false_iff.mp hshut), if_neg (h ▸ htype)]
  have halert : passAlert type s =
      if fragmentShort (storeFragment s) || captures (storeFragment s) ||
        (storeFragment s).alert_fragment.length < 2 then none
      else some (storeFragment s).alert_fragment := by
    unfold passAlert
    rw [if_neg]
    simp only [hshut, Bool.or_false, Bool.or_eq_true, not_or]
    exact ⟨hchange, by simpa [h] using htype⟩
  generalize hn : min (2 - s.alert_fragment.length) s.rrec.data.length = n
  have hs1 := storeFragment_alert h
  rw [hn] at hs1
  have hcaptures1 : captures (storeFragment s) = false := by rw [hs1]; exact hcaptures
  generalize storeFragment s = s1 at hpass halert hs1 hcaptures1
  have hbytes : s.alertBytes = s1.alert_fragment ++ s1.rrec.data := by
    rw [hs1, Conn.alertBytes, if_pos h, append_assoc, take_append_drop]
  have htype1 : s1.rrec.type = ssl3RtAlert := by rw [hs1]; exact h
  have hlen : s1.alert_fragment.length = s.alert_fragment.length + n := by
    rw [hs1, length_append, length_take_of_le (by omega)]
  have hless : s.rrec.data ≠ [] → s1.rrec.data.length < s.rrec.data.length := by
    intro hne
    have := length_pos_iff.mpr hne
    rw [hs1, length_drop]
    omega
  have hbytes1 {s' : Conn} (hf : s'.alert_fragment = []) (hr : s'.rrec = s1.rrec) :
      s'.alertBytes = s1.rrec.data := by
    rw [Conn.alertBytes, hf, hr, if_pos htype1, nil_append]
  by_cases hfull : s1.alert_fragment.length < 2
  · -- The other byte has not come yet.
    have hshort : fragmentShort s1 = true := by simp [fragmentShort, htype1, hfull]
    rw [hpass, if_pos hshort, halert, hshort]
    refine ⟨?_, hfull, (by simp), fun _ => hless⟩
    rw [hbytes, Pass.conn, Conn.alertBytes, if_pos htype1]
    rfl
  have hshort : fragmentShort s1 = false := by
    simp only [fragmentShort, htype1]
    simp [hfull]
  have hno : helloRequestStored s1 = false ∧ clientHelloRefused s1 = false := by
    simpa [captures] using hcaptures1
  have hconn := alertReceived_conn s1
  rw [hpass, hshort, if_neg (by decide), dispatchRecord, if_neg (Bool.eq_false_iff.mp hno.1),
    if_neg (Bool.eq_false_iff.mp hno.2), if_pos (Nat.le_of_not_lt hfull), halert, hshort,
    hcaptures1, decide_eq_false hfull]
  refine ⟨?_, ?_, ?_, fun _ hne => ?_⟩
  · rw [hbytes, hbytes1 (by rw [hconn]) (by rw [hconn])]
    rfl
  · rw [hconn]
    exact Nat.zero_lt_two
  · rintro a ha
    cases ha
    omega
  · rw [hconn]
    exact hless hne

/-! ## What a step processes -/

structure Look where
  type : ℕ
  len : ℕ
  peek : Bool
  env : ReadEnv
  /-- The connection, with the record. -/
  conn : Conn

def Look.pass (cfg : Config) (l : Look) : Pass := readPass cfg l.env l.type l.len l.peek l.conn

/-- The pass that a step makes, if it looks at a record. -/
def looksAt (s : Conn) (label : Label) : Option Look :=
  match label, s.pc with
  | .record answer env _, .reading _ =>
    if s.handshake_fragment ≠ [] then none
    else (fetchRecord s answer).map fun s₀ => ⟨ssl3RtHandshake, s.m.missing, false, env, s₀⟩
  | .app data len peek answer env, .out =>
    if s.in_handshake = 0 && s.state.inInit then none
    else (fetchRecord { s with in_read_app_data := data } answer).map fun s₀ =>
      ⟨if data then ssl3RtApplicationData else 0, len, peek, env, s₀⟩
  | _, _ => none

/-- The bytes of an alert record that a step opens. -/
def alertsOpened (s : Conn) (label : Label) : Bytes :=
  match looksAt s label with
  | some l => if s.rrec.data = [] ∧ l.conn.rrec.type = ssl3RtAlert then l.conn.rrec.data else []
  | none => []

/-- The alert that a step processes, with the pass that does. -/
def alertsProcessed (cfg : Config) (s : Conn) (label : Label) : List (Bytes × Pass) :=
  match looksAt s label with
  | some l => (passAlert l.type l.conn).toList.map fun a => (a, l.pass cfg)
  | none => []

/-- When a step loses no alert: the peer has not shut down, no alert record comes behind a refused
ClientHello, and the connection has not failed and is not started anew. -/
def AlertCondition (s : Conn) (label : Label) : Prop :=
  (∀ l ∈ looksAt s label, l.conn.received_shutdown = false ∧
    (l.conn.rrec.type = ssl3RtAlert → captures l.conn = false)) ∧
  match label with
  | .enter _ => s.state.inInit = true ∧ s.state ≠ .before
  | .app .. => s.state ≠ .err
  | _ => True

instance (s : Conn) (label : Label) : Decidable (AlertCondition s label) := by
  unfold AlertCondition
  cases label <;> infer_instance

theorem Move.input {whole : Bool} {o : Oracle} (h : Move whole o s s') : s'.input = s.input := by
  cases h with
  | err _ _ hinput _ => exact hinput
  | _ => exact congrArg Control.input ‹s'.control = _›

/-- Bytes of alerts wait in the record and in the storage. -/
structure Waiting (s s' : Conn) : Prop where
  alert_fragment : s'.alert_fragment = s.alert_fragment
  rrec : s'.rrec = s.rrec

theorem Waiting.of_input (h : s'.input = s.input) : Waiting s s' :=
  ⟨congrArg Input.alert_fragment h, congrArg Input.rrec h⟩

theorem Waiting.bytes (h : Waiting s s') : s'.alertBytes = s.alertBytes := by
  rw [Conn.alertBytes, h.alert_fragment, h.rrec]
  rfl

theorem enterHandshake_waiting (h : s.state.inInit = true ∧ s.state ≠ .before) :
    Waiting s (enterHandshake s) := by
  unfold enterHandshake
  dsimp only
  rw [if_neg (by simp [h.1, h.2])]
  exact ⟨rfl, rfl⟩

variable {answer : Answer} {s0 : Conn} {data : Bool} {l : Look}

theorem handshakePass_waiting (cfg : Config) (env : ReadEnv) (o : Oracle) {k : ℕ} (hs : Sound s)
    (hpc : s.pc = .reading k) (hfragment : s.handshake_fragment = [])
    (hfetch : fetchRecord s answer = some s0) :
    Waiting (readPass cfg env ssl3RtHandshake s.m.missing false s0).conn
      (handshakePass cfg answer env o k s) := by
  have hpassed := readPass_passed cfg env ssl3RtHandshake s.m.missing false s0
  unfold handshakePass handshakeRead
  rw [if_neg (not_not.mpr hfragment), hfetch]
  dsimp only
  generalize readPass cfg env ssl3RtHandshake s.m.missing false s0 = p at hpassed
  cases p with
  | again s1 => split_ifs <;> exact ⟨rfl, rfl⟩
  | ret s1 | alert al s1 | handshake s1 => exact ⟨rfl, rfl⟩
  | bytes bytes epochs s1 =>
    have hreads : ReadsTo ssl3RtHandshake s0 s1 ∧
        s1.handshake_fragment = s0.handshake_fragment := by
      cases hpassed with
      | bytes n hn htype h hf => exact ⟨h, hf⟩
      | changed _ _ _ _ hp => rcases hp with hp | hp <;> exact nomatch hp
    have heq := (fetchRecord_some hfetch).1
    have hf : Frame False s s1 := (Frame.fetch hfetch).trans (hreads.1.toFrame (.inl (by
      rw [hreads.2, heq]
      exact hfragment)))
    have hpc1 : s1.pc = .reading k := by
      rw [hreads.1.frame, heq]
      exact hpc
    exact .of_input ((hf.sound hs).feed_moved hpc1 cfg o bytes epochs).1.input

theorem readPass_handshake {s1 : Conn} (h : readPass cfg env type len peek s = .handshake s1)
    (hstate : s.in_handshake = 0 → s.state = .ok) :
    s1.state.inInit = true ∧ s1.state ≠ .before := by
  have hstore : (storeFragment s).state = s.state ∧
      (storeFragment s).in_handshake = s.in_handshake := by
    unfold storeFragment
    split_ifs <;> exact ⟨rfl, rfl⟩
  unfold readPass at h
  dsimp only at h
  obtain ⟨hst, hin⟩ := hstore
  split_ifs at h
  rw [dispatchRecord] at h
  split_ifs at h with _ _ _ _ _ hcall hok
  · unfold helloRequest ssl3RenegotiateCheck at h
    dsimp only at h
    split_ifs at h
    · obtain rfl := Pass.handshake.inj h
      exact ⟨rfl, nofun⟩
    · contradiction
  · unfold alertReceived at h
    dsimp only at h
    split_ifs at h
  · unfold changeCipherSpec at h
    dsimp only at h
    split_ifs at h
  · obtain rfl := Pass.handshake.inj h
    exact ⟨rfl, nofun⟩
  · simp only [Bool.and_eq_true, decide_eq_true_eq] at hcall
    exact absurd (hst.trans (hstate (hin.symm.trans hcall.2))) hok
  · unfold unexpectedRecord at h
    split_ifs at h

theorem fetchRecord_bytes (h : fetchRecord s answer = some s0) :
    s0.alert_fragment = s.alert_fragment ∧ s0.alertBytes = s.alertBytes ++
      if s.rrec.data = [] ∧ s0.rrec.type = ssl3RtAlert then s0.rrec.data else [] := by
  unfold fetchRecord at h
  split_ifs at h with hdata
  · cases h
    rw [if_neg fun h => hdata h.1, append_nil]
    exact ⟨rfl, rfl⟩
  obtain ⟨⟨type, b, bs⟩, -, rfl⟩ := map_eq_some_iff.mp h
  have hdata : s.rrec.data = [] := not_not.mp hdata
  refine ⟨rfl, ?_⟩
  simp only [Conn.alertBytes, hdata, true_and, ite_self, append_nil]
  rfl

theorem Look.balance (cfg : Config) (htype : l.type ≠ ssl3RtAlert)
    (hstore : l.conn.alert_fragment.length < 2) (hshut : l.conn.received_shutdown = false)
    (hcaptures : l.conn.rrec.type = ssl3RtAlert → captures l.conn = false) :
    l.conn.alertBytes = (passAlert l.type l.conn).getD [] ++ (l.pass cfg).conn.alertBytes ∧
      (l.pass cfg).conn.alert_fragment.length < 2 ∧
      ∀ a ∈ passAlert l.type l.conn, a.length = 2 := by
  by_cases halert : l.conn.rrec.type = ssl3RtAlert
  · obtain ⟨hbytes, hlen, htwo, -⟩ :=
      readPass_alert cfg l.env l.len l.peek htype halert hstore hshut (hcaptures halert)
    exact ⟨hbytes, hlen, htwo⟩
  obtain ⟨hnone, hfragment, htype⟩ := readPass_spares cfg l.env l.type l.len l.peek halert hstore
  refine ⟨?_, hfragment ▸ hstore, by rw [hnone]; nofun⟩
  have halert' : (l.pass cfg).conn.rrec.type ≠ ssl3RtAlert := fun h => halert (htype.symm.trans h)
  rw [hnone, Conn.alertBytes, Conn.alertBytes, if_neg halert, if_neg halert',
    show (l.pass cfg).conn.alert_fragment = l.conn.alert_fragment from hfragment]
  rfl

theorem step_app (hpc : s.pc = .out) :
    step cfg s (.app data len peek answer env) = if s.in_handshake = 0 && s.state.inInit then s
      else appPass cfg data len peek answer env { s with in_read_app_data := data } := by
  simp only [step, hpc]

theorem looksAt_app (hpc : s.pc = .out) :
    looksAt s (.app data len peek answer env) = if s.in_handshake = 0 && s.state.inInit then none
      else (fetchRecord { s with in_read_app_data := data } answer).map fun s0 =>
        ⟨if data then ssl3RtApplicationData else 0, len, peek, env, s0⟩ := by
  simp only [looksAt, hpc]

variable {label : Label}

theorem looksAt_data (h : looksAt s label = some l) : l.conn.rrec.data ≠ [] := by
  unfold looksAt at h
  split at h
  · split_ifs at h
    obtain ⟨s0, hfetch, rfl⟩ := map_eq_some_iff.mp h
    exact (fetchRecord_some hfetch).2.1
  · next data len peek answer env hpc =>
    split at h
    · exact nomatch h
    obtain ⟨s0, hfetch, rfl⟩ := map_eq_some_iff.mp h
    exact (fetchRecord_some hfetch).2.1
  · exact nomatch h

theorem step_looks (cfg : Config) (hs : Sound s) (hcond : AlertCondition s label)
    (h : looksAt s label = some l) :
    l.type ≠ ssl3RtAlert ∧ l.conn.alert_fragment = s.alert_fragment ∧
      l.conn.alertBytes = s.alertBytes ++ alertsOpened s label ∧
      Waiting (l.pass cfg).conn (step cfg s label) := by
  have hopened : alertsOpened s label =
      if s.rrec.data = [] ∧ l.conn.rrec.type = ssl3RtAlert then l.conn.rrec.data else [] := by
    rw [alertsOpened, h]
  rw [hopened]
  unfold looksAt at h
  split at h
  · next answer env o k hpc =>
    split_ifs at h with hfragment
    obtain ⟨s0, hfetch, rfl⟩ := map_eq_some_iff.mp h
    obtain ⟨hstore, hbytes⟩ := fetchRecord_bytes hfetch
    refine ⟨show ssl3RtHandshake ≠ ssl3RtAlert by decide, hstore, hbytes, ?_⟩
    simp only [step, hpc]
    exact handshakePass_waiting cfg env o hs hpc (not_not.mp hfragment) hfetch
  · next data len peek answer env hpc =>
    split at h
    · exact nomatch h
    next hinit =>
    obtain ⟨s0, hfetch, rfl⟩ := map_eq_some_iff.mp h
    obtain ⟨hstore, hbytes⟩ := fetchRecord_bytes hfetch
    have htype : (if data then ssl3RtApplicationData else 0) ≠ ssl3RtAlert := by
      cases data <;> decide
    refine ⟨htype, hstore, hbytes, ?_⟩
    rw [step_app hpc, if_neg hinit]
    have hstate (hin : s.in_handshake = 0) : s.state = .ok := by
      have hinit : s.state.inInit = false := by
        simpa [hin] using hinit
      cases hst : s.state with
      | ok => rfl
      | err => exact absurd hst hcond.2
      | _ => exact nomatch hst ▸ hinit
    rw [appPass, hfetch]
    dsimp only [Look.pass]
    cases hp : readPass cfg env (if data then ssl3RtApplicationData else 0) len peek s0 with
    | handshake s1 =>
      exact enterHandshake_waiting (readPass_handshake hp ((fetchRecord_some hfetch).1 ▸ hstate))
    | _ => exact ⟨rfl, rfl⟩
  · exact nomatch h

theorem step_waiting (cfg : Config) (hs : Sound s) (hcond : AlertCondition s label)
    (h : looksAt s label = none) : Waiting s (step cfg s label) := by
  unfold step
  split
  case h_1 inRead hpc =>
    have h := enterHandshake_waiting (s := { s with in_read_app_data := inRead }) hcond.2
    exact ⟨h.1, h.2⟩
  case h_2 o hpc => exact .of_input (turn_moved cfg o hs.settled).1.input
  case h_3 answer env o k hpc =>
    simp only [looksAt, hpc] at h
    split_ifs at h with hfragment
    · unfold handshakePass handshakeRead
      rw [if_pos hfragment]
      have hinput := ((hs.dropFragment s.m.missing).feed_moved hpc cfg o
        (s.handshake_fragment.take s.m.missing) (s.ghost.fragment_epochs.take s.m.missing)).1.input
      exact ⟨congrArg Input.alert_fragment hinput, congrArg Input.rrec hinput⟩
    · unfold handshakePass handshakeRead
      rw [if_neg hfragment, map_eq_none_iff.mp h]
      exact ⟨rfl, rfl⟩
  case h_4 data len peek answer env hpc =>
    rw [looksAt_app hpc] at h
    by_cases hinit : (s.in_handshake = 0 && s.state.inInit) = true
    · rw [if_pos hinit]
      exact ⟨rfl, rfl⟩
    · rw [if_neg hinit] at h ⊢
      unfold appPass
      rw [map_eq_none_iff.mp h]
      exact ⟨rfl, rfl⟩
  case h_5 hpc => exact ⟨rfl, rfl⟩
  case h_6 idle hpc =>
    unfold ssl3RenegotiateCheck
    split_ifs <;> exact ⟨rfl, rfl⟩
  case h_7 quiet hpc => split_ifs <;> exact ⟨rfl, rfl⟩
  case h_8 mode hpc => split_ifs <;> exact ⟨rfl, rfl⟩
  case h_9 => exact ⟨rfl, rfl⟩

/-! ## Runs -/

/-- The invariant of a run: the storage for alerts is never full between two steps. -/
structure Attentive (s : Conn) : Prop where
  sound : Sound s
  short : s.alert_fragment.length < 2

theorem step_balance (cfg : Config) (s : Conn) (label : Label) (h : Attentive s)
    (hcond : AlertCondition s label) :
    Attentive (step cfg s label) ∧ s.alertBytes ++ alertsOpened s label =
      (alertsProcessed cfg s label).flatMap fst ++ (step cfg s label).alertBytes := by
  have hsound := step_sound cfg label h.sound
  cases hlook : looksAt s label with
  | none =>
    have hwaiting := step_waiting cfg h.sound hcond hlook
    refine ⟨⟨hsound, hwaiting.alert_fragment ▸ h.short⟩, ?_⟩
    rw [alertsOpened, alertsProcessed, hlook, hwaiting.bytes]
    simp
  | some l =>
    obtain ⟨htype, hstore, hbytes, hwaiting⟩ := step_looks cfg h.sound hcond hlook
    obtain ⟨hshut, hcaptures⟩ := hcond.1 l hlook
    obtain ⟨hbalance, hshort, -⟩ := Look.balance cfg htype (hstore ▸ h.short) hshut hcaptures
    refine ⟨⟨hsound, hwaiting.alert_fragment ▸ hshort⟩, ?_⟩
    rw [← hbytes, hbalance, alertsProcessed, hlook, hwaiting.bytes]
    dsimp only
    generalize passAlert l.type l.conn = a
    cases a <;> simp

/-- An alert after which the peer sends nothing more. -/
def Ending (a : Bytes) : Prop :=
  (a.getD 0 0).toNat = ssl3AlWarning ∧ (a.getD 1 0).toNat = sslAdCloseNotify ∨
    (a.getD 0 0).toNat = ssl3AlFatal

theorem alertReceived_ending (h : Ending s.alert_fragment) :
    ∃ s', alertReceived s = .ret s' ∧ s'.received_shutdown = true := by
  unfold alertReceived
  rcases h with ⟨hlevel, hdescr⟩ | hlevel
  · rw [if_pos hlevel, if_pos hdescr]
    exact ⟨_, rfl, rfl⟩
  · rw [if_neg (by rw [hlevel]; decide), if_pos hlevel]
    exact ⟨_, rfl, rfl⟩

theorem step_processed (cfg : Config) (s : Conn) (label : Label) (h : Attentive s)
    (hcond : AlertCondition s label) (p : Bytes × Pass) (hp : p ∈ alertsProcessed cfg s label) :
    p.1.length = 2 ∧ (Ending p.1 → ∃ s', p.2 = .ret s' ∧ s'.received_shutdown = true) := by
  unfold alertsProcessed at hp
  cases hlook : looksAt s label with
  | none =>
    rw [hlook] at hp
    exact nomatch hp
  | some l =>
    rw [hlook] at hp
    obtain ⟨a, ha, rfl⟩ := mem_map.mp hp
    have ha : passAlert l.type l.conn = some a := mem_toList.mp ha
    obtain ⟨htype, hstore, -, -⟩ := step_looks cfg h.sound hcond hlook
    obtain ⟨hshut, hcaptures⟩ := hcond.1 l hlook
    obtain ⟨-, -, htwo⟩ := Look.balance cfg htype (hstore ▸ h.short) hshut hcaptures
    refine ⟨htwo a ha, fun hending => ?_⟩
    obtain ⟨hpass, rfl⟩ := readPass_of_passAlert cfg l.env l.len l.peek ha
    rw [show l.pass cfg = _ from hpass]
    exact alertReceived_ending hending

/-- Over every run from `SSL_ST_OK` whose steps all meet the condition, the alerts processed are the
bytes of the alert records, two by two and in order, and a close_notify or a fatal alert shuts the
connection down. A call that finds bytes of an alert record takes one at least. -/
theorem alerts_processed (cfg : Config) (s₀ : Conn) (hok : s₀.state = .ok) (hpc : s₀.pc = .out)
    (hstore : s₀.alert_fragment.length < 2) (labels : List Label)
    (h : Along (step cfg) AlertCondition s₀ labels) :
    s₀.alertBytes ++ trace (step cfg) alertsOpened s₀ labels =
        (trace (step cfg) (alertsProcessed cfg) s₀ labels).flatMap fst ++
          (run (step cfg) s₀ labels).alertBytes ∧
      (run (step cfg) s₀ labels).alert_fragment.length < 2 ∧
      (∀ p ∈ trace (step cfg) (alertsProcessed cfg) s₀ labels, p.1.length = 2 ∧
        (Ending p.1 → ∃ s, p.2 = .ret s ∧ s.received_shutdown = true)) ∧
      ∀ label l, looksAt (run (step cfg) s₀ labels) label = some l →
        AlertCondition (run (step cfg) s₀ labels) label → l.conn.rrec.type = ssl3RtAlert →
        l.conn.change_cipher_spec = false →
        (step cfg (run (step cfg) s₀ labels) label).rrec.data.length < l.conn.rrec.data.length := by
  have hstart : Attentive s₀ := ⟨⟨settled_idle (.inl (hok ▸ rfl)), .of_out hpc⟩, hstore⟩
  have hinv s label hs hcond : Attentive (step cfg s label) := (step_balance cfg s label hs hcond).1
  have hend := run_invariant hinv labels s₀ hstart h
  refine ⟨?_, hend.short, ?_, fun label l hlook hcond halert hchange => ?_⟩
  · rw [← trace_flatMap]
    exact trace_balance hinv (fun s label hs hcond => (step_balance cfg s label hs hcond).2)
      labels s₀ hstart h
  · exact trace_forall hinv (step_processed cfg) labels s₀ hstart h
  obtain ⟨htype, hstore', -, hwaiting⟩ := step_looks cfg hend.sound hcond hlook
  obtain ⟨hshut, hcaptures⟩ := hcond.1 l hlook
  rw [hwaiting.rrec]
  refine (readPass_alert cfg l.env l.len l.peek htype halert (hstore' ▸ hend.short) hshut
    (hcaptures halert)).2.2.2 hchange ?_
  exact looksAt_data hlook

def acceptRun : List Label :=
  [.enter false, .turn {}, .turn {}, .receive 22 1 [0, 0, 0],
    .turn {}, .turn {}, .turn {}, .turn {}, .turn {}, .turn {}, .turn {}, .turn {},
    .receive 22 16 [0, 0, 0], .turn {}, .turn {}, .receive 20 1 [], .receive 22 20 [0, 0, 0],
    .turn {}, .turn {}, .turn {}, .turn {}, .turn {}]

def accepted : Conn := run (step .permissive) (Conn.init true {}) acceptRun

/-- A close_notify, in two records around application data. -/
def splitAlertRun : List Label :=
  [.app true 5 false (some (21, 1, [])) {}, .app true 5 false (some (23, 7, [])) {},
    .app true 5 false (some (21, 0, [])) {}]

/-- It is processed, and the connection is shut down. -/
theorem alerts_processed_split :
    ∃ p ∈ trace (step .permissive) (alertsProcessed .permissive) accepted splitAlertRun,
      p.1 = [1, 0] ∧ ∃ s, p.2 = .ret s ∧ s.received_shutdown = true := by
  have hmem : ((trace (step .permissive) (alertsProcessed .permissive) accepted splitAlertRun).map
      fst) = [[1, 0]] := by decide +kernel
  obtain ⟨p, hp, hfst⟩ := mem_map.mp (hmem ▸ mem_singleton_self [1, 0])
  obtain ⟨-, -, hprocessed, -⟩ := alerts_processed .permissive accepted (by decide +kernel)
    (by decide +kernel) (by decide +kernel) splitAlertRun (by decide +kernel)
  exact ⟨p, hp, hfst, (hprocessed p hp).2 (.inl (by rw [hfst]; decide))⟩

/-- A ClientHello in `SSL_ST_OK`, a close_notify and a fatal alert. -/
def lostRun : List Label :=
  [.app true 5 false (some (22, 1, [0, 0, 0])) {}, .app true 5 false (some (21, 1, [0])) {},
    .app true 5 false (some (21, 2, [40])) {}]

/-- The ClientHello stays in the storage, and both alerts are thrown away. -/
theorem alerts_processed_lost : accepted.state = .ok ∧ accepted.pc = .out ∧
    trace (step .permissive) alertsOpened accepted lostRun = [1, 0, 2, 40] ∧
    (trace (step .permissive) (alertsProcessed .permissive) accepted lostRun).map fst = [] ∧
    (run (step .permissive) accepted lostRun).received_shutdown = false ∧
    (run (step .permissive) accepted lostRun).rrec.data = [] := by
  decide +kernel

end VigorTls.Tls
