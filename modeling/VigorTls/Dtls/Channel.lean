import VigorTls.Dtls.InOrder

/-!
# The two ends of a handshake

`dtls1_do_write` on one side, `dtls1_get_message` on the other, and between them a network that
loses, repeats and reorders what is written. A writer that tiles its message leaves no fragment
empty unless the message is (`run_solid`), and every entry of the reader's queue has the type, the
length and the number of a fragment that came (`step_named`). So a message that is delivered is one
that was sent (`delivered_sent`), and over a whole run they come in order (`delivers_in_order`).
-/

namespace VigorTls.Dtls

/-- What is read as the header and the body of a fragment was written as one of the message's. -/
def Message.Wrote (m : Message) (f : Received) : Prop :=
  ∃ (mtu link_mtu : ℕ) (header : Vector UInt8 12) (labels : List WriteLabel),
    Unspoilt (m.writer mtu link_mtu header.toList) labels ∧
    ∃ p ∈ ((m.writer mtu link_mtu header.toList).run labels).sent,
      dtls1GetMessageHeader (p.take dtls1HmHeaderLength) = some f.1 ∧
      f.2 = p.drop dtls1HmHeaderLength

open Lib List

/-! ## The writer -/

variable {m : Message} {w : Writer} {c : WriteCall} {s s' : WriteState} {frag_off : ℕ}

/-- More than a header is left to write, or will be once there is room for one. -/
def Ahead (s : WriteState) (frag_off : ℕ) : Prop :=
  dtls1HmHeaderLength < s.init_num ∨
    0 < s.init_num ∧ dtls1HmHeaderLength < s.init_off ∧ 0 < frag_off

theorem Ahead.of_rewind (h : Ahead s frag_off) :
    (rewind s frag_off = none → dtls1HmHeaderLength < s.init_num) ∧
    ∀ s' frag_off', rewind s frag_off = some (s', frag_off') →
      dtls1HmHeaderLength < s'.init_num ∧ s'.init_buf = s.init_buf ∧
        s'.init_off + s'.init_num = s.init_off + s.init_num := by
  unfold Ahead at h
  unfold rewind
  split_ifs <;> grind

/-- What was sent is longer than a header, and there is a body ahead until all is written. -/
structure Writer.Solid (w : Writer) : Prop where
  sent : ∀ p ∈ w.sent, dtls1HmHeaderLength < p.length
  ahead : w.done = false → match w.call with
    | none => dtls1HmHeaderLength < w.s.init_num
    | some c => Ahead w.s c.frag_off

theorem length_payload (frag_off : ℕ) {len : ℕ} (hle : len ≤ s.init_num)
    (hbuf : s.init_off + s.init_num ≤ s.init_buf.length) :
    let s' := placeHeader s frag_off (len - dtls1HmHeaderLength)
    ((s'.init_buf.drop s'.init_off).take len).length = len := by
  simp only [placeHeader, dtls1FixMessageHeader, overwrite, length_take, length_drop, length_append]
  omega

theorem round_solid (a : Attempt) (h : w.Solid) (hdone : w.done = false) (hcall : w.call = some c)
    (hbuf : w.s.init_off + w.s.init_num ≤ w.s.init_buf.length) :
    (dtls1DoWriteRound a w c).Solid := by
  obtain ⟨hsent, hahead⟩ := h
  have hahead := hahead hdone
  rw [hcall] at hahead
  unfold dtls1DoWriteRound
  cases hrw : rewind w.s c.frag_off with
  | none => exact ⟨hsent, fun _ => hahead.of_rewind.1 hrw⟩
  | some p =>
    obtain ⟨s, frag_off⟩ := p
    obtain ⟨hnum, hb, hsum⟩ := hahead.of_rewind.2 s frag_off hrw
    dsimp only
    cases hmtu : currMtu c.env a s.mtu with
    | none => exact ⟨hsent, fun _ => hnum⟩
    | some curr_mtu =>
      have hlen : dtls1HmHeaderLength < fragmentLen curr_mtu s ∧
          fragmentLen curr_mtu s ≤ s.init_num := by
        have hroom := currMtu_lt hmtu
        unfold fragmentLen
        split <;> omega
      dsimp only
      -- A fragment that is tried has a body.
      rw [if_neg (by omega)]
      generalize fragmentLen curr_mtu s = len at hlen
      split
      · exact ⟨hsent, fun _ => hnum⟩
      have hpay := length_payload frag_off hlen.2 (by rw [hsum, hb]; exact hbuf)
      have hoff : (placeHeader s frag_off (len - dtls1HmHeaderLength)).init_num = s.init_num := rfl
      generalize placeHeader s frag_off (len - dtls1HmHeaderLength) = s1 at hpay hoff
      rw [← hoff] at hnum hlen
      split
      · have hsent' : ∀ p ∈ w.sent ++ [(s1.init_buf.drop s1.init_off).take len],
            dtls1HmHeaderLength < p.length := by
          intro p hp
          rcases mem_append.mp hp with hp | hp
          · exact hsent p hp
          · rw [mem_singleton.mp hp]
            exact hlen.1.trans_eq hpay.symm
        have hrec : (reconstructHeader c.env s1 frag_off).init_num = s1.init_num := by
          unfold reconstructHeader
          split <;> rfl
        rw [← hrec] at hlen
        split
        · exact ⟨hsent', by rintro ⟨⟩⟩
        · refine ⟨hsent', fun _ => .inr ?_⟩
          dsimp only [dtls1FixMessageHeader]
          omega
      split
      · cases hq : dtls1QueryMtu c.env a.queried s1 with
        | none => exact ⟨hsent, fun _ => hnum⟩
        | some s2 =>
          obtain ⟨mtu, link_mtu, rfl⟩ := dtls1QueryMtu_spec hq
          exact ⟨hsent, fun _ => .inl hnum⟩
      · exact ⟨hsent, fun _ => hnum⟩

theorem step_solid {label : WriteLabel} (h : w.Solid) (hst : w.Stands m 0 false)
    (hl : ¬Spoils w label) : (w.step label).Solid ∧ (w.step label).Stands m 0 false := by
  constructor
  · cases label with
    | enter env =>
      unfold Writer.step
      dsimp only
      split
      · exact h
      next hidle =>
      simp only [Bool.or_eq_true, not_or, Bool.not_eq_true, Option.isSome_eq_false_iff,
        Option.isNone_iff_eq_none] at hidle
      have hahead := h.ahead hidle.1.1
      rw [hidle.2] at hahead
      unfold dtls1DoWriteEnter
      split
      · exact h
      next s hs =>
      obtain ⟨mtu, link_mtu, rfl⟩ := dtls1QueryMtu_spec hs
      split
      · refine ⟨h.sent, fun _ => ?_⟩
        dsimp only
        rw [hidle.2]
        exact hahead
      · exact ⟨h.sent, fun _ => .inl hahead⟩
    | round a =>
      unfold Writer.step
      cases hcall : w.call with
      | none => exact h
      | some c =>
        have hdone : w.done = false := by
          by_contra hd
          unfold Writer.Stands at hst
          rw [if_pos (Bool.not_eq_false _ ▸ hd), hcall] at hst
          cases hst.1
        have hP := ((stands_iff hdone).mp hst).1
        exact round_solid a h hdone hcall (by rw [hP.sum, hP.buf])
  · obtain ⟨drift, spoilt, hst', hiff⟩ := step_stands label hst
    obtain ⟨rfl, rfl⟩ := hiff.mpr ⟨⟨rfl, rfl⟩, hl⟩
    exact hst'

theorem run_solid (labels : List WriteLabel) (h : w.Solid) (hst : w.Stands m 0 false)
    (hu : Unspoilt w labels) : (w.run labels).Solid := by
  induction labels generalizing w with
  | nil => exact h
  | cons label labels ih =>
    obtain ⟨h', hst'⟩ := step_solid h hst hu.1
    exact ih h' hst' hu.2

theorem Message.Tiles.mem {p : Bytes} : ∀ {ps : List Bytes} {off stop : ℕ},
    m.Tiles off ps stop → p ∈ ps → ∃ off n, off + n ≤ m.body.length ∧ p = m.fragment off n
  | q :: ps, off, stop, ⟨n, hn, hq, hps⟩, hp => by
    rcases mem_cons.mp hp with rfl | hp
    · exact ⟨off, n, hn, hq⟩
    · exact hps.mem hp

theorem beNat_l2n3 {n : ℕ} (h : n < 2 ^ 24) : beNat (l2n3 n) = n := by
  simp only [l2n3, beNat, length_cons, length_nil, UInt8.toNat_ofNat']
  omega

theorem getMessageHeader_fragment (m : Message) {off n : ℕ} (hle : off + n ≤ m.body.length) :
    dtls1GetMessageHeader ((m.fragment off n).take dtls1HmHeaderLength) =
      some ⟨m.type, m.body.length, m.seq, off, n⟩ := by
  have hlen := m.length_lt
  have hseq : beNat (s2n m.seq) = m.seq := by
    have hlt := m.seq_lt
    simp only [s2n, beNat, length_cons, length_nil, UInt8.toNat_ofNat']
    omega
  have heq : dtls1GetMessageHeader ((m.fragment off n).take dtls1HmHeaderLength) =
      some ⟨m.type, beNat (l2n3 m.body.length), beNat (s2n m.seq), beNat (l2n3 off),
        beNat (l2n3 n)⟩ := rfl
  rw [heq, hseq, beNat_l2n3 hlen, beNat_l2n3 (by omega), beNat_l2n3 (by omega)]

theorem Message.Wrote.eq {f : Received} (h : m.Wrote f) : ∃ off n, off + n ≤ m.body.length ∧
    (n = 0 → m.body.length = 0) ∧
    f = (⟨m.type, m.body.length, m.seq, off, n⟩, (m.body.drop off).take n) := by
  obtain ⟨mtu, link_mtu, header, labels, hu, p, hp, hhdr, hbody⟩ := h
  have hst := writer_stands m mtu link_mtu header
  obtain ⟨stop, htiles⟩ : ∃ stop, m.Tiles 0 ((m.writer mtu link_mtu header.toList).run labels).sent
      stop := by
    obtain ⟨drift, spoilt, hst', hiff⟩ := run_stands labels hst
    obtain ⟨rfl, rfl⟩ := hiff.mpr ⟨⟨rfl, rfl⟩, hu⟩
    unfold Writer.Stands at hst'
    split at hst'
    · exact ⟨_, hst'.2.2.2 rfl⟩
    · exact ⟨_, (hst'.1.exact rfl).2⟩
  obtain ⟨off, n, hle, rfl⟩ := htiles.mem hp
  rw [getMessageHeader_fragment m hle] at hhdr
  refine ⟨off, n, hle, fun hz => ?_, Prod.ext (Option.some.inj hhdr).symm hbody⟩
  -- A message with a body leaves no fragment empty.
  by_contra hne
  have hsolid : (m.writer mtu link_mtu header.toList).Solid := by
    refine ⟨by rintro _ ⟨⟩, fun _ => ?_⟩
    show _ < m.body.length + dtls1HmHeaderLength
    omega
  have hlen := (run_solid labels hsolid hst hu).sent _ hp
  rw [fragment_length m hle] at hlen
  omega

/-! ## The reader -/

/-- Type, length and number of a header are those of a fragment that was received. -/
def Named (received : List Received) (h : HmHeader) : Prop :=
  ∃ f ∈ received, f.1.Names h

/-- So they are for every entry of a queue. -/
def AllNamed (received : List Received) (queue : Pqueue HmFragment) : Prop :=
  ∀ item ∈ queue, Named received item.data.msg_header

variable {received : List Received} {conn : MessageConn}

/-- What a pass reads names the entries of the queue and the message that it delivers. -/
theorem fragment_named (env : ReassemblyEnv) (next : NextRecord) (max : ℕ)
    (hq : AllNamed received conn.buffered_messages) (hfirst : conn.r_msg_hdr.frag_off = 0) :
    let out := dtls1GetMessageFragment env next max conn
    AllNamed (out.2.2.toList ++ received) out.2.1.buffered_messages ∧
      ∀ n, out.1 = .got n → Named (out.2.2.toList ++ received) out.2.1.r_msg_hdr := by
  intro out
  have hpass : PassNumbers conn out := fragment_numbers env next max hfirst
  have hnew {h : HmHeader} (hf : ∃ f ∈ out.2.2, f.1.Names h) :
      Named (out.2.2.toList ++ received) h :=
    hf.imp fun f hf => ⟨mem_append_left _ (Option.mem_toList.mpr hf.1), hf.2⟩
  have hold {item : Pitem HmFragment} (hitem : item ∈ conn.buffered_messages) :
      Named (out.2.2.toList ++ received) item.data.msg_header :=
    (hq item hitem).imp fun f hf => ⟨mem_append_right _ hf.1, hf.2⟩
  refine ⟨fun item hmem => ?_, fun n hn => ?_⟩
  · rcases hpass.adds.new item hmem with ⟨old, hitem, heq⟩ | ⟨hf, -⟩
    · exact heq ▸ hold hitem
    · exact hnew hf
  · rcases (hpass.got n hn).2 with ⟨item, hitem, htype, hlen, hseq⟩ | hf
    · obtain ⟨f, hf, htype', hlen', hseq'⟩ := hold hitem
      exact ⟨f, hf, htype'.trans htype, hlen'.trans hlen, hseq'.trans hseq⟩
    · exact hnew hf

variable {r : Reader}

theorem step_named (hs : r.Sound) (hq : AllNamed r.received r.s.buffered_messages)
    (label : ReaderLabel) :
    AllNamed (r.step label).1.received (r.step label).1.s.buffered_messages ∧
    ∀ d, (r.step label).2 = some d → Named (r.step label).1.received d.msg_hdr := by
  obtain ⟨env, next, msg_type, max, rfl, hcall⟩ | ⟨r', heq, hrec, hsub, -⟩ := r.step_cases label
  · rw [step_pass hcall]
    obtain ⟨hq', hgot⟩ := fragment_named env next max hq (hs.first (hcall ▸ rfl))
    obtain ⟨call, heq⟩ | ⟨⟨n, hn⟩, heq⟩ := Reader.pass_cases (r := r)
      (rfl : dtls1GetMessageFragment env next max r.s = _) msg_type
    · rw [heq]
      exact ⟨hq', by rintro _ ⟨⟩⟩
    · rw [heq]
      refine ⟨hq', fun d hd => ?_⟩
      cases hd
      exact hgot n hn
  · rw [heq]
    exact ⟨hrec ▸ fun item hmem => hq item (hsub.subset hmem), by rintro _ ⟨⟩⟩

theorem finishMessage_hashed (s : MessageConn) :
    let d := (finishMessage s).2
    d.hashed = dtls1WriteMessageHeader
      { d.msg_hdr with frag_off := 0, frag_len := d.msg_hdr.msg_len } ++ d.body := by
  intro d
  refine (take_append_drop dtls1HmHeaderLength _).symm.trans (congrArg (· ++ d.body) ?_)
  simp only [d, finishMessage, overwrite, take_zero, nil_append, take_take]
  rw [Nat.min_eq_left (Nat.le_add_left _ _)]
  exact take_left' rfl

theorem delivered_cases {label : ReaderLabel} {d : Delivery} (hs : r.Sound)
    (hd : (r.step label).2 = some d) : (∃ s, d = (finishMessage s).2) ∧
    ((∀ f ∈ (r.step label).1.received, f.1.frag_len = 0 → f.1.msg_len = 0) →
      d.Complete (r.step label).1.received) := by
  obtain ⟨env, next, msg_type, max, rfl, hcall⟩ | ⟨r', heq, -⟩ := r.step_cases label
  swap
  · rw [heq] at hd
    cases hd
  rw [step_pass hcall] at hd ⊢
  have hiff := (pass_sound hs hcall env next).2 d hd
  obtain ⟨call, heq⟩ | ⟨-, heq⟩ := Reader.pass_cases (r := r)
    (rfl : dtls1GetMessageFragment env next max r.s = _) msg_type
  · rw [heq] at hd
    cases hd
  rw [heq] at hd
  refine ⟨⟨_, (Option.some.inj hd).symm⟩, fun hnone => hiff.mpr ?_⟩
  rintro ⟨f, hf, hzero, hpos⟩
  rw [heq] at hnone
  exact hpos.ne' (hnone f (mem_append_left _ (Option.mem_toList.mpr hf)) hzero)

theorem delivered_sent {msgs : List Message}
    (hdistinct : ∀ m ∈ msgs, ∀ m' ∈ msgs, m.seq = m'.seq → m = m') (hs : r.Sound)
    (hq : AllNamed r.received r.s.buffered_messages) {label : ReaderLabel} {d : Delivery}
    (hd : (r.step label).2 = some d)
    (hwrote : ∀ f ∈ (r.step label).1.received, ∃ m ∈ msgs, m.Wrote f) :
    ∃ m ∈ msgs, d.msg_hdr.seq = m.seq ∧ d.hashed = m.fragment 0 m.body.length ∧
      d.init_num = m.body.length := by
  obtain ⟨-, hnamed⟩ := step_named hs hq label
  obtain ⟨⟨s, hfin⟩, hcomplete⟩ := delivered_cases hs hd
  obtain ⟨f, hf, htype, hlen, hseq⟩ := hnamed d hd
  obtain ⟨m, hm, hfm⟩ := hwrote f hf
  obtain ⟨off, n, -, -, rfl⟩ := hfm.eq
  dsimp only at htype hlen hseq
  have hc := hcomplete fun g hg hzero => by
    obtain ⟨m', -, hgm⟩ := hwrote g hg
    obtain ⟨off, n, -, hne, rfl⟩ := hgm.eq
    exact hne hzero
  -- Whatever fragment a byte came with, it was one of this message.
  have hbody : d.body = m.body := by
    refine ext_getElem? fun i => ?_
    rcases Nat.lt_or_ge i m.body.length with hi | hi
    · obtain ⟨b, hb, g, hg, hgseq, -, hcov, hgb⟩ := hc.carried i (hlen ▸ hi)
      obtain ⟨m', hm', hgm⟩ := hwrote g hg
      obtain ⟨off, n, hle, -, rfl⟩ := hgm.eq
      obtain rfl : m' = m := hdistinct m' hm' m hm (hgseq.trans hseq.symm)
      obtain ⟨hoff, hlt⟩ : off ≤ i ∧ i < off + n := hcov
      dsimp only at hgb
      rw [getElem?_take_of_lt (by omega), getElem?_drop, Nat.add_sub_cancel' hoff] at hgb
      exact hb.trans hgb.symm
    · rw [getElem?_eq_none hi, getElem?_eq_none (by rw [hc.length, ← hlen]; exact hi)]
  refine ⟨m, hm, hseq.symm, ?_, hc.init_num.trans hlen.symm⟩
  have hhashed := finishMessage_hashed s
  rw [← hfin] at hhashed
  dsimp only at hhashed
  rw [hhashed, hbody, ← htype, ← hlen, ← hseq]
  simp [Message.fragment]

/-! ## The exchange -/

/-- What a step hands on. -/
def Numbered.delivered (t : Numbered) : NumberedLabel → List Delivery
  | .pass env next => (t.r.step (.pass env next)).2.toList
  | _ => []

variable {t : Numbered} {label : NumberedLabel}

theorem step_frame (hs : t.r.Sound) (hn : ∀ n, label ≠ .renumber n) :
    (t.step label).start = t.start ∧ (t.step label).r.s.listen = t.r.s.listen ∧
      t.r.received ⊆ (t.step label).r.received := by
  unfold Numbered.step
  cases label with
  | renumber n => exact absurd rfl (hn n)
  | newEpoch => exact ⟨rfl, rfl, Subset.refl _⟩
  | pass env next =>
    refine ⟨rfl, ?_⟩
    cases hcall : t.r.call with
    | none =>
      unfold Reader.step
      rw [hcall]
      exact ⟨rfl, Subset.refl _⟩
    | some call =>
      obtain ⟨msg_type, max⟩ := call
      have hcount := (fragment_numbers env next max (hs.first (hcall ▸ rfl))).count
      dsimp only
      rw [step_pass hcall]
      obtain ⟨call, heq⟩ | ⟨-, heq⟩ := Reader.pass_cases (r := t.r)
        (rfl : dtls1GetMessageFragment env next max t.r.s = _) msg_type <;>
      · rw [heq]
        exact ⟨hcount.listen, subset_append_right _ _⟩
  | _ =>
    refine ⟨rfl, ?_⟩
    unfold Reader.step
    dsimp only
    split_ifs <;> exact ⟨rfl, Subset.refl _⟩

variable (msgs : List Message)

/-- The connection has delivered `ds`: if it was sent nothing else, the first of the messages. -/
structure Exchange (t : Numbered) (ds : List Delivery) : Prop where
  ordered : t.Ordered
  named : AllNamed t.r.received t.r.s.buffered_messages
  start : t.start = 0 ∧ t.r.s.listen = false
  handed : t.handed = ds.map (·.msg_hdr.seq)
  sent : (∀ f ∈ t.r.received, ∃ m ∈ msgs, m.Wrote f) → ds.map (fun d => (d.hashed, d.init_num)) =
    (msgs.take ds.length).map fun m => (m.fragment 0 m.body.length, m.body.length)

section

variable {msgs} {ds : List Delivery}
  (hseq : ∀ (i : ℕ) (m : Message), msgs[i]? = some m → m.seq = i) (hlen : msgs.length < 2 ^ 16)

include hseq hlen

/-- The number that the counter calls for is that of the first message not yet delivered. -/
theorem Exchange.next {d : Delivery} (h : t.Ordered) (hstart : t.start = 0 ∧ t.r.s.listen = false)
    (hhanded : t.handed = (ds ++ [d]).map (·.msg_hdr.seq)) (hle : ds.length ≤ msgs.length)
    {m : Message} (hm : m ∈ msgs) (hdm : d.msg_hdr.seq = m.seq) : msgs[ds.length]? = some m := by
  obtain ⟨i, hi⟩ := mem_iff_getElem?.mp hm
  have hcount := (h.counting (by rw [hstart.2]; exact Bool.false_ne_true)).1
  rw [hhanded, hstart.1, length_map, length_append, length_singleton, countFrom_succ, map_append,
    zero_add, Nat.mod_eq_of_lt (hle.trans_lt hlen), map_singleton, hdm, hseq i m hi] at hcount
  obtain rfl := singleton_inj.mp (append_inj' hcount rfl).2
  exact hi

theorem Exchange.step (h : Exchange msgs t ds) (hn : ∀ n, label ≠ .renumber n) :
    Exchange msgs (t.step label) (ds ++ t.delivered label) := by
  have hs := h.ordered.sound
  have hord := step_ordered t label h.ordered
  obtain ⟨hstart, hlisten, hsub⟩ := step_frame hs hn
  replace hstart := And.intro (hstart.trans h.start.1) (hlisten.trans h.start.2)
  have hsent := fun (hwrote : ∀ f ∈ (t.step label).r.received, ∃ m ∈ msgs, m.Wrote f) =>
    h.sent fun f hf => hwrote f (hsub hf)
  -- Only a pass hands anything on.
  have hkeep (hnamed : AllNamed (t.step label).r.received (t.step label).r.s.buffered_messages)
      (hhanded : (t.step label).handed = t.handed) :
      Exchange msgs (t.step label) (ds ++ []) := by
    rw [append_nil]
    exact ⟨hord, hnamed, hstart, hhanded.trans h.handed, hsent⟩
  cases label with
  | call _ _ | use _ => exact hkeep (step_named hs h.named _).1 rfl
  | newEpoch => exact hkeep (by rintro _ ⟨⟩) rfl
  | renumber n => exact absurd rfl (hn n)
  | pass env next =>
    have hnamed := (step_named hs h.named (.pass env next)).1
    have hhanded : (t.step (.pass env next)).handed =
      t.handed ++ (t.r.step (.pass env next)).2.toList.map (·.msg_hdr.seq) := rfl
    unfold Numbered.delivered
    dsimp only
    cases hd : (t.r.step (.pass env next)).2 with
    | none => exact hkeep hnamed (by rw [hhanded, hd]; exact append_nil _)
    | some d =>
      rw [hd, h.handed, ← map_append] at hhanded
      refine ⟨hord, hnamed, hstart, hhanded, fun hwrote => ?_⟩
      specialize hsent hwrote
      obtain ⟨m, hm, hdm, hhashed, hnum⟩ := delivered_sent (fun m hm m' hm' heq => by
        obtain ⟨i, hi⟩ := mem_iff_getElem?.mp hm
        obtain ⟨j, hj⟩ := mem_iff_getElem?.mp hm'
        rw [hseq i m hi, hseq j m' hj] at heq
        exact Option.some.inj (hi.symm.trans (heq ▸ hj))) hs h.named hd hwrote
      have hnext := Exchange.next hseq hlen hord hstart hhanded
        (by simpa using congrArg length hsent) hm hdm
      rw [Option.toList_some, length_append, length_singleton, take_add_one, hnext, map_append,
        map_append, hsent]
      simp [hhashed, hnum]

theorem Exchange.run : ∀ (labels : List NumberedLabel) {t : Numbered} {ds : List Delivery},
    Exchange msgs t ds → (∀ label ∈ labels, ∀ n, label ≠ .renumber n) →
    Exchange msgs (run Numbered.step t labels)
      (ds ++ trace Numbered.step Numbered.delivered t labels)
  | [], _, _, h, _ => (append_nil _).symm ▸ h
  | label :: labels, t, ds, h, hn => by
    rw [trace, ← append_assoc]
    exact Exchange.run labels (h.step hseq hlen (hn label mem_cons_self))
      fun l hl => hn l (mem_cons_of_mem _ hl)

end

/-- Two ends and any network between them: if all that was received as fragments was written as
fragments of the messages numbered from zero, then the messages delivered are the first of them,
each once and in order. Each comes with its length, and is hashed as if in one piece. -/
theorem delivers_in_order (msgs : List Message)
    (hseq : ∀ (i : ℕ) (m : Message), msgs[i]? = some m → m.seq = i)
    (hlen : msgs.length < 2 ^ 16) (server : Bool) (labels : List NumberedLabel)
    (hn : ∀ label ∈ labels, ∀ n, label ≠ .renumber n)
    (hwrote : ∀ f ∈ (run Numbered.step (.init server) labels).r.received, ∃ m ∈ msgs, m.Wrote f) :
    let ds := trace Numbered.step Numbered.delivered (.init server) labels
    ds.map (fun d => (d.hashed, d.init_num)) =
      (msgs.take ds.length).map fun m => (m.fragment 0 m.body.length, m.body.length) := by
  have hinit : Exchange msgs (.init server) [] :=
    ⟨run_ordered server [], by rintro _ ⟨⟩, ⟨rfl, rfl⟩, rfl, fun _ => rfl⟩
  exact (hinit.run hseq hlen labels hn).sent hwrote

/-- Two messages of two bytes, the second of which arrives first. -/
theorem delivers_in_order_swapped :
    let env : ReassemblyEnv := ⟨0, fun _ => 0⟩
    let m (seq : Fin 2) : Message := ⟨1, seq, [7, 8], by omega, by decide⟩
    let labels : List NumberedLabel :=
      [.call none 100, .pass env (.record 1 [0, 0, 2, 0, 1, 0, 0, 0, 0, 0, 2, 7, 8]),
        .pass env (.record 1 [0, 0, 2, 0, 0, 0, 0, 0, 0, 0, 2, 7, 8]),
        .call none 100, .pass env (.fail 0 (by decide))]
    let ds := trace Numbered.step Numbered.delivered (.init true) labels
    ds.map (fun d => (d.hashed, d.init_num)) =
      [m 0, m 1].map fun m => (m.fragment 0 m.body.length, m.body.length) := by
  intro env m labels
  have hwrote (seq : Fin 2) : (m seq).Wrote (⟨1, 2, seq, 0, 2⟩, [7, 8]) := by
    refine ⟨241, 0, .replicate 12 0, [.enter exampleWriteEnv, .round writeOk],
      ⟨id, ?_, trivial⟩, ?_⟩
    · rintro ⟨-, -, -, -, -, -, -, -, -, hw, -⟩
      cases hw
    · revert seq
      decide +kernel
  refine delivers_in_order [m 0, m 1] ?_ (by decide) true labels (by simp [labels]) fun f hf => ?_
  · rintro (_ | _ | i) m' ⟨⟩ <;> rfl
  rcases mem_pair.mp hf with rfl | rfl
  · exact ⟨m 0, by simp, hwrote 0⟩
  · exact ⟨m 1, by simp, hwrote 1⟩

end VigorTls.Dtls
