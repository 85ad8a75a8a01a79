import VigorTls.Dtls.GetMessage

/-!
# The order of the messages

`dtls1_get_message` hands on the message whose number `handshake_read_seq` holds, directly from a
record or from the queue, and counts it up. The `Reader` is followed together with everything that
moves the counter and with the numbers handed on since it was last set: `fragment_numbers` for a
pass, `step_ordered` for a step. While a server listens, the counter stands still by intent.
-/

namespace VigorTls.Dtls

open Lib List

def numbersOf (queue : Pqueue HmFragment) : List ℕ := queue.map (·.data.msg_header.seq)

variable {queue : Pqueue HmFragment} {item : Pitem HmFragment}

theorem mem_numbersOf (h : item ∈ queue) :
    item.data.msg_header.seq ∈ numbersOf queue := mem_map_of_mem h

/-- The places that set `handshake_read_seq`, besides `dtls1_get_message`. -/
inductive Renumbering where
  | clear
  | listen
  /-- `dtls1_accept`, where it stops to listen. -/
  | listened
  /-- The last state of `dtls1_accept` and `dtls1_connect`. -/
  | finished
  /-- `dtls1_read_bytes`, on a HelloRequest. -/
  | helloRequest

/-- The connection afterwards, if the place can be reached. -/
def Renumbering.apply (s : MessageConn) : Renumbering → Option MessageConn
  | .clear => some { s with listen := false, handshake_read_seq := 0, buffered_messages := [] }
  | .listen =>
    if s.server then
      some { s with listen := true, handshake_read_seq := 0, buffered_messages := [] }
    else none
  | .listened => if s.listen then some { s with listen := false, handshake_read_seq := 2 } else none
  | .finished => some { s with handshake_read_seq := 0, buffered_messages := [] }
  | .helloRequest =>
    if s.server then none
    else some { s with handshake_read_seq := (s.handshake_read_seq + 1) % 2 ^ 16 }

/-- A connection, with what it has handed on. -/
structure Numbered where
  r : Reader
  /-- The number that the counter was last set to. -/
  start : ℕ
  /-- The numbers of the messages handed on since. -/
  handed : List ℕ

inductive NumberedLabel where
  | call (msg_type : Option UInt8) (max : ℕ)
  | pass (env : ReassemblyEnv) (next : NextRecord)
  /-- The rest of the program works on the other fields. -/
  | use (b : Between)
  /-- `dtls1_reset_seq_numbers`, when a ChangeCipherSpec is read. -/
  | newEpoch
  /-- The counter is set. -/
  | renumber (n : Renumbering)

def Numbered.step (t : Numbered) : NumberedLabel → Numbered
  | .call msg_type max => { t with r := (t.r.step (.call msg_type max)).1 }
  | .pass env next =>
    let (r, d) := t.r.step (.pass env next)
    { t with r := r, handed := t.handed ++ d.toList.map (·.msg_hdr.seq) }
  | .use b =>
    { t with
      r := (t.r.step (.between { b with
        listen := t.r.s.listen, handshake_read_seq := t.r.s.handshake_read_seq })).1 }
  | .newEpoch => { t with r := { t.r with s := { t.r.s with buffered_messages := [] } } }
  | .renumber n =>
    if t.r.call.isSome then t
    else
      match n.apply t.r.s with
      | none => t
      | some s => ⟨{ t.r with s := s }, s.handshake_read_seq, []⟩

def Numbered.init (server : Bool) : Numbered := ⟨Reader.init server, 0, []⟩

/-! ## What a pass does to the numbers -/

/-- Type, length and number are the same. -/
def HmHeader.Names (h h' : HmHeader) : Prop :=
  h.type = h'.type ∧ h.msg_len = h'.msg_len ∧ h.seq = h'.seq

/-- The queue is still in order, and a header that is new in it is one that `P` allows. -/
structure Adds (P : HmHeader → Prop) (queue queue' : Pqueue HmFragment) : Prop where
  sorted : Pqueue.Sorted queue → Pqueue.Sorted queue'
  new : ∀ item ∈ queue', (∃ old ∈ queue, old.data.msg_header = item.data.msg_header) ∨
    P item.data.msg_header

variable {P : HmHeader → Prop} {queue' : Pqueue HmFragment} {frag : HmFragment}

theorem Adds.of_sublist (h : queue'.Sublist queue) : Adds P queue queue' :=
  ⟨fun hs => hs.sublist h, fun item hmem => .inl ⟨item, h.subset hmem, rfl⟩⟩

theorem Adds.refl (P : HmHeader → Prop) (queue : Pqueue HmFragment) : Adds P queue queue :=
  .of_sublist (Sublist.refl _)

theorem Adds.mono {Q : HmHeader → Prop} (h : Adds P queue queue') (hPQ : ∀ hdr, P hdr → Q hdr) :
    Adds Q queue queue' :=
  ⟨h.sorted, fun item hmem => (h.new item hmem).imp_right (hPQ _)⟩

theorem Adds.after_sublist {queue'' : Pqueue HmFragment} (h : Adds P queue' queue'')
    (hsub : queue'.Sublist queue) : Adds P queue queue'' :=
  ⟨fun hs => h.sorted (hs.sublist hsub), fun item hmem =>
    (h.new item hmem).imp_left (Exists.imp fun _ hold => ⟨hsub.subset hold.1, hold.2⟩)⟩

theorem adds_insert (queue : Pqueue HmFragment) (item : Pitem HmFragment) :
    Adds (· = item.data.msg_header) queue ((pqueueInsert queue item).getD queue) := by
  cases hins : pqueueInsert queue item with
  | none => exact .refl _ _
  | some queue' =>
    refine ⟨fun hs => hs.insert hins, fun x hx => ?_⟩
    rcases mem_cons.mp ((pqueueInsert_perm hins).mem_iff.mp hx) with rfl | hmem
    · exact .inr rfl
    · exact .inl ⟨x, hmem, rfl⟩

theorem adds_update (P : HmHeader → Prop) {prio64be : Seq64}
    (hfind : pqueueFind queue prio64be = some item)
    (hfrag : frag.msg_header = item.data.msg_header) :
    Adds P queue (pqueueUpdate prio64be frag queue) := by
  refine ⟨fun hs => hs.update _ _, fun x hx => .inl ?_⟩
  rcases mem_pqueueUpdate hx with hold | ⟨-, -, rfl⟩
  · exact ⟨x, hold, rfl⟩
  · exact ⟨item, (pqueueFind_some hfind).1, hfrag.symm⟩

theorem gather_adds {h : HmHeader} {bitmask : Lib.Bitmask} {partialQueue : Pqueue HmFragment}
    {store : HmFragment → Pqueue HmFragment} (hgathered : Adds P queue partialQueue)
    (hstore : ∀ frag', frag'.msg_header = frag.msg_header → Adds P queue (store frag'))
    (rest : Bytes) :
    Adds P queue (gather h frag bitmask queue partialQueue store rest).2.1 := by
  unfold gather
  split
  · exact .refl _ _
  split
  · exact hgathered
  · exact hstore _ rfl

variable (env : ReassemblyEnv)

theorem reassemble_adds (h : HmHeader) (queue : Pqueue HmFragment) (rest : Bytes) :
    Adds h.Names queue (dtls1ReassembleFragment env h queue rest).2.1 := by
  unfold dtls1ReassembleFragment
  split
  · exact .refl _ _
  split
  · exact .refl _ _
  cases hfind : pqueueFind queue (seq64be h.seq) with
  | none =>
    refine gather_adds (.refl _ _) (fun frag hfrag => ?_) rest
    refine (adds_insert queue ⟨seq64be h.seq, frag⟩).mono fun hdr hhdr => ?_
    rw [hhdr, hfrag]
    exact ⟨rfl, rfl, rfl⟩
  | some item =>
    dsimp only
    split
    · exact .refl _ _
    cases item.data.reassembly with
    | none =>
      cases drain h.frag_len rest with
      | none => exact .refl _ _
      | some _ => exact .refl _ _
    | some bitmask =>
      refine gather_adds (adds_update _ hfind ?_) (fun frag hfrag => adds_update _ hfind hfrag) rest
      rfl

theorem outOfSeq_adds (h : HmHeader) (s : MessageConn) :
    Adds (fun hdr => h.Names hdr ∧
        s.handshake_read_seq < hdr.seq ∧ hdr.seq ≤ s.handshake_read_seq + 10)
      s.buffered_messages (dtls1ProcessOutOfSeqMessage env h s).2.buffered_messages := by
  obtain ⟨queue, rrec, heq, rfl | ⟨hrange, rfl | ⟨-, -, -, rfl⟩⟩⟩ := outOfSeq_cases env h s
  · rw [heq]
    exact .refl _ _
  · rw [heq]
    exact (reassemble_adds env h _ _).mono fun hdr hhdr => ⟨hhdr, hhdr.2.2 ▸ hrange⟩
  · rw [heq]
    exact (adds_insert s.buffered_messages _).mono fun hdr hhdr => hhdr ▸ ⟨⟨rfl, rfl, rfl⟩, hrange⟩

variable {s : MessageConn}

/-- What counts as the next message: while listening, a second ClientHello too. -/
def MessageConn.Next (s : MessageConn) (seq : ℕ) : Prop :=
  seq = s.handshake_read_seq ∨ s.listen ∧ seq = 1

/-- The counter stays, what is queued is named by the fragment and is one of the eleven next
messages, and what is delivered was queued or is named by the fragment, and is the next. -/
structure PassNumbers (s : MessageConn) (out : FragmentResult × MessageConn × Option Received) :
    Prop where
  count : SameCount s out.2.1
  adds : Adds (fun hdr => (∃ f ∈ out.2.2, f.1.Names hdr) ∧
      (s.Next hdr.seq ∨ s.handshake_read_seq < hdr.seq ∧ hdr.seq ≤ s.handshake_read_seq + 10))
    s.buffered_messages out.2.1.buffered_messages
  got : ∀ n, out.1 = .got n → s.Next out.2.1.r_msg_hdr.seq ∧
    ((∃ item ∈ s.buffered_messages, item.data.msg_header.Names out.2.1.r_msg_hdr) ∨
      ∃ f ∈ out.2.2, f.1.Names out.2.1.r_msg_hdr)

theorem fragment_numbers (next : NextRecord) (max : ℕ) (hfirst : s.r_msg_hdr.frag_off = 0) :
    PassNumbers s (dtls1GetMessageFragment env next max s) := by
  unfold dtls1GetMessageFragment
  obtain ⟨queue, hsub, heq | ⟨al, heq⟩ | ⟨item, hitem, -, hseq, heq⟩⟩ := retrieve_cases max hfirst
  · -- The queue has nothing to deliver, so a header is read.
    rw [heq]
    dsimp only
    cases hread : readHandshakeBytes next dtls1HmHeaderLength
        { s with buffered_messages := queue } with
    | error i => exact ⟨⟨rfl, rfl, rfl⟩, .of_sublist hsub, nofun⟩
    | ok p =>
      obtain ⟨wire, s'⟩ := p
      obtain ⟨fragment, rrec, hs'⟩ := readHeader_frame hread
      obtain ⟨hserver, hlisten, hseq⟩ : SameCount s s' := hs' ▸ ⟨rfl, rfl, rfl⟩
      have hfirst' : s'.r_msg_hdr.frag_off = 0 := hs' ▸ hfirst
      rw [← show s'.buffered_messages = queue by rw [hs']] at hsub
      dsimp only
      cases hwire : dtls1GetMessageHeader wire with
      | none => exact ⟨⟨hserver, hlisten, hseq⟩, .of_sublist hsub, nofun⟩
      | some h =>
        dsimp only
        split
        · exact ⟨⟨hserver, hlisten, hseq⟩, .of_sublist hsub, nofun⟩
        split
        · refine ⟨?_, ?_, nofun⟩
          · obtain ⟨queue, rrec, heq, -⟩ := outOfSeq_cases env h s'
            rw [heq]
            exact ⟨hserver, hlisten, hseq⟩
          refine ((outOfSeq_adds env h s').after_sublist hsub).mono fun hdr hhdr => ?_
          rw [hseq] at hhdr
          exact ⟨⟨_, rfl, hhdr.1⟩, .inr hhdr.2⟩
        next hin =>
        have hnext : s.Next h.seq := by
          rw [hseq, hlisten] at hin
          by_cases heq : h.seq = s.handshake_read_seq
          · exact .inl heq
          · exact .inr (of_not_not (not_and.mp hin heq))
        split
        · refine ⟨⟨hserver, hlisten, hseq⟩, ?_, nofun⟩
          exact ((reassemble_adds env h _ _).after_sublist hsub).mono fun hdr hhdr =>
            ⟨⟨_, rfl, hhdr⟩, .inl (hhdr.2.2 ▸ hnext)⟩
        obtain ⟨⟨hserver', hlisten', hseq'⟩, hbuf', -, hgot'⟩ := inPlace_cases max h hfirst'
        refine ⟨⟨hserver'.trans hserver, hlisten'.trans hlisten, hseq'.trans hseq⟩, ?_, ?_⟩
        · rw [hbuf']
          exact .of_sublist hsub
        · intro n hn
          obtain ⟨-, -, -, s'', hs''⟩ := hgot' n hn
          rw [hs'']
          exact ⟨hnext, .inr ⟨_, rfl, rfl, rfl, rfl⟩⟩
  · rw [heq]
    exact ⟨⟨rfl, rfl, rfl⟩, .of_sublist hsub, nofun⟩
  · rw [heq]
    exact ⟨⟨rfl, rfl, rfl⟩, .of_sublist hsub,
      fun _ _ => ⟨.inl hseq, .inl ⟨item, hitem, rfl, rfl, rfl⟩⟩⟩

/-! ## The order -/

/-- The numbers from `start` on, as sixteen bits hold them. -/
def countFrom (start n : ℕ) : List ℕ := (range n).map fun i => (start + i) % 2 ^ 16

theorem countFrom_succ (start n : ℕ) :
    countFrom start (n + 1) = countFrom start n ++ [(start + n) % 2 ^ 16] := by
  simp [countFrom, range_succ]

structure Numbered.Ordered (t : Numbered) : Prop where
  sound : t.r.Sound
  sorted : Pqueue.Sorted t.r.s.buffered_messages
  listening : t.r.s.listen →
    t.r.s.server ∧ t.r.s.handshake_read_seq = 0 ∧ ∀ n ∈ t.handed, n = 0 ∨ n = 1
  counting : ¬t.r.s.listen → t.handed = countFrom t.start t.handed.length ∧
    t.r.s.handshake_read_seq = (t.start + t.handed.length) % 2 ^ 16

variable {t : Numbered}

theorem Numbered.Ordered.hand (h : t.Ordered) {received : List Received}
    (hsound : Reader.Sound ⟨(finishMessage s).1, none, received⟩)
    (hsorted : Pqueue.Sorted s.buffered_messages) (hcount : SameCount t.r.s s)
    (hnext : t.r.s.Next s.r_msg_hdr.seq) :
    Numbered.Ordered ⟨⟨(finishMessage s).1, none, received⟩, t.start,
      t.handed ++ [(finishMessage s).2.msg_hdr.seq]⟩ := by
  refine ⟨hsound, hsorted, fun hlisten => ?_, fun hlisten => ?_⟩
  · have hl : s.listen = true := hlisten
    obtain ⟨hserver, hzero, hhanded⟩ := h.listening (hcount.listen ▸ hl)
    refine ⟨hcount.server.trans hserver, ?_, fun n hn => ?_⟩
    · dsimp only [finishMessage]
      rw [if_pos hl, hcount.handshake_read_seq, hzero]
    · rcases mem_append.mp hn with hn | hn
      · exact hhanded n hn
      · obtain rfl := mem_singleton.mp hn
        exact hnext.imp (fun heq => heq.trans hzero) And.right
  have hl : ¬s.listen = true := hlisten
  have hl' : ¬t.r.s.listen = true := hcount.listen ▸ hl
  obtain ⟨hhanded, hseq⟩ := h.counting hl'
  have hthis : s.r_msg_hdr.seq = (t.start + t.handed.length) % 2 ^ 16 :=
    (hnext.resolve_right fun hn => hl' hn.1).trans hseq
  rw [length_append, length_singleton]
  refine ⟨?_, ?_⟩
  · rw [countFrom_succ, ← hhanded]
    exact congrArg (fun n => t.handed ++ [n]) hthis
  · dsimp only [finishMessage]
    rw [if_neg hl, hcount.handshake_read_seq]
    omega

theorem Numbered.Ordered.keep (h : t.Ordered) {r : Reader} (hsound : r.Sound)
    (hsorted : Pqueue.Sorted r.s.buffered_messages) (hcount : SameCount t.r.s r.s) :
    Numbered.Ordered { t with r := r } := by
  refine ⟨hsound, hsorted, fun hlisten => ?_, fun hlisten => ?_⟩
  · have hl : r.s.listen = true := hlisten
    obtain ⟨hserver, hzero, hhanded⟩ := h.listening (hcount.listen ▸ hl)
    exact ⟨hcount.server.trans hserver, hcount.handshake_read_seq.trans hzero, hhanded⟩
  · have hl : ¬r.s.listen = true := hlisten
    obtain ⟨hhanded, hseq⟩ := h.counting (hcount.listen ▸ hl)
    exact ⟨hhanded, hcount.handshake_read_seq.trans hseq⟩

theorem pass_ordered (h : t.Ordered) (env : ReassemblyEnv) (next : NextRecord) :
    (t.step (.pass env next)).Ordered := by
  have hsound := step_sound h.sound (.pass env next)
  unfold Numbered.step
  unfold Reader.step at hsound ⊢
  cases hcall : t.r.call with
  | none =>
    dsimp only
    rw [Option.toList_none, map_nil, append_nil]
    exact h
  | some call =>
    obtain ⟨msg_type, max⟩ := call
    have hpass := fragment_numbers env next max (h.sound.first (hcall ▸ rfl))
    rw [hcall] at hsound
    dsimp only at hsound ⊢
    generalize hout : dtls1GetMessageFragment env next max t.r.s = out at hpass
    obtain ⟨hcount, hadds, hgot⟩ := hpass
    have hsorted := hadds.sorted h.sorted
    obtain ⟨call, heq⟩ | ⟨⟨n, hn⟩, heq⟩ := Reader.pass_cases hout msg_type
    · rw [heq] at hsound ⊢
      simpa using h.keep hsound hsorted hcount
    · rw [heq] at hsound ⊢
      exact h.hand hsound hsorted hcount (hgot n hn).1

theorem Renumbering.apply_spec {s' : MessageConn} {n : Renumbering} (h : n.apply s = some s') :
    s'.buffered_messages.Sublist s.buffered_messages ∧ ((s.listen → s.server) →
      s'.handshake_read_seq < 2 ^ 16 ∧ (s'.listen → s'.server ∧ s'.handshake_read_seq = 0)) := by
  cases n with
  | clear =>
    cases h
    exact ⟨nil_sublist _, fun _ => ⟨Nat.two_pow_pos 16, nofun⟩⟩
  | listen =>
    obtain ⟨hserver, rfl⟩ : s.server = true ∧ _ = s' := by simpa [Renumbering.apply] using h
    exact ⟨nil_sublist _, fun _ => ⟨Nat.two_pow_pos 16, fun _ => ⟨hserver, rfl⟩⟩⟩
  | listened =>
    obtain ⟨-, rfl⟩ : s.listen = true ∧ _ = s' := by simpa [Renumbering.apply] using h
    exact ⟨Sublist.refl _, fun _ => ⟨show 2 < 2 ^ 16 by decide, nofun⟩⟩
  | finished =>
    cases h
    exact ⟨nil_sublist _, fun hs => ⟨Nat.two_pow_pos 16, fun hl => ⟨hs hl, rfl⟩⟩⟩
  | helloRequest =>
    obtain ⟨hserver, rfl⟩ : s.server = false ∧ _ = s' := by simpa [Renumbering.apply] using h
    refine ⟨Sublist.refl _, fun hs => ⟨Nat.mod_lt _ (by decide), fun hl => absurd (hs hl) ?_⟩⟩
    rw [hserver]
    exact Bool.false_ne_true

theorem renumber_ordered (h : t.Ordered) (n : Renumbering) : (t.step (.renumber n)).Ordered := by
  unfold Numbered.step
  dsimp only
  split
  · exact h
  next hcall =>
  cases hap : n.apply t.r.s with
  | none => exact h
  | some s =>
    obtain ⟨hsub, hcount⟩ := Renumbering.apply_spec hap
    obtain ⟨hlt, hlisten⟩ := hcount fun hl => (h.listening hl).1
    refine ⟨⟨fun item hmem => h.sound.holds item (hsub.subset hmem), fun hc => absurd hc hcall⟩,
      h.sorted.sublist hsub, fun hl => ⟨(hlisten hl).1, (hlisten hl).2, nofun⟩, fun _ => ⟨rfl, ?_⟩⟩
    exact (Nat.mod_eq_of_lt hlt).symm

theorem step_ordered (t : Numbered) (label : NumberedLabel) (h : t.Ordered) :
    (t.step label).Ordered := by
  cases label with
  | call msg_type max =>
    have hsound := step_sound h.sound (.call msg_type max)
    refine h.keep hsound ?_ ?_ <;> unfold Reader.step <;> dsimp only <;> split_ifs
    all_goals first | exact h.sorted | exact ⟨rfl, rfl, rfl⟩
  | pass env next => exact pass_ordered h env next
  | use b =>
    have hsound := step_sound h.sound (.between { b with
      listen := t.r.s.listen, handshake_read_seq := t.r.s.handshake_read_seq })
    refine h.keep hsound ?_ ?_
    · unfold Reader.step
      dsimp only
      split
      · exact h.sorted
      · dsimp only [Between.apply]
        split
        · exact List.Pairwise.nil
        · exact h.sorted
    · unfold Reader.step
      dsimp only
      split <;> exact ⟨rfl, rfl, rfl⟩
  | newEpoch =>
    refine h.keep ⟨fun item hmem => absurd hmem not_mem_nil, h.sound.first⟩ ?_ ⟨rfl, rfl, rfl⟩
    exact List.Pairwise.nil
  | renumber n => exact renumber_ordered h n

theorem run_ordered (server : Bool) (labels : List NumberedLabel) :
    (run Numbered.step (Numbered.init server) labels).Ordered := by
  refine run_invariant_all step_ordered labels _ ⟨?_, List.Pairwise.nil, nofun, fun _ => ⟨rfl, rfl⟩⟩
  exact ⟨fun item hmem => absurd hmem not_mem_nil, nofun⟩

theorem Numbered.Ordered.distinct (h : t.Ordered) : (numbersOf t.r.s.buffered_messages).Nodup := by
  refine pairwise_map.mpr (h.sorted.imp_of_mem fun {a b} ha hb hlt heq => ?_)
  have hprio : a.priority = b.priority := by
    rw [(h.sound.holds a ha).priority, (h.sound.holds b hb).priority, heq]
  rw [hprio] at hlt
  exact lt_irrefl _ hlt

theorem Numbered.Ordered.inserts (h : t.Ordered) (label : NumberedLabel) {n : ℕ}
    (hn : n ∈ numbersOf (t.step label).r.s.buffered_messages)
    (hnew : n ∉ numbersOf t.r.s.buffered_messages) :
    t.r.s.handshake_read_seq ≤ n ∧ n ≤ t.r.s.handshake_read_seq + 10 := by
  -- What is left of the queue has no new number in it.
  have hsub {queue : Pqueue HmFragment} (hsub : queue.Sublist t.r.s.buffered_messages)
      (hn : n ∈ numbersOf queue) : t.r.s.handshake_read_seq ≤ n ∧
        n ≤ t.r.s.handshake_read_seq + 10 :=
    absurd ((hsub.map _).subset hn) hnew
  cases label with
  | call msg_type max =>
    obtain ⟨_, _, _, _, ⟨⟩, -⟩ | ⟨r', heq, -, hr', -⟩ := t.r.step_cases (.call msg_type max)
    dsimp only [Numbered.step] at hn
    rw [heq] at hn
    exact hsub hr' hn
  | pass env next =>
    obtain ⟨_, _, msg_type, max, ⟨⟩, hcall⟩ | ⟨r', heq, -, hr', -⟩ :=
      t.r.step_cases (.pass env next)
    swap
    · dsimp only [Numbered.step] at hn
      rw [heq] at hn
      exact hsub hr' hn
    have hpass := fragment_numbers env next max (h.sound.first (hcall ▸ rfl))
    have hqueue : (t.step (.pass env next)).r.s.buffered_messages =
        (dtls1GetMessageFragment env next max t.r.s).2.1.buffered_messages := by
      dsimp only [Numbered.step]
      rw [step_pass hcall]
      obtain ⟨call, heq⟩ | ⟨-, heq⟩ := Reader.pass_cases rfl msg_type
      · rw [heq]
      · rw [heq]
        rfl
    rw [hqueue] at hn
    obtain ⟨item, hitem, rfl⟩ := mem_map.mp hn
    rcases hpass.adds.new item hitem with ⟨old, hold, heq⟩ | ⟨-, (heq | ⟨hlisten, hone⟩) | hlater⟩
    · exact absurd (heq ▸ mem_numbersOf hold) hnew
    · omega
    · have := (h.listening hlisten).2.1
      omega
    · omega
  | use b =>
    obtain ⟨_, _, _, _, ⟨⟩, -⟩ | ⟨r', heq, -, hr', -⟩ := t.r.step_cases (.between { b with
      listen := t.r.s.listen, handshake_read_seq := t.r.s.handshake_read_seq })
    dsimp only [Numbered.step] at hn
    rw [heq] at hn
    exact hsub hr' hn
  | newEpoch => exact absurd hn not_mem_nil
  | renumber r =>
    unfold Numbered.step at hn
    dsimp only at hn
    split at hn
    · exact absurd hn hnew
    cases hap : r.apply t.r.s with
    | none =>
      rw [hap] at hn
      exact absurd hn hnew
    | some s =>
      rw [hap] at hn
      exact absurd (((Renumbering.apply_spec hap).1.map _).subset hn) hnew

/-- Whatever arrives: the messages handed on while not listening carry the numbers from the start
on, each once and in order; while it listens, zero or one. The entries of the queue have different
numbers, each the next or one of the ten after it when put there. -/
theorem handed_in_order (server : Bool) (labels : List NumberedLabel) :
    let t := run Numbered.step (Numbered.init server) labels
    (¬t.r.s.listen → t.handed = countFrom t.start t.handed.length) ∧
    (t.r.s.listen → ∀ n ∈ t.handed, n = 0 ∨ n = 1) ∧
    (numbersOf t.r.s.buffered_messages).Nodup ∧
    ∀ label, ∀ n ∈ numbersOf (t.step label).r.s.buffered_messages,
      n ∉ numbersOf t.r.s.buffered_messages →
      t.r.s.handshake_read_seq ≤ n ∧ n ≤ t.r.s.handshake_read_seq + 10 := by
  intro t
  have h : t.Ordered := run_ordered server labels
  exact ⟨fun hl => (h.counting hl).1, fun hl => (h.listening hl).2.2, h.distinct,
    fun label n hn hnew => h.inserts label hn hnew⟩

/-- The second of two messages arrives first, and both are handed on in order. -/
theorem handed_in_order_swapped :
    let env : ReassemblyEnv := ⟨0, fun _ => 0⟩
    let stop : NextRecord := .fail (-1) (by decide)
    let t := run Numbered.step (Numbered.init false)
      [.call none 100, .pass env (.record 11 [0, 0, 0, 0, 1, 0, 0, 0, 0, 0, 0]),
        .pass env (.record 2 [0, 0, 0, 0, 0, 0, 0, 0, 0, 0, 0]), .call none 100, .pass env stop]
    t.handed = [0, 1] ∧ t.handed = countFrom t.start t.handed.length := by
  exact ⟨by decide, (handed_in_order false _).1 (by decide)⟩

/-- A server that listens hands on two messages with the number zero. -/
theorem handed_again_listening :
    let env : ReassemblyEnv := ⟨0, fun _ => 0⟩
    let hello : NextRecord := .record 1 [0, 0, 0, 0, 0, 0, 0, 0, 0, 0, 0]
    let t := run Numbered.step (Numbered.init true)
      [.renumber .listen, .call none 100, .pass env hello, .call none 100, .pass env hello]
    t.handed = [0, 0] ∧ t.handed ≠ countFrom t.start t.handed.length := by
  exact ⟨by decide, by decide⟩

end VigorTls.Dtls
