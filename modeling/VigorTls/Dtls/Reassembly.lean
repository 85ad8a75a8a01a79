import Mathlib.Data.List.Induction
import VigorTls.Lib.Bitmask
import VigorTls.Pqueue
import VigorTls.Dtls.Fragment

/-!
# Putting a handshake message together

`dtls1_reassemble_fragment` of `ssl/d1_both.c`, with the macros that keep track of which bytes have
arrived. Memory that `malloc` returns holds arbitrary bytes. An entry of the queue is known by the
bytes it has gathered (`Gathers`), and `reassembly_exact` says when it is complete.
-/

namespace VigorTls.Dtls

open Lib Nat Option

def bitmaskStartValues : Vector (BitVec 8) 8 := #v[0xff, 0xfe, 0xfc, 0xf8, 0xf0, 0xe0, 0xc0, 0x80]

def bitmaskEndValues : Vector (BitVec 8) 8 := #v[0xff, 0x01, 0x03, 0x07, 0x0f, 0x1f, 0x3f, 0x7f]

def rsmblyBitmaskSize (msg_len : ℕ) : ℕ := (msg_len + 7) / 8

/-- An entry of a table of eight, for the low three bits of a number. -/
def entry (table : Vector (BitVec 8) 8) (n : ℕ) : BitVec 8 :=
  table.get ⟨n % 8, mod_lt _ (by decide)⟩

variable (bitmask : Bitmask) (msg_hdr : HmHeader)

def rsmblyBitmaskMark (start stop : ℕ) : Bitmask :=
  if stop - start ≤ 8 then
    (List.range' start (stop - start)).foldl
      (fun bitmask ii => bitmask.orAt (ii / 8) ((1 : BitVec 8) <<< (ii % 8))) bitmask
  else
    let bitmask := bitmask.orAt (start / 8) (entry bitmaskStartValues start)
    let bitmask := (List.range' (start / 8 + 1) ((stop - 1) / 8 - (start / 8 + 1))).foldl
      Bitmask.fillAt bitmask
    bitmask.orAt ((stop - 1) / 8) (entry bitmaskEndValues stop)

def rsmblyBitmaskIsComplete (msg_len : ℕ) : Bool :=
  bitmask.getD ((msg_len - 1) / 8) 0 == entry bitmaskEndValues msg_len &&
    (List.range ((msg_len - 1) / 8)).all fun ii => bitmask.getD ii 0 == 0xff

theorem entry_start (n : ℕ) {j : ℕ} (hj : j < 8) :
    (entry bitmaskStartValues n).getLsbD j = decide (n % 8 ≤ j) := by
  have h : ∀ a : Fin 8, ∀ b < 8, (bitmaskStartValues.get a).getLsbD b = decide (a.val ≤ b) := by
    decide
  exact h ⟨n % 8, mod_lt _ (by decide)⟩ j hj

theorem entry_end {n : ℕ} (hn : 0 < n) {j : ℕ} (hj : j < 8) :
    (entry bitmaskEndValues n).getLsbD j = decide (8 * ((n - 1) / 8) + j < n) := by
  have h : ∀ a : Fin 8, ∀ b < 8, (bitmaskEndValues.get a).getLsbD b
      = decide (a.val = 0 ∨ b < a.val) := by decide
  refine (h ⟨n % 8, mod_lt _ (by decide)⟩ j hj).trans (decide_eq_decide.mpr ?_)
  dsimp only
  omega

theorem bit_mark {start stop : ℕ} (hlt : start < stop)
    (hlen : (stop - 1) / 8 < bitmask.length) (i : ℕ) :
    (rsmblyBitmaskMark bitmask start stop).bit i =
      (bitmask.bit i || decide (start ≤ i ∧ i < stop)) ∧
      (rsmblyBitmaskMark bitmask start stop).length = bitmask.length := by
  unfold rsmblyBitmaskMark
  split
  · -- The short path, one number at a time.
    obtain ⟨hbit, hl⟩ := Bitmask.bit_foldl_orAt i (List.range' start (stop - start)) bitmask
      fun j hj => by
        rw [List.mem_range'_1] at hj
        omega
    refine ⟨?_, hl⟩
    rw [hbit]
    congr 1
    exact decide_eq_decide.mpr (by rw [List.mem_range'_1]; omega)
  -- The long path: the first byte from `start` on, the bytes between, and the last byte to `stop`.
  have hs : start / 8 < bitmask.length := by omega
  obtain ⟨hbit, hl⟩ := Bitmask.bit_foldl_fillAt i
    (List.range' (start / 8 + 1) ((stop - 1) / 8 - (start / 8 + 1)))
    (bitmask.orAt (start / 8) (entry bitmaskStartValues start)) fun k hk => by
      rw [List.mem_range'_1] at hk
      rw [Bitmask.length_orAt]
      omega
  rw [Bitmask.length_orAt] at hl
  refine ⟨?_, (Bitmask.length_orAt ..).trans hl⟩
  have hmod : i % 8 < 8 := mod_lt _ (by decide)
  rw [Bitmask.bit_orAt _ _ _ _ (by omega), hbit, Bitmask.bit_orAt _ _ _ _ hs, entry_start _ hmod,
    entry_end (by omega) hmod, Bool.or_assoc, Bool.or_assoc]
  congr 1
  rw [← Bool.decide_and, ← Bool.decide_and, ← Bool.decide_or, ← Bool.decide_or]
  exact decide_eq_decide.mpr (by rw [List.mem_range'_1]; omega)

theorem isComplete_iff {msg_len : ℕ} (hpos : 0 < msg_len)
    (hpad : ∀ i, msg_len ≤ i → bitmask.bit i = false) :
    rsmblyBitmaskIsComplete bitmask msg_len = true ↔ ∀ i < msg_len, bitmask.bit i = true := by
  have hff : ∀ j < 8, (0xff : BitVec 8).getLsbD j = true := by decide
  unfold rsmblyBitmaskIsComplete
  rw [Bool.and_eq_true, beq_iff_eq, List.all_eq_true]
  simp only [beq_iff_eq, Bitmask.getD_eq_iff, List.mem_range]
  constructor
  · rintro ⟨hlast, hfull⟩ i hi
    rcases Nat.lt_or_ge (i / 8) ((msg_len - 1) / 8) with hk | hk
    · have h := hfull _ hk (i % 8) (mod_lt _ (by decide))
      rw [div_add_mod, hff _ (mod_lt _ (by decide))] at h
      exact h
    have hk' : i / 8 = (msg_len - 1) / 8 := by omega
    have h := hlast (i % 8) (mod_lt _ (by decide))
    rw [entry_end hpos (mod_lt _ (by decide)), ← hk', div_add_mod] at h
    rw [h]
    exact decide_eq_true hi
  · intro hall
    refine ⟨fun j hj => ?_, fun k hk j hj => ?_⟩
    · rw [entry_end hpos hj]
      rcases Nat.lt_or_ge (8 * ((msg_len - 1) / 8) + j) msg_len with h | h
      · rw [hall _ h, decide_eq_true h]
      · rw [hpad _ h, decide_eq_false (not_lt.mpr h)]
    · rw [hff j hj]
      exact hall _ (by omega)

abbrev dtls1HmFragmentRetry : ℤ := -3

structure HmFragment where
  msg_header : HmHeader
  /-- The bytes of the message. -/
  fragment : Bytes
  /-- Which of them have arrived, until all have. -/
  reassembly : Option Bitmask

/-- What reassembly depends on from outside. -/
structure ReassemblyEnv where
  max_cert_list : ℕ
  /-- The bytes that fresh memory holds. -/
  junk : ℕ → UInt8

/-- The priority of a message: its sequence number in the last two of eight bytes. -/
def seq64be (seq : ℕ) : Seq64 := #v[0, 0, 0, 0, 0, 0, UInt8.ofNat (seq / 256), UInt8.ofNat seq]

variable (env : ReassemblyEnv)

def dtls1MaxHandshakeMessageLen : ℕ :=
  if dtls1HmHeaderLength + ssl3RtMaxEncryptedLength < env.max_cert_list then env.max_cert_list
  else dtls1HmHeaderLength + ssl3RtMaxEncryptedLength

/-- `dtls1_hm_fragment_new`, with the header that the caller fills in. -/
def dtls1HmFragmentNew (msg_hdr : HmHeader) : HmFragment where
  msg_header := { msg_hdr with frag_len := msg_hdr.msg_len, frag_off := 0 }
  fragment := (List.range msg_hdr.msg_len).map env.junk
  reassembly := some (List.replicate (rsmblyBitmaskSize msg_hdr.msg_len) 0)

/-- The loop that forgets the rest of a fragment, 256 bytes at a time. `none` is a failed read. -/
def drain (frag_len : ℕ) (rest : Bytes) : Option Bytes :=
  if frag_len = 0 then some rest
  else if rest.length = 0 then none
  else
    let n := min (min frag_len 256) rest.length
    drain (frag_len - n) (rest.drop n)
termination_by frag_len
decreasing_by omega

/-- The end of `dtls1_reassemble_fragment`: read the body into its place, mark it, and see whether
the message is complete. `store` puts the entry into the queue. -/
def gather (frag : HmFragment) (bitmask : Bitmask) (queue partialQueue : Pqueue HmFragment)
    (store : HmFragment → Pqueue HmFragment) (rest : Bytes) :
    ℤ × Pqueue HmFragment × Bytes :=
  if rest = [] then (-1, queue, rest)
  else if (rest.take msg_hdr.frag_len).length ≠ msg_hdr.frag_len then
    (-1, partialQueue, rest.drop msg_hdr.frag_len)
  else
    let bitmask := rsmblyBitmaskMark bitmask msg_hdr.frag_off (msg_hdr.frag_off + msg_hdr.frag_len)
    let frag := { frag with
      fragment := overwrite frag.fragment msg_hdr.frag_off (rest.take msg_hdr.frag_len)
      reassembly := if rsmblyBitmaskIsComplete bitmask msg_hdr.msg_len then none else some bitmask }
    (dtls1HmFragmentRetry, store frag, rest.drop msg_hdr.frag_len)

/-- `dtls1_reassemble_fragment`, on the queue and the rest of the record behind the fragment's
header. -/
def dtls1ReassembleFragment (msg_hdr : HmHeader) (queue : Pqueue HmFragment)
    (rest : Bytes) : ℤ × Pqueue HmFragment × Bytes :=
  if msg_hdr.msg_len < msg_hdr.frag_off + msg_hdr.frag_len ∨
      dtls1MaxHandshakeMessageLen env < msg_hdr.msg_len then (-1, queue, rest)
  else if msg_hdr.frag_len = 0 then (dtls1HmFragmentRetry, queue, rest)
  else
    match pqueueFind queue (seq64be msg_hdr.seq) with
    | none =>
      let frag := dtls1HmFragmentNew env msg_hdr
      -- A new entry is freed again when its first read fails.
      gather msg_hdr frag (List.replicate (rsmblyBitmaskSize msg_hdr.msg_len) 0) queue queue
        (fun frag => (pqueueInsert queue ⟨seq64be msg_hdr.seq, frag⟩).getD queue) rest
    | some item =>
      if item.data.msg_header.msg_len ≠ msg_hdr.msg_len then (-1, queue, rest)
      else
        match item.data.reassembly with
        | none =>
          -- The message is there, so this is a retransmission.
          match drain msg_hdr.frag_len rest with
          | none => (-1, queue, [])
          | some rest => (dtls1HmFragmentRetry, queue, rest)
        | some bitmask =>
          gather msg_hdr item.data bitmask queue
            (pqueueUpdate (seq64be msg_hdr.seq) { item.data with
              fragment := overwrite item.data.fragment msg_hdr.frag_off rest } queue)
            (fun frag => pqueueUpdate (seq64be msg_hdr.seq) frag queue) rest

/-- An entry for `len` bytes that has those at the places in `S`, each allowed by `Good`; it is
complete exactly if none is missing. -/
structure Gathers (len : ℕ) (Good : ℕ → UInt8 → Prop) (S : ℕ → Prop) (e : HmFragment) : Prop where
  msg_len : e.msg_header.msg_len = len
  length : e.fragment.length = len
  good : ∀ i, S i → ∃ b, e.fragment[i]? = some b ∧ Good i b
  below : ∀ i, S i → i < len
  complete : e.reassembly = none ↔ ∀ i < len, S i
  mask : ∀ bitmask, e.reassembly = some bitmask →
    bitmask.length = rsmblyBitmaskSize len ∧ ∀ i, bitmask.bit i = true ↔ S i

theorem gathers_new (h : HmHeader) (hpos : 0 < h.msg_len) (Good : ℕ → UInt8 → Prop) :
    Gathers h.msg_len Good (fun _ => False) (dtls1HmFragmentNew env h) where
  msg_len := rfl
  length := by simp [dtls1HmFragmentNew]
  good _ hi := hi.elim
  below _ hi := hi.elim
  complete := ⟨fun hnone => absurd hnone nofun, fun hall => (hall 0 hpos).elim⟩
  mask bitmask hmask := by
    obtain rfl : List.replicate (rsmblyBitmaskSize h.msg_len) 0 = bitmask := Option.some.inj hmask
    refine ⟨List.length_replicate, fun i => ?_⟩
    unfold Bitmask.bit
    rw [List.getD_eq_getElem?_getD, List.getElem?_replicate]
    split <;> simp

variable {S : ℕ → Prop} {e : HmFragment}

theorem Gathers.mono {len : ℕ} {Good Good' : ℕ → UInt8 → Prop} (hle : ∀ i b, Good i b → Good' i b)
    (h : Gathers len Good S e) : Gathers len Good' S e where
  __ := h
  good i hi := by
    obtain ⟨b, hb, hgood⟩ := h.good i hi
    exact ⟨b, hb, hle i b hgood⟩

theorem seq64be_inj {a b : ℕ} (ha : a < 2 ^ 16) (hb : b < 2 ^ 16) (h : seq64be a = seq64be b) :
    a = b := by
  have hlist := congrArg Vector.toList h
  simp only [seq64be, Vector.toList_mk, List.cons.injEq, and_true, true_and] at hlist
  obtain ⟨hhi, hlo⟩ := hlist
  have hhi' := congrArg UInt8.toNat hhi
  have hlo' := congrArg UInt8.toNat hlo
  simp only [UInt8.toNat_ofNat'] at hhi' hlo'
  omega

theorem drain_eq_some (n : ℕ) (rest : Bytes) (h : n ≤ rest.length) :
    drain n rest = some (rest.drop n) := by
  induction n using Nat.strong_induction_on generalizing rest with
  | _ n ih =>
    unfold drain
    split
    · next h0 => rw [h0, List.drop_zero]
    next h0 =>
    rw [if_neg (by omega)]
    rw [ih _ (by omega) _ (by rw [List.length_drop]; omega), List.drop_drop]
    congr 2
    omega

/-- The places that a fragment carries. -/
def HmHeader.Covers (h : HmHeader) (i : ℕ) : Prop := h.frag_off ≤ i ∧ i < h.frag_off + h.frag_len

section

variable {h : HmHeader} (hpos : 0 < h.frag_len) (hle : h.frag_off + h.frag_len ≤ h.msg_len)
  {rest : Bytes} (hrest : h.frag_len ≤ rest.length) {Good : ℕ → UInt8 → Prop}
  (hgood : ∀ j < h.frag_len, ∀ b, rest[j]? = some b → Good (h.frag_off + j) b)

include hpos hle hrest hgood

theorem gather_spec {frag : HmFragment} {bitmask : Bitmask} (he : Gathers h.msg_len Good S frag)
    (hre : frag.reassembly = some bitmask) (queue partialQueue : Pqueue HmFragment)
    (store : HmFragment → Pqueue HmFragment) :
    ∃ e, Gathers h.msg_len Good (fun i => S i ∨ h.Covers i) e ∧ e.msg_header = frag.msg_header ∧
      gather h frag bitmask queue partialQueue store rest =
        (dtls1HmFragmentRetry, store e, rest.drop h.frag_len) := by
  obtain ⟨hsize, hbits⟩ := he.mask bitmask hre
  have htake : (rest.take h.frag_len).length = h.frag_len := List.length_take_of_le hrest
  have hfit : h.frag_off + (rest.take h.frag_len).length ≤ frag.fragment.length := by
    rw [htake, he.length]
    exact hle
  have hne : rest ≠ [] := List.length_pos_iff.mp (hpos.trans_le hrest)
  have hmark := @bit_mark bitmask h.frag_off (h.frag_off + h.frag_len) (by omega) (by
    rw [hsize]
    unfold rsmblyBitmaskSize
    omega)
  have hbit : ∀ i, (rsmblyBitmaskMark bitmask h.frag_off (h.frag_off + h.frag_len)).bit i = true ↔
      S i ∨ h.Covers i := by
    intro i
    rw [(hmark i).1, Bool.or_eq_true, hbits, decide_eq_true_iff]
    rfl
  have hbelow : ∀ i, S i ∨ h.Covers i → i < h.msg_len := by
    rintro i (hi | ⟨-, hi⟩)
    · exact he.below i hi
    · omega
  -- No place from the length on is marked, so the test for completeness is exact.
  have hcomplete : rsmblyBitmaskIsComplete
      (rsmblyBitmaskMark bitmask h.frag_off (h.frag_off + h.frag_len)) h.msg_len = true ↔
      ∀ i < h.msg_len, S i ∨ h.Covers i := by
    rw [isComplete_iff _ (by omega) fun i hi => ?_]
    · exact forall₂_congr fun i _ => hbit i
    · exact Bool.eq_false_iff.mpr fun hi' => absurd (hbelow i ((hbit i).mp hi')) (by omega)
  unfold gather
  rw [if_neg hne, if_neg (not_not_intro htake)]
  refine ⟨_, ?_, ?_, rfl⟩
  rotate_left
  · rfl
  refine ⟨he.msg_len, (overwrite_length hfit).trans he.length, fun i hi => ?_, hbelow, ?_,
    fun mask hmask => ?_⟩
  · rw [overwrite_getElem? hfit, htake]
    split
    · next hc =>
      have hj : i - h.frag_off < h.frag_len := by omega
      rw [List.getElem?_take_of_lt hj]
      obtain ⟨b, hb⟩ : ∃ b, rest[i - h.frag_off]? = some b :=
        ⟨_, List.getElem?_eq_getElem (hj.trans_le hrest)⟩
      refine ⟨b, hb, ?_⟩
      have hg := hgood _ hj b hb
      rwa [Nat.add_sub_cancel' hc.1] at hg
    · next hc => exact he.good i (hi.resolve_right hc)
  · rw [← hcomplete]
    exact ite_eq_left_iff.trans ⟨fun hn => of_not_not fun hc => absurd (hn hc) nofun,
      fun hc hn => absurd hc hn⟩
  · obtain ⟨-, hmask⟩ := ite_none_left_eq_some.mp hmask
    cases hmask
    exact ⟨(hmark 0).2.trans hsize, hbit⟩

variable {env : ReassemblyEnv} (hmax : h.msg_len ≤ dtls1MaxHandshakeMessageLen env)

include hmax

theorem reassemble_first (hfind : pqueueFind queue (seq64be h.seq) = none) :
    ∃ e, Gathers h.msg_len Good h.Covers e ∧
      e.msg_header = { h with frag_len := h.msg_len, frag_off := 0 } ∧
      dtls1ReassembleFragment env h queue rest =
        (dtls1HmFragmentRetry, (pqueueInsert queue ⟨seq64be h.seq, e⟩).getD queue,
          rest.drop h.frag_len) := by
  obtain ⟨e, hg, hh, heq⟩ := gather_spec hpos hle hrest hgood
    (gathers_new env h (by omega) Good) rfl queue queue
    (fun frag => (pqueueInsert queue ⟨seq64be h.seq, frag⟩).getD queue)
  refine ⟨e, by simpa using hg, hh, ?_⟩
  unfold dtls1ReassembleFragment
  rw [if_neg (by omega), if_neg hpos.ne', hfind]
  exact heq

theorem reassemble_later {item : Pitem HmFragment}
    (hfind : pqueueFind queue (seq64be h.seq) = some item)
    (he : Gathers h.msg_len Good S item.data) :
    (item.data.reassembly = none ∧ dtls1ReassembleFragment env h queue rest =
      (dtls1HmFragmentRetry, queue, rest.drop h.frag_len)) ∨
    item.data.reassembly ≠ none ∧ ∃ e, Gathers h.msg_len Good (fun i => S i ∨ h.Covers i) e ∧
      e.msg_header = item.data.msg_header ∧
      dtls1ReassembleFragment env h queue rest =
        (dtls1HmFragmentRetry, pqueueUpdate (seq64be h.seq) e queue, rest.drop h.frag_len) := by
  unfold dtls1ReassembleFragment
  rw [if_neg (by omega), if_neg hpos.ne', hfind]
  dsimp only
  rw [if_neg (not_not_intro he.msg_len)]
  cases hre : item.data.reassembly with
  | none =>
    refine Or.inl ⟨rfl, ?_⟩
    rw [drain_eq_some _ _ hrest]
  | some bitmask => exact Or.inr ⟨nofun, gather_spec hpos hle hrest hgood he hre ..⟩

end

/-! ## Reassembly is exact -/

/-- A nonempty range of the body, and what follows it in its record. -/
structure Piece (m : Message) where
  off : ℕ
  len : ℕ
  follows : Bytes
  pos : 0 < len
  le : off + len ≤ m.body.length

def Piece.header {m : Message} (p : Piece m) : HmHeader :=
  ⟨m.type, m.body.length, m.seq, p.off, p.len⟩

def Piece.Covers {m : Message} (p : Piece m) (i : ℕ) : Prop := p.off ≤ i ∧ i < p.off + p.len

/-- What its record holds after the header. -/
def Piece.record {m : Message} (p : Piece m) : Bytes :=
  (m.body.drop p.off).take p.len ++ p.follows

def feed {m : Message} (queue : Pqueue HmFragment) (p : Piece m) :
    Pqueue HmFragment :=
  (dtls1ReassembleFragment env p.header queue p.record).2.1

def messageEntry (m : Message) (queue : Pqueue HmFragment) : Option HmFragment :=
  (pqueueFind queue (seq64be m.seq)).map Pitem.data

/-- The bytes that some fragments carry. -/
def Covered {m : Message} (ps : List (Piece m)) (i : ℕ) : Prop := ∃ p ∈ ps, p.Covers i

def Message.At (m : Message) (i : ℕ) (b : UInt8) : Prop := m.body[i]? = some b

/-- An entry that agrees with the body where it has gathered bytes. -/
abbrev Gathers.Of (m : Message) (S : ℕ → Prop) (e : HmFragment) : Prop :=
  Gathers m.body.length m.At S e

theorem Gathers.Of.fragment_eq {m : Message}
    (h : Gathers.Of m S e) (hall : ∀ i < m.body.length, S i) : e.fragment = m.body := by
  refine List.ext_getElem? fun i => ?_
  rcases Nat.lt_or_ge i m.body.length with hi | hi
  · obtain ⟨b, hb, hbody⟩ := h.good i (hall i hi)
    exact hb.trans hbody.symm
  · rw [List.getElem?_eq_none (h.length ▸ hi), List.getElem?_eq_none hi]

theorem Piece.record_good {m : Message} (p : Piece m) : p.len ≤ p.record.length ∧
    ∀ j < p.len, ∀ b, p.record[j]? = some b → m.At (p.off + j) b := by
  have hle := p.le
  have hlen : ((m.body.drop p.off).take p.len).length = p.len := by
    rw [List.length_take, List.length_drop]
    omega
  unfold Piece.record
  refine ⟨by rw [List.length_append]; omega, fun j hj b hb => ?_⟩
  rwa [List.getElem?_append_left (hlen.symm ▸ hj), List.getElem?_take_of_lt hj,
    List.getElem?_drop] at hb

section

variable (env : ReassemblyEnv) {m : Message}
  (hmax : m.body.length ≤ dtls1MaxHandshakeMessageLen env)

include hmax

variable {queue : Pqueue HmFragment}

theorem feed_first (hnone : messageEntry m queue = none) (p : Piece m) :
    ∃ e, messageEntry m (feed env queue p) = some e ∧ Gathers.Of m p.Covers e := by
  have hfind : pqueueFind queue (seq64be m.seq) = none := map_eq_none_iff.mp hnone
  obtain ⟨hrest, hgood⟩ := p.record_good
  obtain ⟨e, hg, -, heq⟩ := reassemble_first (h := p.header) p.pos p.le hrest hgood hmax hfind
  obtain ⟨queue', hins, hfind'⟩ := pqueueFind_insert
    (show pqueueFind queue (Pitem.mk (seq64be m.seq) e).priority = none from hfind)
  refine ⟨e, ?_, hg⟩
  have hins' : pqueueInsert queue ⟨seq64be p.header.seq, e⟩ = some queue' := hins
  unfold messageEntry feed
  rw [heq, hins', getD_some, hfind']
  rfl

theorem feed_later (hsome : messageEntry m queue = some e) (he : Gathers.Of m S e) (p : Piece m) :
    ∃ e', messageEntry m (feed env queue p) = some e' ∧
      Gathers.Of m (fun i => S i ∨ p.Covers i) e' ∧ (e.reassembly = none → e' = e) := by
  obtain ⟨item, hfind, rfl⟩ := map_eq_some_iff.mp hsome
  obtain ⟨hrest, hgood⟩ := p.record_good
  have hle := p.le
  unfold messageEntry feed
  obtain ⟨hre, heq⟩ | ⟨hre, e', hg, -, heq⟩ :=
    reassemble_later (h := p.header) p.pos p.le hrest hgood hmax hfind he
  · have hS : (fun i => S i ∨ p.Covers i) = S := by
      funext i
      refine propext ⟨fun h => h.elim id fun hc => he.complete.mp hre i ?_, Or.inl⟩
      exact hc.2.trans_le hle
    refine ⟨item.data, by rw [heq, hfind]; rfl, hS.symm ▸ he, fun _ => rfl⟩
  · refine ⟨e', ?_, hg, fun h => absurd h hre⟩
    rw [heq]
    exact congrArg (Option.map Pitem.data) (pqueueFind_update _ e' hfind)

theorem run_gathers (hnone : messageEntry m queue = none) (ps : List (Piece m)) (hps : ps ≠ []) :
    ∃ e, messageEntry m (ps.foldl (feed env) queue) = some e ∧ Gathers.Of m (Covered ps) e := by
  induction ps using List.reverseRecOn with
  | nil => exact absurd rfl hps
  | append_singleton ps p ih =>
    have hcov : Covered (ps ++ [p]) = fun i => Covered ps i ∨ p.Covers i := by
      funext i
      simp [Covered, or_and_right, exists_or]
    rw [List.foldl_append, List.foldl_cons, hcov]
    rcases eq_or_ne ps [] with rfl | hne
    · obtain ⟨e, he, hg⟩ := feed_first env hmax hnone p
      refine ⟨e, he, ?_⟩
      simpa [Covered] using hg
    · obtain ⟨e, he, hg⟩ := ih hne
      obtain ⟨e', he', hg', -⟩ := feed_later env hmax he hg p
      exact ⟨e', he', hg'⟩

theorem run_complete (hsome : messageEntry m queue = some e) (he : Gathers.Of m S e)
    (hc : e.reassembly = none) (ps : List (Piece m)) :
    messageEntry m (ps.foldl (feed env) queue) = some e := by
  induction ps generalizing queue S with
  | nil => exact hsome
  | cons p ps ih =>
    obtain ⟨e', he', hg, hsame⟩ := feed_later env hmax hsome he p
    obtain rfl := hsame hc
    exact ih he' hg

end

/-- In whatever order and however often the fragments arrive, the bit mask of the entry is freed as
soon as they carry every byte of the body, and not before. The buffer is the body then, and stays
so. -/
theorem reassembly_exact (env : ReassemblyEnv) (m : Message) (hpos : 0 < m.body.length)
    (hmax : m.body.length ≤ dtls1MaxHandshakeMessageLen env) (queue : Pqueue HmFragment)
    (hnone : messageEntry m queue = none) (ps : List (Piece m)) :
    ((∃ e, messageEntry m (ps.foldl (feed env) queue) = some e ∧ e.reassembly = none) ↔
      ∀ i < m.body.length, Covered ps i) ∧
    ∀ e, messageEntry m (ps.foldl (feed env) queue) = some e → e.reassembly = none →
      e.fragment = m.body ∧
      ∀ later, messageEntry m ((ps ++ later).foldl (feed env) queue) = some e := by
  rcases eq_or_ne ps [] with rfl | hps
  · -- Without a fragment there is no entry, and no byte has arrived.
    rw [List.foldl_nil, hnone]
    refine ⟨⟨fun ⟨e, h, _⟩ => absurd h nofun, fun h => ?_⟩, fun e h => absurd h nofun⟩
    obtain ⟨p, hp, -⟩ := h 0 hpos
    exact absurd hp (List.not_mem_nil)
  obtain ⟨e, he, hg⟩ := run_gathers env hmax hnone ps hps
  constructor
  · rw [he, ← hg.complete]
    exact ⟨fun ⟨e', h, hc⟩ => Option.some.inj h ▸ hc, fun hc => ⟨e, rfl, hc⟩⟩
  intro e' he' hc
  obtain rfl := Option.some.inj (he.symm.trans he')
  refine ⟨Gathers.Of.fragment_eq hg (hg.complete.mp hc), fun later => ?_⟩
  rw [List.foldl_append]
  exact run_complete env hmax he hg hc later

/-- Three bytes in two fragments that overlap, the later one first. -/
theorem reassembly_exact_overlap :
    let env : ReassemblyEnv := ⟨0, fun _ => 0⟩
    let m : Message := ⟨1, 5, [7, 8, 9], by decide, by decide⟩
    let ps : List (Piece m) := [⟨1, 2, [], by decide, by decide⟩, ⟨0, 2, [4], by decide, by decide⟩]
    0 < m.body.length ∧ m.body.length ≤ dtls1MaxHandshakeMessageLen env ∧
      messageEntry m [] = none ∧
      ∃ e, messageEntry m (ps.foldl (feed env) []) = some e ∧ e.reassembly = none ∧
        e.fragment = m.body := by
  intro env m ps
  have hcov : ∀ i < m.body.length, Covered ps i := by
    intro i hi
    rcases Nat.eq_zero_or_pos i with rfl | h
    · exact ⟨_, List.mem_cons_of_mem _ (List.mem_singleton.mpr rfl), by decide, by decide⟩
    · exact ⟨_, List.mem_cons_self, h, hi⟩
  obtain ⟨hiff, hbody⟩ := reassembly_exact env m (by decide) (by decide) [] rfl ps
  obtain ⟨e, he, hc⟩ := hiff.mpr hcov
  exact ⟨by decide, by decide, rfl, e, he, hc, (hbody e he hc).1⟩

/-- A message of one byte more than the maximum is refused, although all of it arrives. -/
theorem reassembly_refuses_long :
    ∃ (env : ReassemblyEnv) (m : Message) (p : Piece m),
      m.body.length = dtls1HmHeaderLength + ssl3RtMaxEncryptedLength + 1 ∧
      messageEntry m [] = none ∧ (∀ i < m.body.length, Covered [p] i) ∧
      messageEntry m ([p].foldl (feed env) []) = none := by
  let m : Message :=
    ⟨11, 0, List.replicate 16717 0, by decide, by rw [List.length_replicate]; decide⟩
  have hlen : m.body.length = 16717 := List.length_replicate
  let p : Piece m := ⟨0, m.body.length, [], by rw [hlen]; decide, (Nat.zero_add _).le⟩
  refine ⟨⟨0, fun _ => 0⟩, m, p, hlen, rfl, fun i hi => ?_, ?_⟩
  · exact ⟨p, List.mem_singleton.mpr rfl, Nat.zero_le i, (Nat.zero_add _).symm ▸ hi⟩
  have hlong : dtls1MaxHandshakeMessageLen ⟨0, fun _ => 0⟩ < p.header.msg_len := by
    change _ < m.body.length
    rw [hlen]
    decide
  rw [List.foldl_cons, feed, dtls1ReassembleFragment, if_pos (Or.inr hlong)]
  rfl

end VigorTls.Dtls
