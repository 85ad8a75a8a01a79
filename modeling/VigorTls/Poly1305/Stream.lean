import VigorTls.Poly1305.Limbs32
import VigorTls.Poly1305.Limbs64
import Mathlib.Data.List.Induction

/-!
# Poly1305 over a stream

`CRYPTO_poly1305_init`, `CRYPTO_poly1305_update` and `CRYPTO_poly1305_finish`. Whatever the pieces
of a message are, the blocks that reach the implementation are those of the whole message
(`mac_eq_emit`, `mac_pieces`). So an implementation that keeps its contract computes the tag as long
as no block overflows, and has the right accumulator after every block exactly then (`clean_iff`,
`mac_of_clean`).
-/

namespace VigorTls.Poly1305

open Lib List

variable {S : Type}

/-- `poly1305_state`, with the bytes of `data` that are in use. -/
structure Ctx (S : Type) where
  nonce : List ℕ
  state : S
  data : Bytes

def poly1305Blocks (L : Limbs S) (st : S) (inp : Bytes) (padbit : ℕ) : S :=
  if 16 ≤ inp.length then
    poly1305Blocks L (L.block st (inp.take 16) padbit) (inp.drop 16) padbit
  else st
termination_by inp.length
decreasing_by simp only [length_drop]; omega

variable (L : Limbs S)

def cryptoPoly1305Init (key : Bytes) : Ctx S where
  nonce := [u8ToU32 (key.drop 16), u8ToU32 (key.drop 20), u8ToU32 (key.drop 24),
    u8ToU32 (key.drop 28)]
  state := L.init key
  data := []

/-- The part of `CRYPTO_poly1305_update` with nothing left over from before. -/
def Ctx.takeBlocks (ctx : Ctx S) (inp : Bytes) : Ctx S :=
  let rem := inp.length % 16
  let len := inp.length - rem
  let state := if 16 ≤ len then poly1305Blocks L ctx.state (inp.take len) 1 else ctx.state
  { ctx with state := state, data := (inp.drop len).take rem }

def cryptoPoly1305Update (ctx : Ctx S) (inp : Bytes) : Ctx S :=
  let num := ctx.data.length
  if num ≠ 0 then
    let rem := 16 - num
    if rem ≤ inp.length then
      let state := poly1305Blocks L ctx.state (ctx.data ++ inp.take rem) 1
      Ctx.takeBlocks L { ctx with state := state } (inp.drop rem)
    else { ctx with data := ctx.data ++ inp }
  else ctx.takeBlocks L inp

/-- The last block, when there are bytes left for one. -/
def padded (data : Bytes) : Bytes :=
  data ++ 1 :: replicate (16 - (data.length + 1)) 0

def cryptoPoly1305Finish (ctx : Ctx S) : Bytes :=
  let state :=
    if ctx.data.length ≠ 0 then poly1305Blocks L ctx.state (padded ctx.data) 0 else ctx.state
  L.emit state ctx.nonce

/-- The tag of a message that comes in pieces. -/
def mac (key : Bytes) (pieces : List Bytes) : Bytes :=
  cryptoPoly1305Finish L (pieces.foldl (cryptoPoly1305Update L) (cryptoPoly1305Init L key))

/-! ## Blocks -/

/-- A block as an implementation gets it, with the bit past its bytes. -/
structure Block where
  bytes : Bytes
  padbit : ℕ
deriving DecidableEq

def Block.value (b : Block) : ℕ := leNat b.bytes + 2 ^ 128 * b.padbit

structure Block.Full (b : Block) : Prop where
  length_eq : b.bytes.length = 16
  padbit_le : b.padbit ≤ 1

def process : S → List Block → S :=
  foldl fun st b => L.block st b.bytes b.padbit

/-- The blocks of a message as an implementation gets them. -/
def inputBlocks (msg : Bytes) : List Block :=
  (fullBlocks msg).map (⟨·, 1⟩) ++ if remainder msg = [] then [] else [⟨padded (remainder msg), 0⟩]

variable {p : Bytes}

theorem cut_append {a b : ℕ} {q : Bytes} (h : p.length = 16 * a) :
    cut (a + b) (p ++ q) = cut a p ++ cut b q := by
  induction a generalizing p with
  | zero =>
    rw [length_eq_zero_iff.mp h, Nat.zero_add]
    rfl
  | succ a ih =>
    have hle : 16 ≤ p.length := by omega
    rw [Nat.add_right_comm, cut, cut, take_append_of_le_length hle,
      drop_append_of_le_length hle, ih (by rw [length_drop]; omega), cons_append]

theorem length_of_mem_cut {n : ℕ} {b : Bytes} (h : 16 * n ≤ p.length) (hb : b ∈ cut n p) :
    b.length = 16 := by
  induction n generalizing p with
  | zero => exact absurd hb not_mem_nil
  | succ n ih =>
    rcases mem_cons.mp hb with rfl | hb
    · rw [length_take]
      omega
    · exact ih (by rw [length_drop]; omega) hb

theorem fullBlocks_append (h : p.length % 16 = 0) (q : Bytes) :
    fullBlocks (p ++ q) = fullBlocks p ++ fullBlocks q := by
  have hdiv : (p.length + q.length) / 16 = p.length / 16 + q.length / 16 := by omega
  rw [fullBlocks, length_append, hdiv, cut_append (by omega)]
  rfl

theorem remainder_append (h : p.length % 16 = 0) (q : Bytes) :
    remainder (p ++ q) = remainder q := by
  have hlen : 16 * ((p.length + q.length) / 16) = p.length + 16 * (q.length / 16) := by omega
  rw [remainder, length_append, hlen, drop_append, Nat.add_sub_cancel_left,
    drop_of_length_le (by omega)]
  rfl

theorem fullBlocks_of_lt (h : p.length < 16) : fullBlocks p = [] := by
  rw [fullBlocks, Nat.div_eq_of_lt h]
  rfl

theorem remainder_of_lt (h : p.length < 16) : remainder p = p := by
  rw [remainder, Nat.div_eq_of_lt h]
  rfl

theorem remainder_length_lt (msg : Bytes) : (remainder msg).length < 16 := by
  rw [remainder, length_drop]
  omega

theorem exists_whole (msg : Bytes) :
    ∃ p, p.length % 16 = 0 ∧ fullBlocks p = fullBlocks msg ∧ msg = p ++ remainder msg := by
  have hlen : (msg.take (16 * (msg.length / 16))).length % 16 = 0 := by
    rw [length_take]
    omega
  have hmsg : msg = msg.take (16 * (msg.length / 16)) ++ remainder msg :=
    (take_append_drop ..).symm
  refine ⟨_, hlen, ?_, hmsg⟩
  conv_rhs => rw [hmsg, fullBlocks_append hlen, fullBlocks_of_lt (remainder_length_lt msg),
    append_nil]

variable {msg : Bytes} {b : Block}

theorem inputBlocks_full (hb : b ∈ inputBlocks msg) : b.Full := by
  rcases mem_append.mp hb with hb | hb
  · obtain ⟨p, hp, rfl⟩ := mem_map.mp hb
    exact ⟨length_of_mem_cut (by omega) hp, le_rfl⟩
  split at hb
  · exact absurd hb not_mem_nil
  have hlt := remainder_length_lt msg
  rw [mem_singleton.mp hb]
  refine ⟨?_, Nat.zero_le 1⟩
  simp only [padded, length_append, length_cons, length_replicate]
  omega

theorem value_full {b : Bytes} (h : b.length = 16) : Block.value ⟨b, 1⟩ = blockValue b := by
  have hone : leNat [1] = 1 := by simp only [leNat, UInt8.toNat_one]
  rw [Block.value, blockValue, leNat_append, h, hone, show 256 ^ 16 = 2 ^ 128 by norm_num]

theorem value_padded (data : Bytes) : Block.value ⟨padded data, 0⟩ = blockValue data := by
  simp only [Block.value, blockValue, padded, leNat_append, leNat, leNat_replicate_zero,
    Nat.mul_zero, Nat.add_zero]

theorem inputBlocks_value (msg : Bytes) :
    (inputBlocks msg).map Block.value = (blocks msg).map blockValue := by
  have hwhole : ∀ b ∈ fullBlocks msg, (Block.value ∘ (⟨·, 1⟩)) b = blockValue b := by
    intro b hb
    rw [Function.comp_apply, value_full (length_of_mem_cut (by omega) hb)]
  rw [inputBlocks, blocks, map_append, map_append, map_map, map_congr_left hwhole]
  split
  · rw [map_nil, map_nil]
  · rw [map_singleton, map_singleton, value_padded]

theorem poly1305Blocks_eq (st : S) (inp : Bytes) (padbit : ℕ) :
    poly1305Blocks L st inp padbit = process L st ((fullBlocks inp).map (⟨·, padbit⟩)) := by
  fun_induction poly1305Blocks L st inp padbit with
  | case1 st inp hle ih =>
    have hlen : (inp.take 16).length = 16 := by
      rw [length_take]
      omega
    have hfirst : fullBlocks (inp.take 16) = [inp.take 16] := by
      rw [fullBlocks, hlen, cut, take_take]
      rfl
    conv_rhs => rw [← take_append_drop 16 inp, fullBlocks_append (by omega), hfirst]
    rw [ih]
    rfl
  | case2 st inp hlt => rw [fullBlocks_of_lt (by omega)]; rfl

theorem process_append (st : S) (bs cs : List Block) :
    process L st (bs ++ cs) = process L (process L st bs) cs := foldl_append

/-- A context that has taken a message. -/
structure Ctx.Holds (key : Bytes) (ctx : Ctx S) (msg : Bytes) : Prop where
  nonce_eq : ctx.nonce = (cryptoPoly1305Init L key).nonce
  state_eq : ctx.state = process L (L.init key) ((fullBlocks msg).map (⟨·, 1⟩))
  data_eq : ctx.data = remainder msg

section Pieces

variable {L : Limbs S} {key : Bytes} {ctx : Ctx S}

theorem takeBlocks_holds (hnonce : ctx.nonce = (cryptoPoly1305Init L key).nonce)
    (hstate : ctx.state = process L (L.init key) ((fullBlocks msg).map (⟨·, 1⟩)))
    (hwhole : msg.length % 16 = 0) (inp : Bytes) :
    (ctx.takeBlocks L inp).Holds L key (msg ++ inp) := by
  have hlen : inp.length - inp.length % 16 = 16 * (inp.length / 16) := by omega
  refine ⟨hnonce, ?_, ?_⟩
  · rw [fullBlocks_append hwhole, map_append, process_append, ← hstate, Ctx.takeBlocks, hlen]
    split
    · obtain ⟨p, hp, hfull, hinp⟩ := exists_whole inp
      have htake : inp.take (16 * (inp.length / 16)) = p := by
        have hplen := congrArg List.length hinp
        have hrem := remainder_length_lt inp
        rw [length_append] at hplen
        conv_lhs => rw [hinp]
        rw [take_append_of_le_length (by rw [← hinp]; omega), take_of_length_le]
        rw [← hinp]
        omega
      rw [htake, poly1305Blocks_eq, hfull]
    · rw [fullBlocks_of_lt (by omega)]
      rfl
  · rw [remainder_append hwhole, Ctx.takeBlocks, hlen]
    exact take_of_length_le (by rw [length_drop]; omega)

theorem update_holds (h : ctx.Holds L key msg) (inp : Bytes) :
    (cryptoPoly1305Update L ctx inp).Holds L key (msg ++ inp) := by
  obtain ⟨hnonce, hstate, hdata⟩ := h
  obtain ⟨p, hp, hfull, hmsg⟩ := exists_whole msg
  have hlt := remainder_length_lt msg
  rw [← hdata] at hlt hmsg
  rw [← hfull] at hstate
  rw [cryptoPoly1305Update]
  dsimp only
  split
  · next hnum =>
    split
    · next hrem =>
      have hblock : (ctx.data ++ inp.take (16 - ctx.data.length)).length = 16 := by
        rw [length_append, length_take]
        omega
      have hsplit : msg ++ inp = p ++ (ctx.data ++ inp.take (16 - ctx.data.length)) ++
          inp.drop (16 - ctx.data.length) := by
        rw [append_assoc, append_assoc, take_append_drop, ← append_assoc, ← hmsg]
      rw [hsplit]
      refine takeBlocks_holds ?_ ?_ ?_ _
      · exact hnonce
      · rw [poly1305Blocks_eq, hstate, fullBlocks_append hp, map_append, process_append]
      · rw [length_append]
        omega
    · next hrem =>
      have hshort : (ctx.data ++ inp).length < 16 := by
        rw [length_append]
        omega
      have hsplit : msg ++ inp = p ++ (ctx.data ++ inp) := by
        rw [← append_assoc, ← hmsg]
      rw [hsplit]
      refine ⟨hnonce, ?_, ?_⟩
      · rw [fullBlocks_append hp, fullBlocks_of_lt hshort, append_nil]
        exact hstate
      · rw [remainder_append hp, remainder_of_lt hshort]
  · next hnum =>
    have hnil : ctx.data = [] := length_eq_zero_iff.mp (not_not.mp hnum)
    rw [hnil, append_nil] at hmsg
    rw [hmsg]
    exact takeBlocks_holds hnonce hstate hp inp

theorem updates_hold (h : ctx.Holds L key msg) (pieces : List Bytes) :
    (pieces.foldl (cryptoPoly1305Update L) ctx).Holds L key (msg ++ pieces.flatten) := by
  induction pieces generalizing ctx msg with
  | nil =>
    rw [flatten_nil, append_nil]
    exact h
  | cons inp pieces ih =>
    rw [flatten_cons, ← append_assoc]
    exact ih (update_holds h inp)

theorem mac_eq_emit (pieces : List Bytes) :
    mac L key pieces = L.emit (process L (L.init key) (inputBlocks pieces.flatten))
      (cryptoPoly1305Init L key).nonce := by
  have hinit : (cryptoPoly1305Init L key).Holds L key [] := ⟨rfl, rfl, rfl⟩
  obtain ⟨hnonce, hstate, hdata⟩ := updates_hold hinit pieces
  rw [nil_append] at hstate hdata
  have hlt := remainder_length_lt pieces.flatten
  rw [mac, cryptoPoly1305Finish, hnonce, hstate, hdata, inputBlocks, process_append]
  by_cases hnil : remainder pieces.flatten = []
  · rw [hnil]
    rfl
  have hpadded : (padded (remainder pieces.flatten)).length = 16 := by
    simp only [padded, length_append, length_cons, length_replicate]
    omega
  have hone : fullBlocks (padded (remainder pieces.flatten)) =
      [padded (remainder pieces.flatten)] := by
    rw [fullBlocks, hpadded, cut, cut, take_of_length_le hpadded.le]
  rw [if_neg hnil, if_pos (fun h => hnil (length_eq_zero_iff.mp h)), poly1305Blocks_eq, hone]
  rfl

/-- The tag does not depend on how the message was cut, whatever the implementation does with its
carries. -/
theorem mac_pieces (pieces : List Bytes) : mac L key pieces = mac L key [pieces.flatten] := by
  rw [mac_eq_emit, mac_eq_emit [pieces.flatten], flatten_singleton]

end Pieces

/-! ## The tag -/

variable {key : Bytes}

namespace Limbs.Contract

variable {L : Limbs S} (C : L.Contract)

/-- No block of a sequence overflows. -/
def Clean (st : S) (bs : List Block) : Prop :=
  ∀ pre b, pre ++ [b] <+: bs → ¬ C.Overflows (process L st pre) b.bytes b.padbit

/-- After every block of a sequence the accumulator is the polynomial of the blocks so far. -/
def Exact (st : S) (bs : List Block) : Prop :=
  ∀ pre, pre <+: bs →
    C.value (process L st pre) ≡ polynomial (C.r st) (pre.map Block.value) [MOD modulus]

variable {C}
variable {bs : List Block} {st : S}

theorem process_bounded (hst : C.Bounded st) (hbs : ∀ b ∈ bs, b.Full) :
    C.Bounded (process L st bs) ∧ C.r (process L st bs) = C.r st := by
  induction bs generalizing st with
  | nil => exact ⟨hst, rfl⟩
  | cons b bs ih =>
    obtain ⟨hlen, hpad⟩ := hbs b mem_cons_self
    have hnext := C.block_bounded st b.bytes b.padbit hst hlen.ge hpad
    obtain ⟨hbounded, hr⟩ := ih hnext fun b hb => hbs b (mem_cons_of_mem _ hb)
    exact ⟨hbounded, hr.trans (C.block_r ..)⟩

theorem process_snoc (hst : C.Bounded st) (hbs : ∀ c ∈ bs ++ [b], c.Full)
    (h : C.value (process L st bs) ≡ polynomial (C.r st) (bs.map Block.value) [MOD modulus]) :
    C.value (process L st (bs ++ [b])) ≡
        polynomial (C.r st) ((bs ++ [b]).map Block.value) [MOD modulus] ↔
      ¬ C.Overflows (process L st bs) b.bytes b.padbit := by
  obtain ⟨hlen, hpad⟩ := hbs b (mem_append_right _ mem_cons_self)
  obtain ⟨hbounded, hr⟩ := process_bounded hst fun c hc => hbs c (mem_append_left _ hc)
  have hblock := C.block_value _ _ _ hbounded hlen.ge hpad
  rw [take_of_length_le hlen.le, hr] at hblock
  have hnext : (C.value (process L st bs) + b.value) * C.r st ≡
      polynomial (C.r st) ((bs ++ [b]).map Block.value) [MOD modulus] := by
    rw [map_append, map_singleton, polynomial_append]
    exact (h.add_right _).mul_right _
  rw [process_append, ← hblock]
  exact ⟨fun heq => heq.trans hnext.symm, fun heq => heq.trans hnext⟩

theorem clean_iff (hst : C.Bounded st) (hzero : C.value st = 0) (hbs : ∀ b ∈ bs, b.Full) :
    C.Clean st bs ↔ C.Exact st bs := by
  have hfull : ∀ {pre}, pre <+: bs → ∀ b ∈ pre, b.Full := fun hpre b hb => hbs b (hpre.subset hb)
  constructor
  · intro hclean pre
    -- by one block after the other
    induction pre using reverseRecOn with
    | nil =>
      intro _
      exact congrArg (· % modulus) hzero
    | append_singleton pre b ih =>
      intro hpre
      have hih := ih ((prefix_append ..).trans hpre)
      exact (process_snoc hst (hfull hpre) hih).mpr (hclean pre b hpre)
  · intro hexact pre b hpre
    have hbefore := hexact pre ((prefix_append ..).trans hpre)
    exact (process_snoc hst (hfull hpre) hbefore).mp (hexact _ hpre)

theorem mac_of_clean (hkey : key.length = 32) {pieces : List Bytes}
    (hclean : C.Clean (L.init key) (inputBlocks pieces.flatten)) :
    mac L key pieces = leBytes 16 (tag key pieces.flatten) := by
  have hinit := C.init_bounded key (by omega)
  have hexact := (clean_iff hinit (C.init_value key) fun _ => inputBlocks_full).mp hclean
  have hvalue := hexact _ prefix_rfl
  obtain ⟨hbounded, -⟩ := process_bounded hinit (fun b => inputBlocks_full (b := b))
  have hnonce := leNat_take_words32 (p := key.drop 16) (by rw [length_drop]; omega)
  simp only [drop_drop] at hnonce
  rw [inputBlocks_value, C.init_r key (by omega)] at hvalue
  rw [mac_eq_emit, cryptoPoly1305Init, C.emit_eq _ _ _ _ _ hbounded (u8ToU32_lt _) (u8ToU32_lt _)
    (u8ToU32_lt _) (u8ToU32_lt _), hvalue, ← hnonce]
  exact (leBytes_mod 16 _).symm

theorem clean_nil (st : S) : C.Clean st [] := by
  intro pre b hpre
  exact absurd (prefix_nil.mp hpre) (by simp)

theorem clean_cons (hb : ¬ C.Overflows st b.bytes b.padbit)
    (hbs : C.Clean (L.block st b.bytes b.padbit) bs) : C.Clean st (b :: bs) := by
  intro pre c hpre
  cases pre with
  | nil =>
    obtain ⟨rfl, -⟩ := cons_prefix_cons.mp hpre
    exact hb
  | cons d pre =>
    obtain ⟨rfl, hrest⟩ := cons_prefix_cons.mp hpre
    exact hbs pre c hrest

end Limbs.Contract

/-- What an implementation computes for a message that comes in pieces. -/
structure ExactWhenClean {L : Limbs S} (C : L.Contract) (key : Bytes)
    (pieces : List Bytes) : Prop where
  accumulators : C.Clean (L.init key) (inputBlocks pieces.flatten) ↔
    C.Exact (L.init key) (inputBlocks pieces.flatten)
  tag_eq : C.Clean (L.init key) (inputBlocks pieces.flatten) →
    mac L key pieces = leBytes 16 (tag key pieces.flatten)

theorem exactWhenClean {L : Limbs S} (C : L.Contract) (hkey : key.length = 32)
    (pieces : List Bytes) : ExactWhenClean C key pieces where
  accumulators := Limbs.Contract.clean_iff (C.init_bounded key (by omega)) (C.init_value key)
    fun _ => inputBlocks_full
  tag_eq := Limbs.Contract.mac_of_clean hkey

/-- **Poly1305 over pieces.** With both sizes of limbs, whatever the pieces of a message are: the
accumulator is right after every block exactly if no block overflows, and then so is the tag. -/
theorem poly1305_exact (key : Bytes) (hkey : key.length = 32) (pieces : List Bytes) :
    ExactWhenClean Limbs64.contract key pieces ∧ ExactWhenClean Limbs32.contract key pieces :=
  ⟨exactWhenClean _ hkey pieces, exactWhenClean _ hkey pieces⟩

/-- The key with `r = 5` and no nonce. -/
def keyFive : Bytes := 5 :: replicate 31 0

/-- A message of two blocks, in pieces that end inside of them. -/
theorem poly1305_exact_two :
    let pieces := [replicate 10 1, replicate 10 2]
    mac Limbs64.limbs keyFive pieces = leBytes 16 (tag keyFive pieces.flatten) ∧
      mac Limbs32.limbs keyFive pieces = leBytes 16 (tag keyFive pieces.flatten) := by
  intro pieces
  obtain ⟨h64, h32⟩ := poly1305_exact keyFive rfl pieces
  have hblocks : inputBlocks pieces.flatten =
      [⟨replicate 10 1 ++ replicate 6 2, 1⟩, ⟨[2, 2, 2, 2, 1] ++ replicate 11 0, 0⟩] := by decide
  refine ⟨h64.tag_eq ?_, h32.tag_eq ?_⟩ <;> rw [hblocks] <;>
    refine Limbs.Contract.clean_cons ?_ (Limbs.Contract.clean_cons ?_ (Limbs.Contract.clean_nil _))
  all_goals
    show ¬ 2 ^ 128 ≤ _
    decide +kernel

/-- After sixteen bytes `0x33` the first two words are all ones, and the carry is lost. -/
theorem carry_lost :
    mac Limbs64.limbs keyFive [replicate 16 0x33 ++ replicate 16 0] ≠
        leBytes 16 (tag keyFive (replicate 16 0x33 ++ replicate 16 0)) ∧
      mac Limbs32.limbs keyFive [replicate 16 0x33 ++ replicate 16 0] ≠
        leBytes 16 (tag keyFive (replicate 16 0x33 ++ replicate 16 0)) := by
  decide +kernel

end VigorTls.Poly1305
