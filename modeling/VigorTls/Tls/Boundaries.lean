import VigorTls.Tls.GetMessage

/-!
# Handshake messages and record boundaries

`parse` reads the messages that calls of `ssl3_get_message` ask for off the whole stream. Calls that
are given the stream in pieces stand where `parse` stands on what they have consumed (`Follows`):
from the start (`start_follows`), and after each piece (`Follows.feed`).
-/

namespace VigorTls.Tls

open Lib List Bool

inductive Item where
  /-- A Hello Request that a client skips. -/
  | skipped
  | message (type : UInt8) (length : Bytes) (body : Bytes)
  /-- A message that is returned again, without bytes of its own. -/
  | again (type : UInt8) (body : Bytes)

def Item.bytes : Item → Bytes
  | .skipped => [0, 0, 0, 0]
  | .message type length body => type :: length ++ body
  | .again _ _ => []

def Item.hashed : Item → Bytes
  | .message type length body => type :: length ++ body
  | _ => []

def Item.returned : Item → Option (UInt8 × Bytes)
  | .skipped => none
  | .message type _ body => some (type, body)
  | .again type body => some (type, body)

inductive Status where
  /-- The call needs more than these bytes. -/
  | waiting (c : Call) (calls : List Call) (begun : Bytes)
  /-- The message that these bytes begin with is refused, or the one to return again is. -/
  | alert (al : ℕ) (rest : Bytes)
  /-- All the messages asked for have been read. -/
  | finished (rest : Bytes)

/-- The bytes that belong to no item. -/
def Status.rest : Status → Bytes
  | .waiting _ _ rest => rest
  | .alert _ rest => rest
  | .finished rest => rest

/-- What the bytes at the start of a stream are for a call. -/
inductive Parsed where
  | begun (bytes : Bytes)
  | alert (al : ℕ) (bytes : Bytes)
  | message (type : UInt8) (body rest : Bytes)

/-- Read the message of one call, and what is skipped before it. -/
def parseMessage (server : Bool) (c : Call) : Bytes → List Item × Parsed
  | p0 :: p1 :: p2 :: p3 :: rest =>
    let l := beNat [p1, p2, p3]
    if !server && p0 == ssl3MtHelloRequest && p1 == 0 && p2 == 0 && p3 == 0 then
      let (items, result) := parseMessage server c rest
      (.skipped :: items, result)
    else if unexpected c.mt p0 then
      ([], .alert sslAdUnexpectedMessage (p0 :: p1 :: p2 :: p3 :: rest))
    else if c.max < l then ([], .alert sslAdIllegalParameter (p0 :: p1 :: p2 :: p3 :: rest))
    else if rest.length < l then ([], .begun (p0 :: p1 :: p2 :: p3 :: rest))
    else ([.message p0 [p1, p2, p3] (rest.take l)], .message p0 (rest.take l) (rest.drop l))
  | bytes => ([], .begun bytes)

/-- Read the messages of successive calls, the last message being the one given. -/
def parse (server : Bool) : List Call → UInt8 × Bytes → Bytes → List Item × Status
  | [], _, stream => ([], .finished stream)
  | c :: calls, last, stream =>
    if c.reuse then
      if unexpected c.mt last.1 then ([], .alert sslAdUnexpectedMessage stream)
      else
        let (items, status) := parse server calls last stream
        (.again last.1 last.2 :: items, status)
    else
      match parseMessage server c stream with
      | (items, .begun bytes) => (items, .waiting c calls bytes)
      | (items, .alert al bytes) => (items, .alert al bytes)
      | (items, .message type body rest) =>
        let (items', status) := parse server calls (type, body) rest
        (items ++ items', status)

/-! ## Reading is parsing -/

/-- The calls that follow on a message that has been returned. -/
def follow (server : Bool) (returned : List (UInt8 × Bytes)) (hashed : Bytes)
    (m : MessageState) : List Call → Reading
  | [] => ⟨m, none, [], returned, hashed, none⟩
  | c :: calls =>
    proceed server returned hashed calls c (ssl3GetMessage server c.mt c.max (m.next c.reuse))

section

variable (server : Bool) (returned : List (UInt8 × Bytes)) (hashed : Bytes)
  (calls : List Call) (c : Call) (m : MessageState)

theorem proceed_got :
    proceed server returned hashed calls c (.got m) =
      follow server (returned ++ [(m.message_type, m.msg)]) (hashed ++ m.hashed) m calls := by
  cases calls <;> rfl

theorem proceed_reused :
    proceed server returned hashed calls c (.reused m) =
      follow server (returned ++ [(m.message_type, m.msg)]) hashed m calls := by
  cases calls <;> rfl

end

/-- A message state keeps the message that was returned last. -/
structure MessageState.Keeps (m : MessageState) (last : UInt8 × Bytes) : Prop where
  type : m.message_type = last.1
  size : m.message_size = last.2.length
  body : (m.init_buf.drop 4).take m.message_size = last.2

/-- A message state after the first bytes of a message, waiting for `len` more. -/
inductive Begun (m : MessageState) : Bytes → ℕ → Prop
  | header {bytes : Bytes} (hpart : m.part = .header) (hlt : bytes.length < 4)
      (hnum : m.init_num = bytes.length) (hbuf : m.init_buf.take bytes.length = bytes) :
      Begun m bytes (4 - bytes.length)
  | body {p0 p1 p2 p3 : UInt8} {rest : Bytes} (hpart : m.part = .body)
      (htype : m.message_type = p0) (hsize : m.message_size = beNat [p1, p2, p3])
      (hlt : rest.length < m.message_size) (hnum : m.init_num = rest.length)
      (hbuf : m.init_buf.take (4 + rest.length) = p0 :: p1 :: p2 :: p3 :: rest) :
      Begun m (p0 :: p1 :: p2 :: p3 :: rest) (m.message_size - rest.length)

structure Agrees (server : Bool) (r : Reading) (items : List Item) (status : Status) : Prop where
  returned : r.returned = items.filterMap Item.returned
  hashed : r.hashed = items.flatMap Item.hashed
  status : match status with
    | .waiting c calls bytes => ∃ len, r.waits = some (c, len) ∧ r.calls = calls ∧ r.alert = none ∧
        r.m.reuse_message = false ∧ c.reuse = false ∧ Begun r.m bytes len ∧
        parseMessage server c bytes = ([], .begun bytes)
    | .alert al rest => r.waits = none ∧ r.alert = some al ∧ rest.length ≤ 4
    | .finished rest => r.waits = none ∧ r.alert = none ∧ rest = []

variable {bytes : Bytes}

theorem parseMessage_short (server : Bool) (c : Call) (h : bytes.length < 4) :
    parseMessage server c bytes = ([], .begun bytes) := by
  match bytes, h with
  | [], _ => rfl
  | [_], _ => rfl
  | [_, _], _ => rfl
  | [_, _, _], _ => rfl

theorem follow_agrees (server : Bool) : ∀ (calls : List Call) (items : List Item) (m : MessageState)
    (last : UInt8 × Bytes), m.Keeps last →
    Agrees server
      (follow server (items.filterMap Item.returned) (items.flatMap Item.hashed) m calls)
      (items ++ (parse server calls last []).1) (parse server calls last []).2
  | [], items, m, last, _ => ⟨by simp [follow, parse], by simp [follow, parse], rfl, rfl, rfl⟩
  | c :: calls, items, m, last, hkeeps => by
    cases hreuse : c.reuse with
    | true =>
      cases hun : unexpected c.mt last.1 with
      | true =>
        have hun' : unexpected c.mt m.message_type = true := hkeeps.type ▸ hun
        simp only [follow, ssl3GetMessage, MessageState.next, hreuse, if_true, hun', proceed,
          parse, hun,
          append_nil]
        exact ⟨rfl, rfl, rfl, rfl, by decide⟩
      | false =>
        have hun' : unexpected c.mt m.message_type = false := hkeeps.type ▸ hun
        unfold follow
        simp only [ssl3GetMessage, MessageState.next, hreuse, if_true, hun', false_eq_true,
          if_false, proceed_reused, parse, hun]
        have ih := follow_agrees server calls (items ++ [.again last.1 last.2])
          { m with part := .body, init_num := m.message_size, reuse_message := false } last
          ⟨hkeeps.type, hkeeps.size, hkeeps.body⟩
        simpa [Item.returned, Item.hashed, MessageState.msg, hkeeps.type, hkeeps.body] using ih
    | false =>
      simp only [follow, ssl3GetMessage, MessageState.next, hreuse, false_eq_true, if_false,
        messageResume, Nat.zero_lt_succ, if_true, proceed, parse,
        parseMessage_short server c (show ([] : Bytes).length < 4 by decide), append_nil]
      exact ⟨rfl, rfl, 4, rfl, rfl, rfl, rfl, hreuse, .header rfl (by decide) rfl rfl,
        parseMessage_short server c (by decide)⟩

variable {m : MessageState} {xs : Bytes} {len : ℕ}

section

variable (server : Bool) (c : Call) (calls : List Call) (hreuse : c.reuse = false)
  (items : List Item)
  (last : UInt8 × Bytes)

include hreuse

theorem body_agrees {p0 p1 p2 p3 : UInt8} {rest : Bytes}
    (hskip : (!server && p0 == ssl3MtHelloRequest && p1 == 0 && p2 == 0 && p3 == 0) = false)
    (hun : unexpected c.mt p0 = false) (hmax : ¬c.max < beNat [p1, p2, p3]) (hpart : m.part = .body)
    (htype : m.message_type = p0) (hsize : m.message_size = beNat [p1, p2, p3])
    (hle : rest.length ≤ m.message_size) (hnum : m.init_num = rest.length)
    (hbuf : m.init_buf = p0 :: p1 :: p2 :: p3 :: rest) (hre : m.reuse_message = false) :
    Agrees server
      (proceed server (items.filterMap Item.returned) (items.flatMap Item.hashed) calls c
        (messageBody m))
      (items ++ (parse server (c :: calls) last (p0 :: p1 :: p2 :: p3 :: rest)).1)
      (parse server (c :: calls) last (p0 :: p1 :: p2 :: p3 :: rest)).2 := by
  rcases hle.lt_or_eq with hlt | heq
  · -- Bytes of the body are missing.
    have hparse : parseMessage server c (p0 :: p1 :: p2 :: p3 :: rest) =
        ([], .begun (p0 :: p1 :: p2 :: p3 :: rest)) := by
      rw [hsize] at hlt
      simp only [parseMessage, hskip, hun, hmax, false_eq_true, if_false, hlt, if_true]
    simp only [messageBody, hnum, hlt, if_true, proceed, parse, hreuse, false_eq_true, if_false,
      hparse, append_nil]
    refine ⟨rfl, rfl, _, rfl, rfl, rfl, hre, hreuse, .body hpart htype hsize hlt hnum ?_, hparse⟩
    rw [hbuf]
    exact take_of_length_le (by simp; omega)
  have hparse : parseMessage server c (p0 :: p1 :: p2 :: p3 :: rest) =
      ([.message p0 [p1, p2, p3] rest], .message p0 rest []) := by
    have hl : beNat [p1, p2, p3] = rest.length := by rw [heq, hsize]
    rw [hl] at hmax
    simp only [parseMessage, hskip, hun, hl, hmax, false_eq_true, if_false, lt_irrefl,
      take_length, drop_length]
  have hmsg : m.msg = rest := by
    rw [MessageState.msg, hbuf, hnum]
    exact take_length
  have hhash : m.hashed = p0 :: [p1, p2, p3] ++ rest := by
    rw [MessageState.hashed, hbuf, hnum]
    exact take_of_length_le (by simp)
  simp only [messageBody, hnum, heq, lt_irrefl, if_false, proceed_got, parse, hreuse, hparse, hmsg,
    hhash, htype]
  have hfollow := follow_agrees server calls (items ++ [.message p0 [p1, p2, p3] rest]) m (p0, rest)
    ⟨htype, heq.symm, by rw [hbuf, ← heq]; exact take_length⟩
  simpa [Item.returned, Item.hashed] using hfollow

theorem feed_agrees (hbegun : Begun m bytes len) (hre : m.reuse_message = false)
    (hparse : parseMessage server c bytes = ([], .begun bytes)) (hle : xs.length ≤ len) :
    Agrees server
      (proceed server (items.filterMap Item.returned) (items.flatMap Item.hashed) calls c
        (messageResume server c.mt c.max (messageFeed xs m)))
      (items ++ (parse server (c :: calls) last (bytes ++ xs)).1)
      (parse server (c :: calls) last (bytes ++ xs)).2 := by
  cases hbegun with
  | header hpart hlt hnum hbuf =>
    have hfeed : messageFeed xs m =
        { m with init_buf := bytes ++ xs, init_num := (bytes ++ xs).length } := by
      simp only [messageFeed, MessageState.offset, hpart, hnum, hbuf, length_append]
    rw [hfeed]
    generalize hw : bytes ++ xs = w at *
    have hwlen : w.length ≤ 4 := by
      rw [← hw, length_append]
      omega
    rcases hwlen.lt_or_eq with hw4 | hw4
    · have hshort := parseMessage_short server c hw4
      simp only [messageResume, hpart, hw4, if_true, proceed, parse, hreuse, false_eq_true,
        if_false, hshort, append_nil]
      exact ⟨rfl, rfl, _, rfl, rfl, rfl, hre, hreuse, .header rfl hw4 rfl take_length, hshort⟩
    -- The header is complete: it is skipped, refused, or followed by its body.
    obtain ⟨p0, p1, p2, p3, rfl⟩ : ∃ p0 p1 p2 p3, w = [p0, p1, p2, p3] := by
      match w, hw4 with
      | [p0, p1, p2, p3], _ => exact ⟨p0, p1, p2, p3, rfl⟩
    simp only [messageResume, hpart, length_cons, length_nil, lt_irrefl, messageHeader,
      getD_cons_zero, getD_cons_succ]
    cases hskip : (!server && p0 == ssl3MtHelloRequest && p1 == 0 && p2 == 0 && p3 == 0) with
    | true =>
      simp only [if_true, proceed, parse, hreuse, if_false, parseMessage, hskip]
      exact ⟨by simp [Item.returned], by simp [Item.hashed], 4, rfl, rfl, rfl, hre, hreuse,
        .header rfl (by decide) rfl rfl, rfl⟩
    | false =>
      cases hun : unexpected c.mt p0 with
      | true =>
        simp only [if_true, proceed, parse, hreuse, false_eq_true, if_false, parseMessage, hskip,
          hun, append_nil]
        exact ⟨rfl, rfl, rfl, rfl, le_rfl⟩
      | false =>
        by_cases hmax : c.max < beNat [p1, p2, p3]
        · simp only [hmax, if_true, proceed, parse, hreuse, false_eq_true, if_false,
            parseMessage, hskip, hun, append_nil]
          exact ⟨rfl, rfl, rfl, rfl, le_rfl⟩
        · rw [if_neg hmax]
          exact body_agrees server c calls hreuse items last hskip hun hmax rfl rfl rfl
            (Nat.zero_le _) rfl rfl hre
  | @body p0 p1 p2 p3 rest hpart htype hsize hlt hnum hbuf =>
    -- The header is more than begun, and the body is not complete.
    simp only [parseMessage] at hparse
    split at hparse
    · simp at hparse
    split at hparse
    · simp at hparse
    split at hparse
    · simp at hparse
    next hskip hun hmax =>
    simp only [messageFeed, hpart, MessageState.offset, hnum, hbuf, cons_append]
    exact body_agrees server c calls hreuse items last (by simpa using hskip) (by simpa using hun)
      hmax rfl htype hsize (by rw [length_append]; dsimp only; omega) (length_append).symm rfl hre

end

theorem parseMessage_cases (server : Bool) (c : Call) {motive : Bytes → List Item × Parsed → Prop}
    (skip : ∀ rest, server = false → motive rest (parseMessage server c rest) →
      motive (0 :: 0 :: 0 :: 0 :: rest)
        (.skipped :: (parseMessage server c rest).1, (parseMessage server c rest).2))
    (alert : ∀ al w, (∀ xs, parseMessage server c (w ++ xs) = ([], .alert al (w ++ xs))) →
      motive w ([], .alert al w))
    (begun : ∀ w, motive w ([], .begun w))
    (message : ∀ p0 p1 p2 p3 body rest, body.length = beNat [p1, p2, p3] →
      (!server && p0 == ssl3MtHelloRequest && p1 == 0 && p2 == 0 && p3 == 0) = false →
      (∀ xs, parseMessage server c (p0 :: p1 :: p2 :: p3 :: (body ++ rest ++ xs)) =
        ([.message p0 [p1, p2, p3] body], .message p0 body (rest ++ xs))) →
      motive (p0 :: p1 :: p2 :: p3 :: (body ++ rest))
        ([.message p0 [p1, p2, p3] body], .message p0 body rest))
    (w : Bytes) : motive w (parseMessage server c w) := by
  have halert al {w} (h : ∀ xs, parseMessage server c (w ++ xs) = ([], .alert al (w ++ xs))) :
      motive w (parseMessage server c w) := by
    have h0 := h []
    rw [append_nil] at h0
    exact h0 ▸ alert al w h
  induction w using parseMessage.induct server c with
  | case1 p0 p1 p2 p3 rest hskip _ _ _ ih =>
    obtain ⟨⟨⟨⟨hs, rfl⟩, rfl⟩, rfl⟩, rfl⟩ :
        (((server = false ∧ p0 = 0) ∧ p1 = 0) ∧ p2 = 0) ∧ p3 = 0 := by
      simpa using hskip
    rw [parseMessage, if_pos hskip]
    exact skip rest hs ih
  | case2 p0 p1 p2 p3 rest hskip hun =>
    refine halert sslAdUnexpectedMessage fun xs => ?_
    rw [cons_append, cons_append, cons_append, cons_append, parseMessage, if_neg hskip, if_pos hun]
  | case3 p0 p1 p2 p3 rest l hskip hun hmax =>
    refine halert sslAdIllegalParameter fun xs => ?_
    rw [cons_append, cons_append, cons_append, cons_append, parseMessage, if_neg hskip, if_neg hun,
      if_pos hmax]
  | case4 p0 p1 p2 p3 rest l hskip hun hmax hlt =>
    rw [parseMessage, if_neg hskip, if_neg hun, if_neg hmax, if_pos hlt]
    exact begun _
  | case5 p0 p1 p2 p3 rest l hskip hun hmax hlt =>
    obtain ⟨body, rest, rfl, hbody⟩ : ∃ body rest', rest = body ++ rest' ∧ body.length = l :=
      ⟨rest.take l, rest.drop l, (take_append_drop l rest).symm,
        length_take_of_le (Nat.le_of_not_lt hlt)⟩
    have heq (xs) : parseMessage server c (p0 :: p1 :: p2 :: p3 :: (body ++ rest ++ xs)) =
        ([.message p0 [p1, p2, p3] body], .message p0 body (rest ++ xs)) := by
      rw [parseMessage, if_neg hskip, if_neg hun, if_neg hmax, if_neg (by simp; omega),
        show beNat [p1, p2, p3] = body.length from hbody.symm, append_assoc, take_left,
        drop_left]
    have heq0 := heq []
    rw [append_nil, append_nil] at heq0
    exact heq0 ▸ message p0 p1 p2 p3 body rest hbody (by simpa using hskip) heq
  | case6 w hw =>
    unfold parseMessage
    split
    · exact absurd rfl (hw _ _ _ _ _)
    · exact begun w

def Parsed.append (server : Bool) (c : Call) (xs : Bytes) : Parsed → List Item × Parsed
  | .begun bytes => parseMessage server c (bytes ++ xs)
  | .alert al bytes => ([], .alert al (bytes ++ xs))
  | .message type body rest => ([], .message type body (rest ++ xs))

theorem parseMessage_append (server : Bool) (c : Call) (w xs : Bytes) :
    let r := parseMessage server c w
    parseMessage server c (w ++ xs) =
      (r.1 ++ (r.2.append server c xs).1,
        (r.2.append server c xs).2) := by
  refine parseMessage_cases server c (motive := fun w p => parseMessage server c (w ++ xs) =
    (p.1 ++ (p.2.append server c xs).1, (p.2.append server c xs).2)) ?_ ?_ ?_ ?_ w
  · intro rest hs ih
    subst hs
    simp only [cons_append, parseMessage]
    rw [ih]
    rfl
  · intro al w heq
    exact heq xs
  · intro w
    rfl
  · intro p0 p1 p2 p3 body rest _ _ heq
    exact heq xs

def Status.append (server : Bool) (xs : Bytes) : Status → List Item × Status
  | .waiting c calls begun => parse server (c :: calls) (0, []) (begun ++ xs)
  | .alert al rest => ([], .alert al (rest ++ xs))
  | .finished rest => ([], .finished (rest ++ xs))

theorem parse_append (server : Bool) (xs : Bytes) : ∀ (calls : List Call)
    (last : UInt8 × Bytes) (w : Bytes),
    parse server calls last (w ++ xs) =
      ((parse server calls last w).1 ++ ((parse server calls last w).2.append server xs).1,
        ((parse server calls last w).2.append server xs).2)
  | [], _, _ => rfl
  | c :: calls, last, w => by
    cases hreuse : c.reuse with
    | true =>
      simp only [parse, hreuse]
      cases hun : unexpected c.mt last.1 with
      | true => rfl
      | false =>
        rw [parse_append server xs calls last w]
        rfl
    | false =>
      simp only [parse, hreuse, false_eq_true]
      rw [parseMessage_append]
      cases hm : parseMessage server c w with
      | mk items result =>
        cases result with
        | begun bytes =>
          simp only [Parsed.append, Status.append, parse, hreuse, if_false]
          cases hm' : parseMessage server c (bytes ++ xs) with
          | mk items' result' => cases result' <;> simp
        | alert al bytes => simp [Parsed.append, Status.append]
        | message type body rest =>
          simp only [Parsed.append]
          rw [parse_append server xs calls (type, body) rest]
          simp

def Item.Fits (server : Bool) : Item → Prop
  | .skipped => server = false
  | .message type length body => length.length = 3 ∧ body.length = beNat length ∧
      ¬(server = false ∧ type = ssl3MtHelloRequest ∧ body = [])
  | .again _ _ => True

def Parsed.rest : Parsed → Bytes
  | .begun bytes => bytes
  | .alert _ bytes => bytes
  | .message _ _ rest => rest

theorem parseMessage_items (server : Bool) (c : Call) (w : Bytes) :
    let r := parseMessage server c w
    w = r.1.flatMap Item.bytes ++ r.2.rest ∧
      ∀ i ∈ r.1, i.Fits server := by
  refine parseMessage_cases server c (motive := fun w p =>
    w = p.1.flatMap Item.bytes ++ p.2.rest ∧ ∀ i ∈ p.1, i.Fits server) ?_ ?_ ?_ ?_ w
  · intro rest hs ih
    refine ⟨?_, forall_mem_cons.mpr ⟨hs, ih.2⟩⟩
    exact congrArg (0 :: 0 :: 0 :: 0 :: ·) ih.1
  · intro al w _
    exact ⟨rfl, forall_mem_nil _⟩
  · intro w
    exact ⟨rfl, forall_mem_nil _⟩
  · intro p0 p1 p2 p3 body rest hlen hskip _
    refine ⟨by simp [Item.bytes, Parsed.rest], forall_mem_singleton.mpr ⟨rfl, hlen, ?_⟩⟩
    -- A message without a body has the length `00 00 00`.
    rintro ⟨rfl, rfl, rfl⟩
    have hzero : [p1, p2, p3] = [0, 0, 0] := beNat_inj rfl hlen.symm
    simp_all

theorem parse_items (server : Bool) : ∀ (calls : List Call) (last : UInt8 × Bytes)
    (w : Bytes), w = (parse server calls last w).1.flatMap Item.bytes ++
        (parse server calls last w).2.rest ∧ ∀ i ∈ (parse server calls last w).1, i.Fits server
  | [], _, _ => ⟨rfl, forall_mem_nil _⟩
  | c :: calls, last, w => by
    cases hreuse : c.reuse with
    | true =>
      simp only [parse, hreuse]
      cases hun : unexpected c.mt last.1 with
      | true => exact ⟨rfl, forall_mem_nil _⟩
      | false =>
        have ih := parse_items server calls last w
        exact ⟨ih.1, forall_mem_cons.mpr ⟨trivial, ih.2⟩⟩
    | false =>
      simp only [parse, hreuse, false_eq_true, if_false]
      have hitems := parseMessage_items server c w
      cases hm : parseMessage server c w with
      | mk items result =>
        rw [hm] at hitems
        cases result with
        | begun bytes => exact hitems
        | alert al bytes => exact hitems
        | message type body rest =>
          have ih := parse_items server calls (type, body) rest
          refine ⟨?_, forall_mem_append.mpr ⟨hitems.2, ih.2⟩⟩
          calc w = items.flatMap Item.bytes ++ rest := hitems.1
            _ = _ := by rw [flatMap_append, append_assoc, ← ih.1]

theorem Begun.resume (h : Begun m bytes len) (server : Bool) (mt : Option UInt8) (max : ℕ) :
    messageResume server mt max m = .want len m := by
  cases h with
  | header hpart hlt hnum _ => simp only [messageResume, hpart, hnum, hlt, if_true]
  | body hpart _ _ hlt hnum _ => simp only [messageResume, hpart, messageBody, hnum, hlt, if_true]

theorem Begun.pos (h : Begun m bytes len) : 0 < len := by
  cases h <;> omega

variable {server : Bool} {calls : List Call} {items : List Item} {status : Status} {r : Reading}

theorem Agrees.waiting {c : Call} (h : Agrees server r items status)
    (hwaits : r.waits = some (c, len)) : ∃ begun,
    status = .waiting c r.calls begun ∧ r.alert = none ∧ r.m.reuse_message = false ∧
      c.reuse = false ∧ Begun r.m begun len ∧ parseMessage server c begun = ([], .begun begun) := by
  cases status with
  | waiting c' cs begun =>
    obtain ⟨len', hwaits', rfl, hrest⟩ := h.status
    cases hwaits.symm.trans hwaits'
    exact ⟨begun, rfl, hrest⟩
  | _ => exact nomatch hwaits.symm.trans h.status.1

variable {w : Bytes}

/-- Reading that has taken the bytes `w`. -/
def Follows (server : Bool) (calls : List Call) (w : Bytes) (r : Reading) : Prop :=
  Agrees server r (parse server calls (0, []) w).1 (parse server calls (0, []) w).2

/-- A call that waits goes on by parsing the bytes that it is given, however few. -/
theorem Follows.feed {c : Call} (h : Follows server calls w r) (hwaits : r.waits = some (c, len))
    (hle : xs.length ≤ len) :
    Follows server calls (w ++ xs) (proceed server r.returned r.hashed r.calls c
      (messageResume server c.mt c.max (messageFeed xs r.m))) := by
  unfold Follows at h ⊢
  obtain ⟨begun, hstatus, -, hre, hreuse, hbegun, hparse⟩ := h.waiting hwaits
  rw [parse_append, hstatus, h.returned, h.hashed]
  exact feed_agrees server c r.calls hreuse _ (0, []) hbegun hre hparse hle

/-- A call that waits and is made once more waits again, in the same state. -/
theorem Follows.again {c : Call} (h : Follows server calls w r) (hwaits : r.waits = some (c, len)) :
    proceed server r.returned r.hashed r.calls c (ssl3GetMessage server c.mt c.max r.m) = r := by
  obtain ⟨begun, -, halert, hre, -, hbegun, -⟩ := Agrees.waiting h hwaits
  rw [ssl3GetMessage, if_neg (hre ▸ Bool.false_ne_true), hbegun.resume]
  simp only [proceed]
  rw [← hwaits, ← halert]

theorem Follows.pos {c : Call} (h : Follows server calls w r) (hwaits : r.waits = some (c, len)) :
    0 < len := by
  obtain ⟨begun, -, -, -, -, hbegun, -⟩ := Agrees.waiting h hwaits
  exact hbegun.pos

theorem start_follows (server : Bool) (calls : List Call) :
    Follows server calls [] (.start server calls) := by
  have h := follow_agrees server calls [] .init (0, []) ⟨rfl, rfl, rfl⟩
  cases calls <;> exact h

/-! ## Comparing readings -/

/-- The results of two readings are the same. -/
structure Reading.Same (r r' : Reading) : Prop where
  returned : r.returned = r'.returned
  hashed : r.hashed = r'.hashed
  alert : r.alert = r'.alert

variable {r' : Reading}

theorem Reading.Same.symm (h : r.Same r') : r'.Same r :=
  ⟨h.returned.symm, h.hashed.symm, h.alert.symm⟩

theorem Follows.mono (h : Follows server calls w r) (h' : Follows server calls (w ++ xs) r') :
    r.returned <+: r'.returned ∧ r.hashed <+: r'.hashed := by
  rw [h.returned, h.hashed, h'.returned, h'.hashed, parse_append, filterMap_append, flatMap_append]
  exact ⟨prefix_append _ _, prefix_append _ _⟩

theorem Agrees.same (h : Agrees server r items status) (h' : Agrees server r' items status) :
    r.Same r' := by
  refine ⟨h.returned.trans h'.returned.symm, h.hashed.trans h'.hashed.symm, ?_⟩
  cases status with
  | waiting c cs begun =>
    obtain ⟨_, -, -, halert, -⟩ := h.status
    obtain ⟨_, -, -, halert', -⟩ := h'.status
    rw [halert, halert']
  | _ => rw [h.status.2.1, h'.status.2.1]

theorem Follows.done (h : Follows server calls w r) (h' : Follows server calls (w ++ xs) r')
    (hdone : r.waits = none) : r.Same r' := by
  unfold Follows at h h'
  rw [parse_append] at h'
  cases hstatus : (parse server calls (0, []) w).2 with
  | waiting c cs begun =>
    obtain ⟨len, hwaits, -⟩ := (hstatus ▸ h).status
    exact nomatch hdone.symm.trans hwaits
  | _ =>
    rw [hstatus] at h h'
    simp only [Status.append, append_nil] at h'
    exact ⟨h.returned.trans h'.returned.symm, h.hashed.trans h'.hashed.symm,
      h.status.2.1.trans h'.status.2.1.symm⟩

theorem Follows.complete (h : Follows server calls w r) (h' : Follows server calls (w ++ xs) r')
    (hc : r.waits = none ∨ xs = []) : r.Same r' := by
  rcases hc with hdone | rfl
  · exact h.done h' hdone
  · rw [append_nil] at h'
    exact Agrees.same h h'

/-- Each byte is part of a message returned and hashed, of a Hello Request that a client skipped, or
of what is begun or refused at the end. -/
structure Accounts (server : Bool) (r : Reading) (bytes : Bytes) (items : List Item)
    (tail : Bytes) : Prop where
  bytes : bytes = items.flatMap Item.bytes ++ tail
  fits : ∀ i ∈ items, i.Fits server
  returned : r.returned = items.filterMap Item.returned
  hashed : r.hashed = items.flatMap Item.hashed
  /-- Bytes of a message that is not complete. -/
  waiting : ∀ c len, r.waits = some (c, len) → parseMessage server c tail = ([], .begun tail)
  /-- The header of a message that is refused. -/
  ended : r.waits = none → tail.length ≤ 4 ∧ (r.alert = none → tail = [])

theorem Follows.accounts (h : Follows server calls w r) :
    Accounts server r w (parse server calls (0, []) w).1 (parse server calls (0, []) w).2.rest := by
  obtain ⟨hbytes, hfits⟩ := parse_items server calls (0, []) w
  refine ⟨hbytes, hfits, h.returned, h.hashed, ?_, ?_⟩
  · intro c len hwaits
    obtain ⟨begun, hst, -, -, -, -, hparse⟩ := Agrees.waiting h hwaits
    rw [hst]
    exact hparse
  intro hdone
  have hst := h.status
  split at hst
  · obtain ⟨len', hwaits', -⟩ := hst
    exact nomatch hdone.symm.trans hwaits'
  · next al rest heq =>
    rw [heq]
    exact ⟨hst.2.2, fun hnone => nomatch hnone.symm.trans hst.2.1⟩
  · next rest heq =>
    rw [heq]
    exact ⟨by rw [hst.2.2]; exact Nat.zero_le _, fun _ => hst.2.2⟩

end VigorTls.Tls
