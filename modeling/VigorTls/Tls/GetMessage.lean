import VigorTls.Constants
import VigorTls.Lib.Bytes

/-!
# Reading a handshake message over TLS

`ssl3_get_message` of `ssl/s3_both.c`. It keeps its progress in the connection (`init_num` bytes of
the header in state `st1`, of the body in `stn`) and is called again when a read would block. A call
is cut at its reads: `ssl3GetMessage` runs up to the first, `messageFeed` takes what a read
returned, `messageResume` goes on from there. Callers read one message after the other (`Reading`).
-/

namespace VigorTls.Tls

open Lib

/-! ## The function -/

/-- `st1` for the header, `stn` for the body. -/
inductive Part where
  | header
  | body
deriving DecidableEq

/-- The fields of the connection that reading a message works on. -/
structure MessageState where
  part : Part
  init_num : ℕ
  /-- The bytes at `init_buf->data`, as far as they have been written. -/
  init_buf : Bytes
  message_type : UInt8
  message_size : ℕ
  reuse_message : Bool

/-- How far a call gets without reading. -/
inductive Progress where
  | want (len : ℕ) (m : MessageState)
  /-- The message is there, and is fed into the MAC. -/
  | got (m : MessageState)
  | reused (m : MessageState)
  | alert (al : ℕ) (m : MessageState)

variable (mt : Option UInt8) (m : MessageState)

/-- Whether a message of type `t` is not the one asked for. -/
def unexpected (t : UInt8) : Bool := mt.any (· ≠ t)

/-- The last part of `ssl3_get_message`: the body. -/
def messageBody : Progress :=
  if m.init_num < m.message_size then .want (m.message_size - m.init_num) m else .got m

variable (server : Bool)

/-- The part of `ssl3_get_message` after the four bytes of the header. -/
def messageHeader (mt : Option UInt8) (max : ℕ) (m : MessageState) : Progress :=
  let p i := m.init_buf.getD i 0
  if !server && p 0 == ssl3MtHelloRequest && p 1 == 0 && p 2 == 0 && p 3 == 0 then
    -- A Hello Request is skipped.
    .want 4 { m with init_num := 0 }
  else if unexpected mt (p 0) then .alert sslAdUnexpectedMessage m
  else
    let l := beNat [p 1, p 2, p 3]
    let m := { m with message_type := p 0 }
    if max < l then .alert sslAdIllegalParameter m
    else messageBody { m with message_size := l, part := .body, init_num := 0 }

/-- `ssl3_get_message` from its reads on. -/
def messageResume (mt : Option UInt8) (max : ℕ) (m : MessageState) : Progress :=
  match m.part with
  | .header =>
    if m.init_num < 4 then .want (4 - m.init_num) m else messageHeader server mt max m
  | .body => messageBody m

def MessageState.offset : ℕ :=
  match m.part with
  | .header => m.init_num
  | .body => 4 + m.init_num

/-- The bytes that a read returned are put in place. -/
def messageFeed (bytes : Bytes) (m : MessageState) : MessageState :=
  { m with init_buf := m.init_buf.take m.offset ++ bytes, init_num := m.init_num + bytes.length }

/-- `ssl3_get_message`, up to its first read. -/
def ssl3GetMessage (mt : Option UInt8) (max : ℕ) (m : MessageState) : Progress :=
  if m.reuse_message then
    let m := { m with reuse_message := false }
    if unexpected mt m.message_type then .alert sslAdUnexpectedMessage m
    else .reused { m with part := .body, init_num := m.message_size }
  else messageResume server mt max m

/-- The body that is returned. -/
def MessageState.msg : Bytes := (m.init_buf.drop 4).take m.init_num

/-- What `tls1_finish_mac` is given. -/
def MessageState.hashed : Bytes := m.init_buf.take (m.init_num + 4)

structure Call where
  mt : Option UInt8
  max : ℕ
  /-- Whether the caller has set the message before aside. -/
  reuse : Bool

/-- Messages that are read one after the other. -/
structure Reading where
  m : MessageState
  /-- The call that waits for bytes, and how many it has asked for. -/
  waits : Option (Call × ℕ)
  calls : List Call
  returned : List (UInt8 × Bytes)
  hashed : Bytes
  alert : Option ℕ

/-- The caller is done with a message: the next one begins. -/
def MessageState.next (reuse : Bool) : MessageState :=
  { m with part := .header, init_num := 0, reuse_message := reuse }

/-- Go on from where a call has got, through the calls that need no bytes. -/
def proceed (server : Bool) (returned : List (UInt8 × Bytes)) (hashed : Bytes) :
    List Call → Call → Progress → Reading
  | calls, c, .want len m => ⟨m, some (c, len), calls, returned, hashed, none⟩
  | _, _, .alert al m => ⟨m, none, [], returned, hashed, some al⟩
  | [], _, .got m =>
    ⟨m, none, [], returned ++ [(m.message_type, m.msg)], hashed ++ m.hashed, none⟩
  | [], _, .reused m => ⟨m, none, [], returned ++ [(m.message_type, m.msg)], hashed, none⟩
  | c :: calls, _, .got m =>
    proceed server (returned ++ [(m.message_type, m.msg)]) (hashed ++ m.hashed) calls c
      (ssl3GetMessage server c.mt c.max (m.next c.reuse))
  | c :: calls, _, .reused m =>
    proceed server (returned ++ [(m.message_type, m.msg)]) hashed calls c
      (ssl3GetMessage server c.mt c.max (m.next c.reuse))

def MessageState.init : MessageState := ⟨.header, 0, [], 0, 0, false⟩

def Reading.start : List Call → Reading
  | [] => ⟨.init, none, [], [], [], none⟩
  | c :: calls =>
    proceed server [] [] calls c (ssl3GetMessage server c.mt c.max (MessageState.init.next c.reuse))

end VigorTls.Tls
