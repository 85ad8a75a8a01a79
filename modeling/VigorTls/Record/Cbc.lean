import VigorTls.Lib.Bytes

/-!
# CBC records

`tls1_cbc_remove_padding` and `ssl3_cbc_copy_mac` of `ssl/s3_cbc.c`, over the operations of
`crypto/constant_time_locl.h`. The padding stays behind the end of a record, and its length is
passed on in the upper bits of `rec->type`.
-/

namespace VigorTls.Record

variable (a b : UInt32)

def constantTimeMsb : UInt32 := (0 : UInt32) - (a >>> (31 : UInt32))

def constantTimeLt : UInt32 :=
  constantTimeMsb (a ^^^ ((a ^^^ b) ||| ((a - b) ^^^ b)))

def constantTimeGe : UInt32 := ~~~constantTimeLt a b

def constantTimeGe8 : UInt8 := (constantTimeGe a b).toUInt8

def constantTimeIsZero : UInt32 := constantTimeMsb (~~~a &&& (a - 1))

def constantTimeEq : UInt32 := constantTimeIsZero (a ^^^ b)

def constantTimeSelect (mask a b : UInt32) : UInt32 := (mask &&& a) ||| (~~~mask &&& b)

def constantTimeSelectInt (mask : UInt32) (a b : Int32) : ℤ :=
  (constantTimeSelect mask a.toUInt32 b.toUInt32).toInt32.toInt

/-- `SSL3_RECORD`, on the way in. -/
structure Rec where
  type : ℕ
  data : Bytes
  length : ℕ

/-- `tls1_cbc_remove_padding`; `aead` is `EVP_CIPH_FLAG_AEAD_CIPHER` of the cipher. -/
def tls1CbcRemovePadding (explicit_iv aead : Bool) (r : Rec) (block_size mac_size : ℕ) : ℤ × Rec :=
  let overhead := 1 + mac_size
  if (if explicit_iv then overhead + block_size else overhead) > r.length then (0, r)
  else
    let r :=
      if explicit_iv then
        { r with data := r.data.drop block_size, length := r.length - block_size }
      else r
    let padding_length := (r.data.getD (r.length - 1) 0).toUInt32
    if aead then
      -- The padding is already verified.
      (1, { r with length := (UInt32.ofNat r.length - (padding_length + 1)).toNat })
    else
      let good := constantTimeGe (.ofNat r.length) (.ofNat overhead + padding_length)
      let to_check := if 255 > r.length - 1 then r.length - 1 else 255
      let good := (List.range to_check).foldl (fun good i =>
        let mask := constantTimeGe8 padding_length (.ofNat i)
        let b := r.data.getD (r.length - 1 - i) 0
        good &&& ~~~(mask.toUInt32 &&& (padding_length ^^^ b.toUInt32))) good
      let good := constantTimeEq 0xff (good &&& 0xff)
      let padding_length := good &&& (padding_length + 1)
      (constantTimeSelectInt good 1 (-1),
        { r with type := r.type ||| padding_length.toNat <<< 8,
                 length := r.length - padding_length.toNat })

/-- The reduction of `rotate_offset` modulo `md_size`; other sizes fail an assertion. -/
def reduceOffset (md_size : ℕ) (rotate_offset : UInt32) : Option UInt32 :=
  let barrett (factor size : UInt32) : UInt32 :=
    let q := (rotate_offset * factor) >>> 9
    let rotate_offset := rotate_offset - q * size
    rotate_offset - constantTimeSelect (constantTimeGe rotate_offset size) size 0
  if md_size = 16 then some (rotate_offset &&& 15)
  else if md_size = 20 then some (barrett 25 20)
  else if md_size = 32 then some (rotate_offset &&& 31)
  else if md_size = 48 then some (barrett 10 48)
  else none

/-- `ssl3_cbc_copy_mac`, with `none` for a failed assertion. -/
def ssl3CbcCopyMac (r : Rec) (md_size orig_len : ℕ) : Option Bytes :=
  let mac_end : UInt32 := .ofNat r.length
  let mac_start := mac_end - .ofNat md_size
  if orig_len < md_size ∨ 64 < md_size then none
  else
    let scan_start := if orig_len > md_size + 255 + 1 then orig_len - (md_size + 255 + 1) else 0
    (reduceOffset md_size (mac_start - .ofNat scan_start)).map fun rotate_offset =>
      let rotated_mac := (List.range' scan_start (orig_len - scan_start)).foldl (fun (mac, j) i =>
        let mac_started := constantTimeGe8 (.ofNat i) mac_start
        let mac_ended := constantTimeGe8 (.ofNat i) mac_end
        let b := r.data.getD i 0
        let mac := mac.modify j fun m => m ||| (b &&& mac_started &&& ~~~mac_ended)
        let j := j + 1
        (mac, (UInt32.ofNat j &&& constantTimeLt (.ofNat j) (.ofNat md_size)).toNat))
        (List.replicate md_size (0 : UInt8), 0)
      ((List.range md_size).foldl (fun (out, rotate_offset) _ =>
        let out := out ++ [rotated_mac.1.getD rotate_offset.toNat 0]
        let rotate_offset := rotate_offset + 1
        (out, rotate_offset &&& constantTimeLt rotate_offset (.ofNat md_size)))
        (([] : Bytes), rotate_offset)).1

end VigorTls.Record
