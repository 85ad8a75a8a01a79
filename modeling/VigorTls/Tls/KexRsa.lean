import VigorTls.Constants
import VigorTls.Record.DigestRecord

/-!
# The premaster secret under RSA

`ssl3_get_client_kex_rsa` of `ssl/s3_srvr.c` picks the premaster secret with masks, so that nothing
but the secret depends on what `RSA_private_decrypt` made of the ciphertext.
-/

namespace VigorTls.Tls

open Lib Record BitVec

structure KexServer where
  /-- There is a private key at `SSL_PKEY_RSA_ENC`, and it is one of RSA. -/
  has_rsa : Bool
  client_version : Int32
  version : Int32
  rollback_bug : Bool

/-- An alert, a failure without one (`RAND_bytes` failed), or the premaster secret that
`generate_master_secret` is given. -/
inductive KexOutcome
  | alert (al : ℕ)
  | failed
  | derived (premaster : Bytes)

/-- The return value, and the alert that is sent. -/
def KexOutcome.observed : KexOutcome → ℤ × Option ℕ
  | .alert al => (-1, some al)
  | .failed => (-1, none)
  | .derived _ => (1, none)

/-- The checks on the message, and the ciphertext in it. -/
def kexRsaCiphertext (s : KexServer) (msg : Bytes) : Except ℕ Bytes :=
  if !s.has_rsa then .error sslAdHandshakeFailure
  else if 2 > msg.length then .error sslAdDecodeError
  else
    let i := beNat (msg.take 2)
    if msg.length ≠ i + 2 then .error sslAdDecodeError
    else if 2 + 2 > i then .error sslAdDecodeError
    else if i < 48 then .error sslAdDecryptError
    else .ok (msg.drop 2)

/-- The two bytes are those of a version. -/
def versionMask (p : Bytes) (version : Int32) : UInt8 :=
  constantTimeEq8 (p.getD 0 0).toUInt32 (version >>> 8).toUInt32 &&&
    constantTimeEq8 (p.getD 1 0).toUInt32 (version &&& 0xff).toUInt32

/-- `ssl3_get_client_kex_rsa`, for what `RAND_bytes` gives and what `RSA_private_decrypt` returns
and writes. -/
def ssl3GetClientKexRsa (s : KexServer) (msg : Bytes) (rand : Option (Vector UInt8 48))
    (decrypt : (c : Bytes) → Int32 × Vector UInt8 c.length) : KexOutcome :=
  match kexRsaCiphertext s msg, rand with
  | .error al, _ => .alert al
  | .ok _, none => .failed
  | .ok c, some rand_premaster_secret =>
    let decrypt_len := (decrypt c).1
    let p := (decrypt c).2.toList
    let decrypt_good := constantTimeEq8 decrypt_len.toUInt32 (48 : Int32).toUInt32
    let version_good := versionMask p s.client_version
    let version_good :=
      if s.rollback_bug then version_good ||| versionMask p s.version else version_good
    let decrypt_good := decrypt_good &&& version_good
    .derived ((List.range 48).map fun j =>
      constantTimeSelect8 decrypt_good (p.getD j 0) (rand_premaster_secret.toList.getD j 0))

/-- The first two bytes are the version, as a number. -/
def VersionIs (p : Bytes) (version : Int32) : Prop := (beNat (p.take 2) : ℤ) = version.toInt

instance (p : Bytes) (version : Int32) : Decidable (VersionIs p version) :=
  inferInstanceAs (Decidable (_ = _))

theorem constantTimeEq8_eq (a b : UInt32) : constantTimeEq8 a b = mask8 (a = b) := by
  rw [constantTimeEq8, constantTimeEq_eq, toUInt8_mask]

theorem version_parts (v : Int32) (a b : UInt8) :
    a.toUInt32 = (v >>> 8).toUInt32 ∧ b.toUInt32 = (v &&& 0xff).toUInt32 ↔
      ((a.toNat * 256 + b.toNat : ℕ) : ℤ) = v.toInt := by
  have hb := b.toNat_lt
  have hv : v.toInt = if 2 * v.toUInt32.toNat < 2 ^ 32 then (v.toUInt32.toNat : ℤ)
      else v.toUInt32.toNat - (2 ^ 32) := toInt_eq_toNat_cond v.toBitVec
  have hhigh : a.toUInt32 = (v >>> 8).toUInt32 ↔ a.toNat = v.toInt / 256 := by
    rw [← UInt32.toBitVec_inj, ← toInt_inj]
    show (setWidth 32 a.toBitVec).toInt = (v.toBitVec.sshiftRight 8).toInt ↔ _
    rw [toInt_sshiftRight, toInt_setWidth, Int.bmod_eq_of_le, Int.shiftRight_eq_div_pow]
    · rfl
    all_goals
      omega
  have hlow : b.toUInt32 = (v &&& 0xff).toUInt32 ↔ b.toNat = v.toUInt32.toNat % 256 := by
    rw [← UInt32.toNat_inj, Int32.toUInt32_and]
    exact Eq.congr_right (Nat.and_two_pow_sub_one_eq_mod _ 8)
  rw [hhigh, hlow]
  omega

theorem versionMask_eq {p : Bytes} (hp : 2 ≤ p.length) (version : Int32) :
    versionMask p version = mask8 (VersionIs p version) := by
  obtain ⟨a, b, rest, rfl⟩ : ∃ a b rest, p = a :: b :: rest := by
    match p, hp with
    | a :: b :: rest, _ => exact ⟨a, b, rest, rfl⟩
  rw [versionMask, constantTimeEq8_eq, constantTimeEq8_eq, mask8_and_mask8]
  refine if_congr ((version_parts version a b).trans ?_) rfl rfl
  simp [VersionIs, beNat_cons]

theorem map_getD_range {l : Bytes} {n : ℕ} (h : n ≤ l.length) :
    (List.range n).map (l.getD · 0) = l.take n := by
  refine List.ext_getElem (by simp [h]) fun i hi _ => ?_
  simp only [List.length_map, List.length_range] at hi
  simp [hi.trans_le h]

/-- What goes into the master secret are the first 48 bytes decrypted, when there are 48 and they
start with the right version, and the random ones otherwise. The return value and the alert are the
same. -/
theorem premaster_selected (s : KexServer) (msg : Bytes) (rand : Option (Vector UInt8 48))
    (decrypt : (c : Bytes) → Int32 × Vector UInt8 c.length) :
    (∀ c r, kexRsaCiphertext s msg = .ok c → rand = some r →
      let p := (decrypt c).2.toList
      ssl3GetClientKexRsa s msg rand decrypt = .derived
        (if (decrypt c).1 = 48 ∧
            (VersionIs p s.client_version ∨ s.rollback_bug ∧ VersionIs p s.version)
          then p.take 48 else r.toList)) ∧
      ∀ decrypt', (ssl3GetClientKexRsa s msg rand decrypt').observed =
        (ssl3GetClientKexRsa s msg rand decrypt).observed := by
  refine ⟨fun c r hc hr => ?_, fun decrypt' => ?_⟩
  · have hp : 48 ≤ (decrypt c).2.toList.length := by
      simp only [kexRsaCiphertext] at hc
      split_ifs at hc
      cases hc
      simp
      omega
    have hr48 : (List.range 48).map (r.toList.getD · 0) = r.toList := by
      rw [map_getD_range (by simp), List.take_of_length_le (by simp)]
    have hlen : (decrypt c).1.toUInt32 = (48 : Int32).toUInt32 ↔ (decrypt c).1 = 48 :=
      ⟨congrArg Int32.ofUInt32, congrArg Int32.toUInt32⟩
    have hversion := fun v => @versionMask_eq (decrypt c).2.toList (hp.trans' (by decide)) v
    have hrollback (A B) [Decidable A] [Decidable B] :
        (if s.rollback_bug then mask8 A ||| mask8 B else mask8 A) =
          mask8 (A ∨ s.rollback_bug ∧ B) := by
      cases s.rollback_bug <;> simp [mask8_or_mask8]
    -- The masks are those of the conditions, and all bytes are picked by the same one.
    simp only [ssl3GetClientKexRsa, hc, hr, hversion, constantTimeEq8_eq, hlen, hrollback,
      mask8_and_mask8, constantTimeSelect8_mask8]
    rw [← map_getD_range hp]
    split_ifs
    · rfl
    · rw [hr48]
  · unfold ssl3GetClientKexRsa
    cases kexRsaCiphertext s msg with
    | error al => rfl
    | ok c => cases rand <;> simp [KexOutcome.observed]

/-- A secret that starts with the version of the ClientHello. -/
theorem premaster_selected_good :
    ssl3GetClientKexRsa ⟨true, 0x0303, 0x0303, false⟩ ([0, 48] ++ List.replicate 48 5)
        (some (.replicate 48 0)) (fun c => (48, .replicate c.length 3)) =
      .derived (List.replicate 48 3) := by
  have hc : kexRsaCiphertext ⟨true, 0x0303, 0x0303, false⟩ ([0, 48] ++ List.replicate 48 5) =
      .ok (List.replicate 48 5) := by simp [kexRsaCiphertext, beNat]
  have h := (premaster_selected _ _ (some (.replicate 48 0))
    fun c => (48, .replicate c.length 3)).1 _ _ hc rfl
  simpa [VersionIs, beNat] using h

end VigorTls.Tls
