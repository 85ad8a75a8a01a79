import Mathlib.Data.Nat.Notation

/-!
# Constants

The protocol constants of `include/openssl/ssl3.h`, `dtls1.h` and `ssl.h` that the modelled
functions read, under their own names.
-/

namespace VigorTls

/-! ## Record types, message types and alerts -/

abbrev ssl3RtChangeCipherSpec : ℕ := 20
abbrev ssl3RtAlert : ℕ := 21
abbrev ssl3RtHandshake : ℕ := 22
abbrev ssl3RtApplicationData : ℕ := 23

abbrev ssl3MtHelloRequest : UInt8 := 0
abbrev ssl3MtClientHello : UInt8 := 1
abbrev ssl3MtServerHello : UInt8 := 2
abbrev ssl3MtNewsessionTicket : UInt8 := 4
abbrev ssl3MtCertificate : UInt8 := 11
abbrev ssl3MtServerKeyExchange : UInt8 := 12
abbrev ssl3MtCertificateRequest : UInt8 := 13
abbrev ssl3MtServerDone : UInt8 := 14
abbrev ssl3MtCertificateVerify : UInt8 := 15
abbrev ssl3MtClientKeyExchange : UInt8 := 16
abbrev ssl3MtFinished : UInt8 := 20
abbrev ssl3MtCertificateStatus : UInt8 := 22
abbrev ssl3MtNextProto : UInt8 := 67
abbrev ssl3MtCcs : UInt8 := 1

abbrev ssl3AlWarning : ℕ := 1
abbrev ssl3AlFatal : ℕ := 2

abbrev sslAdCloseNotify : ℕ := 0
abbrev sslAdUnexpectedMessage : ℕ := 10
abbrev sslAdBadRecordMac : ℕ := 20
abbrev sslAdDecryptionFailed : ℕ := 21
abbrev sslAdRecordOverflow : ℕ := 22
abbrev sslAdHandshakeFailure : ℕ := 40
abbrev sslAdIllegalParameter : ℕ := 47
abbrev sslAdDecodeError : ℕ := 50
abbrev sslAdDecryptError : ℕ := 51
abbrev sslAdProtocolVersion : ℕ := 70
abbrev sslAdInternalError : ℕ := 80
abbrev sslAdInappropriateFallback : ℕ := 86
abbrev sslAdNoRenegotiation : ℕ := 100
abbrev sslAdUnrecognizedName : ℕ := 112

/-! ## Versions, ciphers and extensions -/

abbrev ssl3VersionMajor : ℕ := 0x03
abbrev tls1Version : ℕ := 0x0301
abbrev tls11Version : ℕ := 0x0302
abbrev tls12Version : ℕ := 0x0303
abbrev dtls1Version : ℕ := 0xfeff
abbrev dtls12Version : ℕ := 0xfefd
abbrev dtlsAnyVersion : ℕ := 0x1ffff

abbrev ssl3CkId : ℕ := 0x03000000
abbrev ssl3CkScsv : ℕ := 0x030000ff
abbrev ssl3CkFallbackScsv : ℕ := 0x03005600

abbrev tlsextTypeServerName : ℕ := 0
abbrev tlsextTypeStatusRequest : ℕ := 5
abbrev tlsextTypeEllipticCurves : ℕ := 10
abbrev tlsextTypeEcPointFormats : ℕ := 11
abbrev tlsextTypeSignatureAlgorithms : ℕ := 13
abbrev tlsextTypeUseSrtp : ℕ := 14
abbrev tlsextTypeAlpn : ℕ := 16
abbrev tlsextTypeSessionTicket : ℕ := 35
abbrev tlsextTypeNextProtoNeg : ℕ := 13172
abbrev tlsextTypeRenegotiate : ℕ := 0xff01

/-! ## Lengths -/

abbrev ssl3RtHeaderLength : ℕ := 5
abbrev dtls1RtHeaderLength : ℕ := 13
abbrev ssl3RtMaxPlainLength : ℕ := 16384
abbrev ssl3RtMaxCompressedLength : ℕ := ssl3RtMaxPlainLength
abbrev ssl3RtMaxExtra : ℕ := 16384
abbrev ssl3RtMaxEncryptedLength : ℕ := 256 + 64 + 16384

abbrev ssl3RtSendMaxEncryptedOverhead : ℕ := 16 + 64
abbrev evpGcmTlsFixedIvLen : ℕ := 4
abbrev evpGcmTlsExplicitIvLen : ℕ := 8

abbrev dtls1CookieLength : ℕ := 256
abbrev sslMaxSslSessionIdLength : ℕ := 32
abbrev ssl3RandomSize : ℕ := 32
abbrev tlsextMaxlenHostName : ℕ := 255

/-- The offset that puts a record's payload on an eight-byte boundary: a constant, as `malloc`
aligns for every type. -/
abbrev ssl3Align : ℕ := 3

end VigorTls
