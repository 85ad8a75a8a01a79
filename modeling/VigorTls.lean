import VigorTls.Hello.Cookie
import VigorTls.Hello.ServerName
import VigorTls.Hello.Curves
import VigorTls.Hello.NextProto
import VigorTls.Hello.SigAlgs
import VigorTls.Record.WriteBytes
import VigorTls.Dtls.Discard
import VigorTls.Dtls.Early
import VigorTls.Dtls.Channel
import VigorTls.Dtls.Sender
import VigorTls.Tls.Delivery
import VigorTls.Tls.Finished
import VigorTls.Tls.ClientAuth
import VigorTls.Tls.Alerts
import VigorTls.Bytestring.Definite
import VigorTls.Session.CacheRun
import VigorTls.Hash.Failure
import VigorTls.Sk.Sorted
import VigorTls.Poly1305.Stream
import VigorTls.X509.Runs
import VigorTls.Session.Ticket
import VigorTls.Record.CbcRoundTrip
import VigorTls.Record.Prf
import VigorTls.Asn1.Reuse
import VigorTls.Asn1.Time
import VigorTls.Bn.Kronecker
import VigorTls.Bn.Reciprocal
import VigorTls.Bn.SqrtRoot
import VigorTls.Rsa.ModExp
import VigorTls.Evp.Update
import VigorTls.Ec.PointOctets
import VigorTls.Hello.ServerHello
import VigorTls.Tls.KexRsa
import VigorTls.X509.Matching
