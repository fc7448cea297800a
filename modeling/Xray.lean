import Xray.Proofs.Admission
import Xray.Proofs.Connection
import Xray.Proofs.Datagram
import Xray.Proofs.DnsAnswer
import Xray.Proofs.DnsPrefilter
import Xray.Proofs.DnsWalkers
import Xray.Proofs.FakeIp
import Xray.Proofs.FirstPayload
import Xray.Proofs.Fragmentation
import Xray.Proofs.HttpResponse
import Xray.Proofs.MaskBounds
import Xray.Proofs.MuxEnd
import Xray.Proofs.MuxWire
import Xray.Proofs.PacketUp
import Xray.Proofs.PenetratingTls
import Xray.Proofs.QuicSniff
import Xray.Proofs.RoutingRules
import Xray.Proofs.ShadowsocksStream
import Xray.Proofs.SrvOrder
import Xray.Proofs.TcpSniff
import Xray.Proofs.Udp2022
import Xray.Proofs.UdpFlow
import Xray.Proofs.VisionFraming
import Xray.Proofs.VmessRecords
import Xray.Proofs.WriteLoop
import Xray.Proofs.ServerPlan
import Xray.Proofs.KcpEnd
import Xray.Proofs.KcpDriver
