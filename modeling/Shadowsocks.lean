import Shadowsocks.Tcp.SaltReplay
import Shadowsocks.Tcp.Integrity2022
import Shadowsocks.Server.UdpReplay
import Shadowsocks.Udp.PacketIds
import Shadowsocks.Tcp.ServerResponse
import Shadowsocks.Realm.Routing
import Shadowsocks.Realm.ServeLoop
import Shadowsocks.Realm.PathManager
import Shadowsocks.Local.CarrierCache
import Shadowsocks.Acl.Compile
import Shadowsocks.Acl.Outbound
import Shadowsocks.Realm.Events
import Shadowsocks.Local.FakeDns
import Shadowsocks.Local.DnsClient
import Shadowsocks.Local.Balancer
import Shadowsocks.Local.Socks
import Shadowsocks.Local.HttpClient
import Shadowsocks.Local.ReverseLookup
import Shadowsocks.Realm.Control
import Shadowsocks.Realm.Stun
import Shadowsocks.Realm.NatPmp
import Shadowsocks.Realm.Url
import Shadowsocks.Udp.CipherCache
import Shadowsocks.Net.OutboundUdp
import Shadowsocks.Local.BestServer
import Shadowsocks.Manager.Server
import Shadowsocks.Local.TunTcp
import Shadowsocks.Config.ProxyUrl
