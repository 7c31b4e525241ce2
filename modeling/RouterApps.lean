import RouterApps.Udhcpd.Reservation
import RouterApps.Udhcpd.Tenure
import RouterApps.Udhcpd.Grant
import RouterApps.Udhcpd.Restart
import RouterApps.GenConfig.Injection
import RouterApps.GenConfig.Rewrite
import RouterApps.GenConfig.LastWrite
import RouterApps.GenConfig.Locking
import RouterApps.Dhcplib.Reservations
import RouterApps.Udhcpd.StaticFile
import RouterApps.Dhcplib.ConfigRoundTrip
import RouterApps.Network.RtDb
import RouterApps.Pforward.Serializable
import RouterApps.Syslog.ReadBack
import RouterApps.Netdetect.Counts
import RouterApps.SmartQos.Events
import RouterApps.Boa.Packets
import RouterApps.Conntrack.Cap
import RouterApps.Igmpproxy.Rules
import RouterApps.Twinip.Replies
import RouterApps.Udhcpd.Refusals
import RouterApps.Udhcpd.LeaseTime
import RouterApps.GenConfig.Bulk
import RouterApps.Pforward.Leftover
import RouterApps.Igmpproxy.Sweep
import RouterApps.Twinip.Exchange
import RouterApps.Twinip.Settings
import RouterApps.Dhcpc.Collision
import RouterApps.Netdetect.Bounds
import RouterApps.Netdetect.Status
import RouterApps.SmartQos.Reading
import RouterApps.Udhcpd.SktSemo
import RouterApps.Udhcpd.LgdacomServer
import RouterApps.Salsa2.PortState
import RouterApps.Bridge.Root
import RouterApps.Bridge.Flood
import RouterApps.Igmpproxy.Registers
import RouterApps.Ispfake.Hook
import RouterApps.Bnet.References
import RouterApps.LanDevice.References
import RouterApps.Userland.Comma
import RouterApps.Userland.Base64
import RouterApps.Ddns.Countdown
import RouterApps.Conntrack.FtpPorts
import RouterApps.Iuxpc.Lansetup
import RouterApps.Iuxpc.Loadshare
import RouterApps.Iuxpc.Portforward
import RouterApps.GenConfig.Unlink
import RouterApps.Userland.Scan
import RouterApps.Iuxpc.Guard
