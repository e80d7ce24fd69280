import RustReality.Assets.Cache
import RustReality.Dns.SingleFlight
import RustReality.Handoff.AcceptOnce
import RustReality.Handoff.Continuity
import RustReality.Handoff.KeyWork
import RustReality.Handoff.Policy
import RustReality.Handoff.Udp.EndpointRoundTrip
import RustReality.Handoff.Udp.PmtuReject
import RustReality.Nxr.OpenOnce
import RustReality.Nxr.UdpFrameCanonical
import RustReality.Production.Supervisor
import RustReality.Production.Topology
import RustReality.Reality.CoverProfiles
import RustReality.Reality.SessionOnce
import RustReality.Routing.Transparency
import RustReality.Routing.TwoPass
import RustReality.Runtime.Resolve
import RustReality.Session.Transfer
import RustReality.Tls.ReadersAgree
import RustReality.Tls.ServerFlightSpec
import RustReality.Tls.TargetReadSpec
import RustReality.Tls.WriteRun
import RustReality.Transport.FdBudget
import RustReality.Transport.RelayTaskSpec
import RustReality.Vision.Stall
import RustReality.Vless.XudpStall
import RustReality.Xudp.GlobalMap
