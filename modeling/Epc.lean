import Epc.Cp.Seid
import Epc.Cp.GtpuTeid
import Epc.Up.Session
import Epc.Up.Usage
import Epc.Up.Proof.Sdf
import Epc.Cp.Proof.Tft
import Epc.Up.Proof.RefCountRuns
import Epc.Up.Proof.TeidFile
import Epc.Cp.Proof.BearerRules
import Epc.Up.Proof.DlRing
import Epc.Ddf.Forwarder
import Epc.Ddf.Packet
import Epc.Gx.Proof.Pack
import Epc.Cp.RuleName
import Epc.Cp.CcRequest
import Epc.Cp.GxSession
import Epc.Imsi
import Epc.Up.SponsDn
import Epc.Cp.Proof.LiConfig
import Epc.Cp.Proof.RuleDefinition
import Epc.Cp.Proof.PolicyStore
import Epc.Cp.Proof.Tad
import Epc.Cp.Proof.UpdateBearer
import Epc.LocalCsid
import Epc.Ipv6Network
import Epc.Cp.Proof.UeBooks
import Epc.Cp.Proof.TadFlow
import Epc.Cp.Proof.TadDelete
import Epc.Up.Gtpu
import Epc.Up.Echo
import Epc.Ddf.Receive
import Epc.Df.Proof.Record
import Epc.Admf.AddUeEntry
import Epc.Up.Proof.FilterUse
import Epc.Up.Proof.PeerCleanup
import Epc.Up.ListRemoval
import Epc.CsidUnlink
import Epc.CsidLink
import Epc.Cp.FlowCompare
import Epc.Cp.ReportedIds
import Epc.Cp.UpfList
import Epc.Up.RuleSwap
import Epc.Cp.IpPool
import Epc.Cp.FilterIndex
import Epc.Cp.BearerPdrs
