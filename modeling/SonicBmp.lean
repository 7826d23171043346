import SonicBmp.Bgp.UpdateSafety
import SonicBmp.Bgp.AttrOrder
import SonicBmp.Bgp.AttrReads
import SonicBmp.Bgp.MessageReads
import SonicBmp.Bgp.HashFields
import SonicBmp.Bgp.BatchHeaders
import SonicBmp.Bgp.KafkaReplay
import SonicBmp.Bgp.ParserBounds
import SonicBmp.Bgp.EvpnFields
import SonicBmp.Bgp.CommunityText
import SonicBmp.Bgp.NextHop
import SonicBmp.Bgp.OpenGroups
import SonicBmp.Bgp.UnknownNlri
import SonicBmp.Bgp.LinkStateLists
import SonicBmp.Bgp.LinkStateWalk
import SonicBmp.Bgp.LinkStateAttrBounds
import SonicBmp.Bgp.SidLists
import SonicBmp.Bgp.ExtCommunityText
import SonicBmp.Bgp.RdText
import SonicBmp.Bgp.LabelBounds
import SonicBmp.Bgp.DescrCalls
import SonicBmp.Bgp.EndingAddress
import SonicBmp.Bgp.Bandwidth
import SonicBmp.ClientProgress
import SonicBmp.RunServer
import SonicBmp.Bus.RedisReset
import SonicBmp.Bus.KafkaPeers
import SonicBmp.Bus.LsRows
import SonicBmp.Bus.LsPrefixRows
import SonicBmp.Bgp.LsMerge
import SonicBmp.Bmp.Growth
import SonicBmp.Bmp.SessionRecords
import SonicBmp.Bmp.SessionReferences
import SonicBmp.Bus.TopicSelector
import SonicBmp.Bus.TopicTemplates
import SonicBmp.Startup
import SonicBmp.Collector
import SonicBmp.Bus.GroupLookup
import SonicBmp.Bmp.KafkaSession
import SonicBmp.Bmp.AsPathWidth
import SonicBmp.Bmp.PeerIsolation
import SonicBmp.Bmp.UpOffsets
import SonicBmp.Bmp.RibSession
import SonicBmp.Bmp.RecordFields
import SonicBmp.Bmp.OldMessages
import SonicBmp.Bmp.InitOrder
import SonicBmp.Bmp.StatCounters
import SonicBmp.Bmp.StatsReport
