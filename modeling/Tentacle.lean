import Tentacle.ApiTraffic
import Tentacle.BirthBeforeData
import Tentacle.BusDelivery
import Tentacle.BusRequests
import Tentacle.CodecAgreement
import Tentacle.CommandRouting
import Tentacle.EthernetIpBrowse
import Tentacle.EthernetIpDelivery
import Tentacle.EthernetIpFanOut
import Tentacle.EthernetIpHandles
import Tentacle.EthernetIpLifecycle
import Tentacle.EthernetIpTags
import Tentacle.EthernetIpTemplates
import Tentacle.EthernetIpWrites
import Tentacle.GatewayApi
import Tentacle.GatewayIsolation
import Tentacle.GatewayRecords
import Tentacle.GatewaySubscriptions
import Tentacle.GatewaySystem
import Tentacle.GitopsDeletions
import Tentacle.GitopsFeedback
import Tentacle.GitopsFiles
import Tentacle.HistoryBatches
import Tentacle.HistoryDiff
import Tentacle.HostGating
import Tentacle.HostStates
import Tentacle.KvExpiry
import Tentacle.KvPersist
import Tentacle.KvWatch
import Tentacle.LadderAgreement
import Tentacle.LadderCounters
import Tentacle.LadderLayout
import Tentacle.LadderPower
import Tentacle.LadderSource
import Tentacle.LadderTimers
import Tentacle.ManifestDiff
import Tentacle.ModbusBlockPlan
import Tentacle.ModbusCodec
import Tentacle.ModbusDeviceTable
import Tentacle.ModbusFeed
import Tentacle.ModbusMatching
import Tentacle.ModbusServerResponses
import Tentacle.ModbusServerSafety
import Tentacle.ModbusServerStream
import Tentacle.ModbusStoreFrame
import Tentacle.ModbusWriteThrough
import Tentacle.ModbusWrites
import Tentacle.ModuleInstall
import Tentacle.NatAliases
import Tentacle.NatRules
import Tentacle.NftSyntax
import Tentacle.OpcUaBrowse
import Tentacle.OrchestratorConvergence
import Tentacle.OrchestratorRestarts
import Tentacle.PlcInputs
import Tentacle.PlcPublisher
import Tentacle.PlcScannerBridge
import Tentacle.ProfinetArStates
import Tentacle.ProfinetConnect
import Tentacle.ProfinetCyclic
import Tentacle.ProfinetDcp
import Tentacle.ProfinetDcpSet
import Tentacle.ProfinetDevice
import Tentacle.ProfinetDispatch
import Tentacle.ProfinetIsolation
import Tentacle.ProfinetOutput
import Tentacle.ProfinetOutputFrames
import Tentacle.ProfinetRpcMatching
import Tentacle.ProfinetValidation
import Tentacle.RbeStream
import Tentacle.SampleConservation
import Tentacle.ScannerKvWatch
import Tentacle.SfQueue
import Tentacle.SfStranding
import Tentacle.SnmpDelivery
import Tentacle.SnmpMib
import Tentacle.SparkplugBdSeq
import Tentacle.SparkplugRoundTrip
import Tentacle.SparkplugSequence
import Tentacle.StBlocks
import Tentacle.StFrontEnd
import Tentacle.StPrecedence
import Tentacle.StRoundTrip
import Tentacle.StScans
import Tentacle.StStatements
import Tentacle.Telemetry
import Tentacle.UdtAssembly
import Tentacle.UdtPanics
import Tentacle.UdtRbe
import Tentacle.UdtSimulation
