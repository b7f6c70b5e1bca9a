import HciBluetooth.Sdp.RoundTrip
import HciBluetooth.Sdp.Position
import HciBluetooth.Sdp.SerializerLimits
import HciBluetooth.Sdp.SizeTable
import HciBluetooth.Sdp.Termination
import HciBluetooth.Sdp.Reset
import HciBluetooth.Host.CommandFormat
import HciBluetooth.Host.CommandTransfer
import HciBluetooth.Host.EventReplies
import HciBluetooth.Host.ChannelAllocation
import HciBluetooth.Host.LinkKeyReplies
import HciBluetooth.Host.ChannelReplies
import HciBluetooth.Host.ChannelLife
import HciBluetooth.Host.ConnectionHandles
import HciBluetooth.Host.RfcommFrames
import HciBluetooth.Host.SdpResponses
import HciBluetooth.Host.Initialisation
import HciBluetooth.Host.LogReading
import HciBluetooth.Host.LinkKeyFiles
import HciBluetooth.Host.LinkKeyCalls
import HciBluetooth.Pklg.StreamSafety
import HciBluetooth.Host.Footprint
import HciBluetooth.Host.Standstill
import HciBluetooth.Host.ChannelIsolation
import HciBluetooth.Host.SetupLedger
import HciBluetooth.Usb.HumanNames
import HciBluetooth.Ezusb.HexSafety
import HciBluetooth.Ezusb.HexImages
import HciBluetooth.Ezusb.RamContents
import HciBluetooth.Ezusb.Fx3Images
