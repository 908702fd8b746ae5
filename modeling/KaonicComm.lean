import KaonicComm.Error
import KaonicComm.Lib.Runs
import KaonicComm.Lib.Bytes
import KaonicComm.Lib.Cell
import KaonicComm.Lib.Descriptors
import KaonicComm.Lib.Disk
import KaonicComm.Lib.DropOldest
import KaonicComm.Lib.Locks
import KaonicComm.Lib.Crc32
import KaonicComm.Lib.Proto3
import KaonicComm.Lib.Registers
import KaonicComm.Lib.BitFields
import KaonicComm.Lib.Masks
import KaonicComm.Lib.Sha256
import KaonicComm.Lib.Utf8
import KaonicComm.Proto.Messages
import KaonicComm.Proto.Wire
import KaonicComm.Frame
import KaonicComm.Radio.Config
import KaonicComm.Radio.Registers
import KaonicComm.Radio.Packing
import KaonicComm.Radio.Configure
import KaonicComm.Radio.Image
import KaonicComm.Radio.Filter
import KaonicComm.Radio.Traffic
import KaonicComm.Radio.Driver
import KaonicComm.Radio.FrontEnd
import KaonicComm.Radio.Results
import KaonicComm.Radio.History
import KaonicComm.Radio.Settings
import KaonicComm.Radio.Spi
import KaonicComm.Serial.Hdlc
import KaonicComm.Serial.Packet
import KaonicComm.Serial.RoundTrip
import KaonicComm.Serial.Escaping
import KaonicComm.Serial.Storage
import KaonicComm.Serial.Port
import KaonicComm.Mesh.Worker
import KaonicComm.Mesh.Callbacks
import KaonicComm.Mesh.NodeId
import KaonicComm.Services.ReceiveStreamDefs
import KaonicComm.Services.ReceiveStreamQueue
import KaonicComm.Services.ReceiveStream
import KaonicComm.Services.Transmit
import KaonicComm.Services.RadioService
import KaonicComm.Services.SerialService
import KaonicComm.Services.FrameLimit
import KaonicComm.Services.SerialTx
import KaonicComm.Services.SerialWorker
import KaonicComm.Services.GrpcService
import KaonicComm.Services.Origin
import KaonicComm.Services.Requests
import KaonicComm.Services.Locking
import KaonicComm.Services.FrameQueue
import KaonicComm.Services.Stations
import KaonicComm.Services.Startup
import KaonicComm.Ota.Text
import KaonicComm.Ota.Updater
import KaonicComm.Ota.Phases
import KaonicComm.Ota.Recovery
import KaonicComm.Ota.Releases
import KaonicComm.Ota.Sequential
import KaonicComm.Ota.Concurrent
import KaonicComm.Ota.Crash
import KaonicComm.Ota.Upload
import KaonicComm.Ota.Build
import KaonicComm.Ota.Provenance
import KaonicComm.Ota.Copies
import KaonicComm.Ota.Mixing
import KaonicComm.Ota.Apart
import KaonicComm.Ota.Overlap
import KaonicComm.Ota.Restarts
import KaonicComm.Ota.Service
