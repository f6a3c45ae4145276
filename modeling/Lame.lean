import Lame.DriveTimeout
import Lame.AiWatchdog
import Lame.SerialFraming
import Lame.ModeSwitch
import Lame.ImageTransfer
import Lame.ModeRequest
import Lame.PacketAccesses
import Lame.BuilderBuffers
import Lame.WireFormat
import Lame.RejectedDatagrams
import Lame.DirectDrive
import Lame.Routing
import Lame.JoystickRange
import Lame.JoystickPresets
import Lame.Session
import Lame.ReceivedLengths
import Lame.HandleOwnership
import Lame.TransportGates
import Lame.CommandLine
import Lame.AprilTagsLocator
import Lame.EncoderPasses
import Lame.Connection
import Lame.Recovery
import Lame.EdgeClusters
import Lame.TagImage
import Lame.DetectorThreads
import Lame.PoolReliance
import Lame.Threshold
import Lame.Comparators
import Lame.PointSort
