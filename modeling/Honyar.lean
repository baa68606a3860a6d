import Honyar.LocalScene.CondNumbers
import Honyar.LocalScene.Consult
import Honyar.LocalScene.Deferred
import Honyar.LocalScene.EventRun
import Honyar.LocalScene.Continue
import Honyar.Alink.Agree
import Honyar.Alink.LiveRules
import Honyar.Alink.ReportParts
import Honyar.Alink.Batches
import Honyar.Alink.Cron
import Honyar.Alink.Groups
import Honyar.TyZigbee.Frames
import Honyar.Base.ThreadPool
import Honyar.Base.HashMemory
import Honyar.Devices.Saving
import Honyar.Libhylink.Mirror
import Honyar.CloudLink.Ctrl
import Honyar.CloudLink.Service
import Honyar.CloudLink.Pairing
import Honyar.TyZigbee.DeviceTable
import Honyar.Hilink.Fields
import Honyar.Hilink.LocalList
import Honyar.Hilink.Views
import Honyar.Sessions.Integrity
import Honyar.LocalScene.TimeWindow
import Honyar.LocalScene.Comparison
import Honyar.LocalScene.SceneExec
import Honyar.LocalScene.TimerPool
import Honyar.LocalScene.QueueCalls
import Honyar.LocalScene.PtrTable
import Honyar.LocalScene.Propagate
import Honyar.LocalScene.Interval
import Honyar.LocalScene.ExecQueue
import Honyar.LocalScene.LinkList
import Honyar.LocalScene.PanelSet
import Honyar.LocalScene.DevRemoved
import Honyar.Sessions.Pace
import Honyar.Sessions.Packets
import Honyar.Sessions.SyncWait
import Honyar.Devices.Online
import Honyar.Devices.Snapshot
import Honyar.LinkList.Cleared
import Honyar.Base.HeapLedger
import Honyar.Libhylink.Elements
import Honyar.Libhylink.Forward
import Honyar.Hylink.SendBuffer
import Honyar.Hylink.SceneAdapter
import Honyar.TyZigbee.Lookup
import Honyar.TyZigbee.Values
import Honyar.TyZigbee.Online
import Honyar.Toolsdk.Base64
import Honyar.Toolsdk.Version
import Honyar.MsgQueue.Deadline
