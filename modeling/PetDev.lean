import PetDev.Lib.StepMachine
import PetDev.Lib.NonInterference
import PetDev.Lib.KeyStore
import PetDev.Lib.ListChange
import PetDev.Lib.Rounding
import PetDev.Lib.Trim
import PetDev.Lib.Emitting
import PetDev.Lib.FileTree
import PetDev.Lib.FrameAssembly
import PetDev.Lib.Memory
import PetDev.Lib.ObjectPool
import PetDev.Lib.InSequence
import PetDev.Lib.Partial
import PetDev.Lib.Blocks
import PetDev.Lib.Monitor
import PetDev.Java.Lang
import PetDev.Java.Loop
import PetDev.Java.Float
import PetDev.Java.Calendar
import PetDev.Java.Sum
import PetDev.Java.Month
import PetDev.Android.Alarm
import PetDev.Android.Looper
import PetDev.Feed.FeedAlarmManager
import PetDev.Feed.PlanRun
import PetDev.Feed.PlanDay
import PetDev.Feed.AlarmTime
import PetDev.Feed.ZeroClock
import PetDev.Feed.Feeder
import PetDev.Feed.Outed
import PetDev.Feed.EatWeight
import PetDev.Weight.PetWeight
import PetDev.Sip.Message
import PetDev.Sip.SipDevManager
import PetDev.Sip.Tracking
import PetDev.Sip.Phone
import PetDev.Sip.HeartBeat
import PetDev.Sip.Chain
import PetDev.Sip.FeedOnce
import PetDev.Sip.Dispatch
import PetDev.Detection.Comparer
import PetDev.Detection.Boxes
import PetDev.Detection.AggregateLuma
import PetDev.Detection.TwoDetectors
import PetDev.Detection.BoxSums
import PetDev.Detection.ImageProcessing
import PetDev.Detection.NeverThrows
import PetDev.Detection.MotionDetector
import PetDev.Detection.DecodeRgb
import PetDev.Stream.Streamer
import PetDev.Stream.Session
import PetDev.Stream.LastCommand
import PetDev.Stream.RetryBudget
import PetDev.App.AppStateManager
import PetDev.App.TaskResume
import PetDev.Camera.Recorder
import PetDev.Camera.Stop
import PetDev.Camera.Upload
import PetDev.Http.HttpManager
import PetDev.Http.ExactlyOnce
import PetDev.Http.SingleFlight
import PetDev.Http.Parameters
import PetDev.Store.MMKVUtil
import PetDev.Account.AccountManager
import PetDev.Adapter.PageRecyclerViewAdapter
import PetDev.Adapter.Notifications
import PetDev.Adapter.Paging
import PetDev.Files.FileUtil
import PetDev.Files.DataClearUtil
import PetDev.Util.TimeUtils
import PetDev.Uvc.Stream
import PetDev.Uvc.CameraFrames
import PetDev.Uvc.UserCaller
import PetDev.Uvc.IsoPackets
import PetDev.Uvc.Transfers
import PetDev.Uvc.Preview
import PetDev.Uvc.PreviewFrames
import PetDev.Uvc.PreviewStop
import PetDev.Uvc.PreviewOrder
import PetDev.Uvc.Words
import PetDev.Uvc.Descriptors
import PetDev.Uvc.DescriptorFormats
import PetDev.Uvc.Offers
import PetDev.Uvc.StreamCtrl
import PetDev.Uvc.Negotiation
import PetDev.Uvc.Altsetting
